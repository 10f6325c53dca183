import ResourceGraph.Proofs.Scan.Responses

/-!
# The writes of a scan

A scan writes under the keys of its tasks, and under no other. A task writes once at most. So a key
is written once at most, unless its region is listed more than once: then each listing has a task of
its own, and all of them write under the same key.
-/
namespace ResourceGraph.Pipeline

variable {σ : Type} {p : Pipeline (StateM σ)} {clock : Clock} {account profile : String}
  {st st' : σ} {s s' : Store} {trace : List Event} {key : Key}

/-- The keys that are written, as often as they are. -/
def writtenKeys (trace : List Event) : List Key := (trace.filterMap Event.write?).map (·.key)

theorem writtenKeys_append {trace rest : List Event} :
    writtenKeys (trace ++ rest) = writtenKeys trace ++ writtenKeys rest := by
  rw [writtenKeys, List.filterMap_append, List.map_append]
  rfl

/-- What is not written stays as it was. -/
theorem Replays.read_eq_of_not_mem (h : p.Replays st s trace st' s')
    (hkey : key ∉ writtenKeys trace) : s'.read key = s.read key := by
  have hnone : trace.filterMap (Event.storedUnder? key) = [] := by
    rw [Event.filterMap_storedUnder?]
    refine List.filterMap_eq_nil_iff.2 fun w hw => ?_
    rw [Write.storedUnder?, if_neg]
    intro hstored
    exact hkey (hstored.1 ▸ List.mem_map_of_mem hw)
  rw [h.read_eq, hnone, List.flatten_nil, List.append_nil]

namespace LevelsRun

variable {summary : ScanSummary} {levels : List (List PlannedOperation)}
  {result : Except StoreError ScanSummary}

theorem replays (h : p.LevelsRun clock account st s summary levels trace st' s' result) :
    p.Replays st s trace st' s' := by
  induction h with
  | done => exact .nil
  | next hlevel _ _ ih => exact hlevel.replays.append ih
  | failed hlevel _ => exact hlevel.replays

/-- All levels together have one write at most for each task. -/
theorem subperm_writtenKeys (h : p.LevelsRun clock account st s summary levels trace st' s' result)
    (hlevels : p.Runnable levels) : List.Subperm (writtenKeys trace)
      ((tasksFor p.settings levels.flatten).map (taskKey account)) := by
  induction h with
  | done => exact List.nil_subperm
  | next hlevel _ _ ih =>
    obtain ⟨runs, hparts⟩ := hlevel.exists_parts hlevels.registered_head
    rw [writtenKeys_append, List.flatten_cons, tasksFor, List.flatMap_append, List.map_append]
    exact hparts.subperm_keys.append (ih hlevels.tail)
  | @failed st st' s s' summary level levels trace outcomes fault hlevel _ =>
    obtain ⟨runs, hparts⟩ := hlevel.exists_parts hlevels.registered_head
    rw [List.flatten_cons, tasksFor, List.flatMap_append, List.map_append]
    exact hparts.subperm_keys.trans (List.sublist_append_left ..).subperm

end LevelsRun

/-! ## The scan of an account -/

namespace Scans

variable {result : Except ScanError ScanSummary}

theorem replays (h : p.Scans clock st s profile trace st' s' result) :
    p.Replays st s trace st' s' := by
  cases h with
  | unidentified _ => exact .nil
  | unplanned _ _ => exact .nil
  | planned _ _ hlevels _ => exact hlevels.replays

theorem exists_subperm_writtenKeys (h : p.Scans clock st s profile trace st' s' result) :
    writtenKeys trace = [] ∨ ∃ account ops, p.identity profile = .ok account ∧
      (ops.map PlannedOperation.name).Nodup ∧
      List.Subperm (writtenKeys trace) ((tasksFor p.settings ops).map (taskKey account)) := by
  cases h with
  | unidentified _ => exact .inl rfl
  | unplanned _ _ => exact .inl rfl
  | planned hidentity hplan hlevels _ =>
    have hrunnable := Runnable.of_plan hplan
    exact .inr ⟨_, _, hidentity, hrunnable.once, hlevels.subperm_writtenKeys hrunnable⟩

theorem account_of_mem_writtenKeys (h : p.Scans clock st s profile trace st' s' result)
    (hkey : key ∈ writtenKeys trace) : p.identity profile = .ok key.account := by
  rcases h.exists_subperm_writtenKeys with hnil | ⟨account, ops, hidentity, -, hsubperm⟩
  · rw [hnil] at hkey
    cases hkey
  · obtain ⟨task, -, rfl⟩ := List.mem_map.1 (hsubperm.subset hkey)
    exact hidentity

theorem count_writtenKeys_le (h : p.Scans clock st s profile trace st' s' result) (key : Key) :
    (writtenKeys trace).count key ≤ max 1 (p.settings.regions.count key.region) := by
  rcases h.exists_subperm_writtenKeys with hnil | ⟨account, ops, -, honce, hsubperm⟩
  · simp [hnil]
  · exact Nat.le_trans (hsubperm.count_le key) (count_taskKey_tasksFor_le honce)

end Scans

/-- A scan writes to the account of its profile only, and under a key as often as its region is
listed at most, or once. If no region is listed twice, no key is written twice. -/
theorem scans_writtenKeys (p : Pipeline (StateM σ)) (clock : Clock) (st : σ) (s : Store)
    (profile : String) :
    (∃ trace, p.Scans clock st s profile trace
      ((p.scanAccount s profile).run st).2 ((p.scanAccount s profile).run st).1.1
      ((p.scanAccount s profile).run st).1.2) ∧
    ∀ trace st' s' result, p.Scans clock st s profile trace st' s' result →
      (∀ key ∈ writtenKeys trace, p.identity profile = .ok key.account) ∧
      (∀ key, (writtenKeys trace).count key ≤ max 1 (p.settings.regions.count key.region)) ∧
      (p.settings.regions.Nodup → (writtenKeys trace).Nodup) := by
  refine ⟨p.scans_scanAccount clock st s profile, fun trace st' s' result h => ?_⟩
  refine ⟨fun key => h.account_of_mem_writtenKeys, h.count_writtenKeys_le, fun hregions => ?_⟩
  refine List.nodup_iff_count_le_one.2 fun key => ?_
  have hlisted := List.nodup_iff_count_le_one.1 hregions key.region
  exact Nat.le_trans (h.count_writtenKeys_le key) (by omega)

/-- With two regions, each key of the harbour is written once. -/
theorem scans_writtenKeys_harbour : ∃ trace st' s' result,
    (harbour ["north", "south"] oneEach).Scans .running 0 .empty "crew" trace st' s' result ∧
      ⟨"crew", "north", "Fleet", "Ports"⟩ ∈ writtenKeys trace ∧
      (∀ key ∈ writtenKeys trace, key.account = "crew") ∧
      (∀ key, (writtenKeys trace).count key ≤ max 1 (["north", "south"].count key.region)) ∧
      (writtenKeys trace).Nodup := by
  obtain ⟨rest, st', s', result, hscan⟩ := exists_scans_mixedPorts "north" "south"
  obtain ⟨-, hwritten⟩ :=
    scans_writtenKeys (harbour ["north", "south"] oneEach) .running 0 .empty "crew"
  obtain ⟨haccount, hcount, hnodup⟩ := hwritten _ _ _ _ hscan
  have hnorth : ⟨"crew", "north", "Fleet", "Ports"⟩ ∈
      writtenKeys ((mixedPorts "north" "south").map (·.2)) := by decide
  refine ⟨_, st', s', result, hscan, ?_, fun key hkey => ?_, hcount, hnodup (by decide)⟩
  · rw [writtenKeys_append]
    exact List.mem_append_left _ hnorth
  · exact (Except.ok.inj (haccount key hkey)).symm

/-- A region that is listed twice has its ports written twice. -/
theorem written_twice_of_repeated_region : ∃ trace st' s' result,
    (harbour ["north", "north"] oneEach).Scans .running 0 .empty "crew" trace st' s' result ∧
      1 < (writtenKeys trace).count ⟨"crew", "north", "Fleet", "Ports"⟩ := by
  obtain ⟨rest, st', s', result, hscan⟩ := exists_scans_mixedPorts "north" "north"
  have htwice : (writtenKeys ((mixedPorts "north" "north").map (·.2))).count
      ⟨"crew", "north", "Fleet", "Ports"⟩ = 2 := by decide
  refine ⟨_, st', s', result, hscan, ?_⟩
  rw [writtenKeys_append, List.count_append, htwice]
  omega

/-! ## Several accounts -/

namespace ScansAll

variable {profiles : List String} {results : List (String × Except ScanError ScanSummary)}

theorem replays (h : p.ScansAll clock st s profiles trace st' s' results) :
    p.Replays st s trace st' s' := by
  induction h with
  | nil => exact .nil
  | cons hscan _ ih => exact hscan.replays.append ih

theorem exists_profile_of_mem_writtenKeys
    (h : p.ScansAll clock st s profiles trace st' s' results) (hkey : key ∈ writtenKeys trace) :
    ∃ profile ∈ profiles, p.identity profile = .ok key.account := by
  induction h with
  | nil => cases hkey
  | cons hscan _ ih =>
    rw [writtenKeys_append] at hkey
    rcases List.mem_append.1 hkey with hkey | hkey
    · exact ⟨_, List.mem_cons_self, hscan.account_of_mem_writtenKeys hkey⟩
    · obtain ⟨profile, hprofile, hidentity⟩ := ih hkey
      exact ⟨profile, List.mem_cons_of_mem _ hprofile, hidentity⟩

end ScansAll

end ResourceGraph.Pipeline
