import Mathlib.Logic.Relation
import ResourceGraph.Proofs.Scan.Agreement
import ResourceGraph.Proofs.Scan.Writes

/-!
# What a scan does not depend on

What is answered to one operation in one region is seen under the keys of the operation in that
region and of those that depend on it, and nowhere else. What is scanned for one account is not seen
by another.
-/
namespace ResourceGraph.Pipeline

variable {σ : Type} {p : Pipeline (StateM σ)} {clock : Clock} {account profile : String}
  {st st' : σ} {s s' : Store}

/-! ## One operation in one region -/

/-- The key is of another region, or of an operation that neither is the one with the name nor
depends on it through any chain. -/
def Unaffected (catalog : Catalog) (name : String × String) (region : String) (key : Key) : Prop :=
  key.region ≠ region ∨ (key.service, key.operation) ≠ name ∧
    ¬ Relation.TransGen (Plan.DependsOn catalog) (key.service, key.operation) name

/-- What an unaffected task reads is unaffected. -/
theorem unaffected_readKey {name read : String × String} {region : String} {task : ScanTask}
    {accepts : String → String → Bool} (hop : task.op ∈ Plan.candidates p.catalog accepts)
    (hread : read ∈ task.op.reads)
    (h : Unaffected p.catalog name region (taskKey account task)) :
    Unaffected p.catalog name region (readKey account task read) := by
  have hdepends : Plan.DependsOn p.catalog task.op.name read := Plan.dependsOn_of_mem hop hread
  rcases h with hregion | ⟨-, hchain⟩
  · exact .inl hregion
  · refine .inr ⟨fun heq => hchain ?_, fun htail => hchain ?_⟩
    · exact .single (heq ▸ hdepends)
    · exact .head hdepends htail

theorem alike_unaffected {scanners : List (Scanner (StateM σ))} {first second : Responses}
    {name : String × String} {region : String} {plan : Plan} (hbackend : p.backend = .reliable)
    (hfirst : p.AnswersAs first) (hsecond : (p.withScanners scanners).AnswersAs second)
    (hregistered : ∀ service operation,
      ((p.withScanners scanners).scanner? service operation).isSome =
        (p.scanner? service operation).isSome)
    (hclock : clock = .running → p.IgnoresTime)
    (hsame : ∀ context : ScanContext, (context.service, context.operation) = name ∧
      context.region = region ∨ first context = second context) (hplan : p.plan = .ok plan) :
    p.Alike scanners first second clock account (Unaffected p.catalog name region)
      plan.levels.flatten := by
  have hperm := Plan.perm_flatten (Plan.build_eq_ok_iff.1 hplan)
  exact {
    answersFirst := hfirst
    answersSecond := hsecond
    registered := fun op hop => by
      rw [hregistered]
      exact (Runnable.of_plan hplan).registered op hop
    untimed := fun hrunning => hclock hrunning plan hplan
    closed := fun task hop hkey read hread =>
      unaffected_readKey (hperm.mem_iff.1 hop) hread hkey
    same := fun task _ hkey => by
      rcases hsame (contextOf account task) with ⟨hname, hregion⟩ | heq
      · rcases hkey with hother | ⟨hother, -⟩
        · exact absurd hregion hother
        · exact absurd hname hother
      · exact heq
    admitted := fun task _ => .inr (by rw [hbackend]; rfl) }

/-! ## One account -/

/-- Scanning the account of a profile alone compares with scanning it before or after others. -/
theorem alike_account {responses : Responses} {plan : Plan} (hresponses : p.AnswersAs responses)
    (hclock : clock = .running → p.IgnoresTime)
    (hplan : p.plan = .ok plan) :
    p.Alike p.scanners responses responses clock account (fun key => key.account = account)
      plan.levels.flatten where
  answersFirst := hresponses
  answersSecond := hresponses
  registered := (Runnable.of_plan hplan).registered
  untimed hrunning := hclock hrunning plan hplan
  closed _ _ _ _ _ := rfl
  same _ _ _ := rfl
  admitted _ _ := .inl rfl

/-- The profiles that are those of an account. -/
def identified (p : Pipeline (StateM σ)) (profile : String) : Bool := (p.identity profile).isOk

/-- What scanning several profiles says of each of them. -/
structure Isolated (p : Pipeline (StateM σ)) (clock : Clock) (st : σ) (s : Store)
    (profiles : List String) (trace : List Event) (st' : σ) (s' : Store)
    (results : List (String × Except ScanError ScanSummary)) : Prop where
  order : results.map (·.1) = profiles
  /-- To scan the profile alone gives the same result, and leaves the same under its account. -/
  alone : ∀ profile result, (profile, result) ∈ results →
    ∀ st₀ trace₀ st₀' s₀' result₀, p.Scans clock st₀ s profile trace₀ st₀' s₀' result₀ →
      result = result₀ ∧ ∀ account, p.identity profile = .ok account →
        s'.AgreeOn clock (fun key => key.account = account) s₀'
  /-- A profile without an account has its fault as the result. -/
  fault : ∀ profile result e, (profile, result) ∈ results → p.identity profile = .error e →
    result = .error (.identity profile e)
  /-- Without the profiles that have no account, the same happens. -/
  without : p.ScansAll clock st s (profiles.filter p.identified) trace st' s'
    (results.filter fun entry => p.identified entry.1)
  untouched : ∀ key : Key, (∀ profile ∈ profiles, p.identity profile ≠ .ok key.account) →
    s'.read key = s.read key

theorem exists_fault_of_not_identified (h : p.identified profile = false) :
    ∃ e, p.identity profile = .error e := by
  unfold identified at h
  cases hidentity : p.identity profile with
  | error e => exact ⟨e, rfl⟩
  | ok account =>
    rw [hidentity] at h
    cases h

/-- Nothing is done for a profile without an account. -/
theorem Scans.of_unidentified {trace : List Event} {result : Except ScanError ScanSummary}
    (h : p.Scans clock st s profile trace st' s' result) {e : ProviderError}
    (hidentity : p.identity profile = .error e) :
    trace = [] ∧ st' = st ∧ s' = s ∧ result = .error (.identity profile e) := by
  cases h with
  | unidentified hidentity' =>
    obtain rfl := Except.error.inj (hidentity.symm.trans hidentity')
    exact ⟨rfl, rfl, rfl, rfl⟩
  | unplanned hidentity' _ => cases hidentity.symm.trans hidentity'
  | planned hidentity' _ _ _ => cases hidentity.symm.trans hidentity'

/-- The accounts of the profiles that have one. -/
def accountsOf (p : Pipeline (StateM σ)) (profiles : List String) : List String :=
  profiles.filterMap fun profile => (p.identity profile).toOption

theorem mem_accountsOf {profiles : List String} (hprofile : profile ∈ profiles)
    (h : p.identity profile = .ok account) : account ∈ p.accountsOf profiles :=
  List.mem_filterMap.2 ⟨profile, hprofile, by rw [h]; rfl⟩

/-- The account of the first profile is none of the others'. -/
theorem nodup_accountsOf_cons {profiles : List String}
    (h : (p.accountsOf (profile :: profiles)).Nodup) : (p.accountsOf profiles).Nodup ∧
      ∀ account, p.identity profile = .ok account → account ∉ p.accountsOf profiles := by
  unfold accountsOf at *
  cases hidentity : p.identity profile with
  | error e =>
    rw [List.filterMap_cons_none (by rw [hidentity]; rfl)] at h
    exact ⟨h, nofun⟩
  | ok account =>
    rw [List.filterMap_cons_some (by rw [hidentity]; rfl)] at h
    obtain ⟨hnot, hrest⟩ := List.nodup_cons.1 h
    refine ⟨hrest, fun other hother => ?_⟩
    rwa [← Except.ok.inj hother]

namespace ScansAll

variable {profiles : List String} {trace : List Event}
  {results : List (String × Except ScanError ScanSummary)}

theorem map_fst (h : p.ScansAll clock st s profiles trace st' s' results) :
    results.map (·.1) = profiles := by
  induction h with
  | nil => rfl
  | cons _ _ ih => rw [List.map_cons, ih]

theorem without_unidentified (h : p.ScansAll clock st s profiles trace st' s' results) :
    p.ScansAll clock st s (profiles.filter p.identified) trace st' s'
      (results.filter fun entry => p.identified entry.1) := by
  induction h with
  | nil => exact .nil
  | @cons st st₁ st' s s₁ s' profile profiles trace rest result results hscan _ ih =>
    cases hprofile : p.identified profile with
    | true =>
      simp only [List.filter_cons, hprofile, if_true]
      exact .cons hscan ih
    | false =>
      simp only [List.filter_cons, hprofile, if_false, Bool.false_eq_true]
      obtain ⟨fault, hidentity⟩ := exists_fault_of_not_identified hprofile
      obtain ⟨rfl, rfl, rfl, -⟩ := hscan.of_unidentified hidentity
      exact ih

/-- A profile without an account has its fault as the result. -/
theorem result_eq_fault (h : p.ScansAll clock st s profiles trace st' s' results)
    {result : Except ScanError ScanSummary} (hresult : (profile, result) ∈ results)
    {e : ProviderError} (hidentity : p.identity profile = .error e) :
    result = .error (.identity profile e) := by
  induction h with
  | nil => cases hresult
  | cons hscan _ ih =>
    rcases List.mem_cons.1 hresult with heq | hresult
    · obtain ⟨rfl, rfl⟩ := Prod.mk.inj heq
      exact (hscan.of_unidentified hidentity).2.2.2
    · exact ih hresult

theorem read_eq_of_forall_ne (h : p.ScansAll clock st s profiles trace st' s' results) {key : Key}
    (hkey : ∀ profile ∈ profiles, p.identity profile ≠ .ok key.account) :
    s'.read key = s.read key := by
  refine h.replays.read_eq_of_not_mem fun hmem => ?_
  obtain ⟨profile, hprofile, hidentity⟩ := h.exists_profile_of_mem_writtenKeys hmem
  exact hkey profile hprofile hidentity

/-- Scans of other accounts before or after it make no difference to the scan of an account. -/
theorem agreeOn_account {responses : Responses}
    (h : p.ScansAll clock st s profiles trace st' s' results) (hresponses : p.AnswersAs responses)
    (hclock : clock = .running → p.IgnoresTime)
    (hdistinct : (p.accountsOf profiles).Nodup) {result result₀ : Except ScanError ScanSummary}
    (hresult : (profile, result) ∈ results) (hidentity : p.identity profile = .ok account)
    {st₀ st₀' : σ} {s₀ s₀' : Store} {trace₀ : List Event}
    (hstart : s.AgreeOn clock (fun key => key.account = account) s₀)
    (halone : p.Scans clock st₀ s₀ profile trace₀ st₀' s₀' result₀) :
    s'.AgreeOn clock (fun key => key.account = account) s₀' ∧ result = result₀ := by
  induction h with
  | nil => cases hresult
  | @cons st st₁ st' s s₁ s' first profiles trace rest result₁ results hscan hrest ih =>
    obtain ⟨hdistinct, hfirst⟩ := nodup_accountsOf_cons hdistinct
    rcases List.mem_cons.1 hresult with heq | hresult
    · -- those that come after it write to other accounts
      obtain ⟨rfl, rfl⟩ := Prod.mk.inj heq
      obtain ⟨hstores, hresults⟩ := hscan.agreeOn halone (fun _ _ => rfl)
        (fun account' plan hidentity' hplan => by
          obtain rfl := Except.ok.inj (hidentity.symm.trans hidentity')
          exact alike_account hresponses hclock hplan) hstart
      refine ⟨fun key hkey => ?_, hresults fun account' task hidentity' => ?_⟩
      · rw [hrest.read_eq_of_forall_ne, hstores key hkey]
        intro other hother hsame
        exact hfirst account hidentity (mem_accountsOf hother (hkey ▸ hsame))
      · exact (Except.ok.inj (hidentity.symm.trans hidentity')).symm
    · -- the one before it did, so that it starts from the same
      refine ih hdistinct hresult fun key hkey => ?_
      rw [hscan.replays.read_eq_of_not_mem, hstart key hkey]
      intro hwritten
      have hprofile : profile ∈ profiles := hrest.map_fst ▸ List.mem_map_of_mem hresult
      exact hfirst key.account (hscan.account_of_mem_writtenKeys hwritten)
        (mem_accountsOf hprofile (hkey ▸ hidentity))

theorem isolated {responses : Responses}
    (h : p.ScansAll clock st s profiles trace st' s' results) (hresponses : p.AnswersAs responses)
    (hclock : clock = .running → p.IgnoresTime)
    (hdistinct : (p.accountsOf profiles).Nodup) :
    Isolated p clock st s profiles trace st' s' results where
  order := h.map_fst
  alone profile result hresult st₀ trace₀ st₀' s₀' result₀ halone := by
    cases hidentity : p.identity profile with
    | error e =>
      rw [h.result_eq_fault hresult hidentity, (halone.of_unidentified hidentity).2.2.2]
      exact ⟨rfl, nofun⟩
    | ok account =>
      obtain ⟨hstores, hresults⟩ := h.agreeOn_account hresponses hclock hdistinct hresult
        hidentity (fun _ _ => rfl) halone
      refine ⟨hresults, fun account' heq => ?_⟩
      rwa [← Except.ok.inj heq]
  fault profile result e hresult hidentity := h.result_eq_fault hresult hidentity
  without := h.without_unidentified
  untouched key hkey := h.read_eq_of_forall_ne hkey

end ScansAll

/-! ## Noninterference -/

/-- If two scans differ in the answers to one operation in one region only, every unaffected key
holds the same records after both. And profiles of distinct accounts are scanned as if each were
scanned alone. -/
theorem noninterference {responses : Responses} (hresponses : p.AnswersAs responses)
    (hclock : clock = .running → p.IgnoresTime) :
    (∀ st s profile, ∃ trace, p.Scans clock st s profile trace
      ((p.scanAccount s profile).run st).2 ((p.scanAccount s profile).run st).1.1
      ((p.scanAccount s profile).run st).1.2) ∧
    (∀ st s profiles, ∃ trace, p.ScansAll clock st s profiles trace
      ((p.scanAccounts s profiles).run st).2 ((p.scanAccounts s profiles).run st).1.1
      ((p.scanAccounts s profiles).run st).1.2) ∧
    (p.backend = .reliable →
      ∀ scanners others name region, (p.withScanners scanners).AnswersAs others →
        (∀ service operation, ((p.withScanners scanners).scanner? service operation).isSome =
          (p.scanner? service operation).isSome) →
        (∀ context : ScanContext, (context.service, context.operation) = name ∧
          context.region = region ∨ responses context = others context) →
        ∀ profile s st₁ trace₁ st₁' s₁' result₁ st₂ trace₂ st₂' s₂' result₂,
          p.Scans clock st₁ s profile trace₁ st₁' s₁' result₁ →
          (p.withScanners scanners).Scans clock st₂ s profile trace₂ st₂' s₂' result₂ →
          s₁'.AgreeOn clock (Unaffected p.catalog name region) s₂') ∧
    ∀ profiles st s trace st' s' results,
      p.ScansAll clock st s profiles trace st' s' results → (p.accountsOf profiles).Nodup →
      Isolated p clock st s profiles trace st' s' results := by
  refine ⟨p.scans_scanAccount clock, p.scansAll_scanAccounts clock, ?_, ?_⟩
  · intro hbackend scanners others name region hothers hregistered hsame profile s st₁ trace₁ st₁'
      s₁' result₁ st₂ trace₂ st₂' s₂' result₂ h₁ h₂
    have hagree := h₁.agreeOn h₂ hregistered (fun account plan _ hplan =>
      alike_unaffected hbackend hresponses hothers hregistered hclock hsame hplan) fun _ _ => rfl
    exact hagree.1
  · intro profiles st s trace st' s' results h hdistinct
    exact h.isolated hresponses hclock hdistinct

/-- Without its ports the south has no ships either, but nothing changes in the north, although the
ports there are found at another time. The crew and the guests are scanned as if each were alone,
whatever becomes of the ghost. -/
theorem noninterference_harbour :
    let store (responses : Responses) : Store :=
      (((harbour ["north", "south"] responses).scanAccount .empty "crew").run 0).1.1
    (∃ rest st' s' result, (harbour ["north", "south"] oneEach).Scans .running 0 .empty "crew"
        ((mixedPorts "north" "south").map (·.2) ++ rest) st' s' result ∧
      s'.AgreeOn .running (Unaffected harbours ("Fleet", "Ports") "south") (store southDown)) ∧
    Unaffected harbours ("Fleet", "Ports") "south" ⟨"crew", "north", "Fleet", "Ships"⟩ ∧
    ((store southDown).read ⟨"crew", "north", "Fleet", "Ships"⟩).length = 1 ∧
    ((store oneEach).read ⟨"crew", "south", "Fleet", "Ships"⟩).length = 1 ∧
    (store southDown).read ⟨"crew", "south", "Fleet", "Ships"⟩ = [] ∧
    ∃ trace st' s' results, Isolated (harbour ["north", "south"] oneEach) .running 0 .empty
      ["crew", "ghost", "guests"] trace st' s' results := by
  intro store
  have hresponses : (harbour ["north", "south"] oneEach).AnswersAs oneEach := answersAs_counting rfl
  obtain ⟨-, hscansAll, hregion, haccounts⟩ :=
    noninterference hresponses fun _ : Clock.running = .running => ignoresTime_harbour
  obtain ⟨rest, st', s', result, h₁⟩ := exists_scans_mixedPorts "north" "south"
  obtain ⟨trace₂, h₂⟩ :=
    (harbour ["north", "south"] southDown).scans_scanAccount .running 0 .empty "crew"
  obtain ⟨trace₃, h₃⟩ := hscansAll 0 .empty ["crew", "ghost", "guests"]
  refine ⟨⟨rest, st', s', result, h₁, ?_⟩, .inl (by decide), ?_, ?_, ?_, trace₃, _, _, _,
    haccounts _ _ _ _ _ _ _ h₃ (by decide)⟩
  · refine hregion rfl _ southDown _ _ (answersAs_counting rfl) (fun service operation => ?_)
      down_or_oneEach_eq_southDown _ _ _ _ _ _ _ _ _ _ _ _ h₁ h₂
    exact (isSome_scanner?_counting rfl service operation).trans
      (isSome_scanner?_counting rfl service operation).symm
  · simp only [store, scanAccount_harbour]
    rfl
  · simp only [store, scanAccount_harbour]
    rfl
  · simp only [store, scanAccount_harbour]
    rfl

/-- Ports that are called for in the south and are down there, and are found in the north. -/
def portsBesideStorm : List (Nat × Event) :=
  [(1, .call ⟨"crew", "south", "Fleet", "Ports"⟩ ⟨none, ⟨.error (.fatal, ⟨"Storm", ""⟩), 0⟩⟩),
    (0, portsCall "north"), (0, portsWrite "north" 4102444800)]

/-- A parameter that takes the time. While the south is down midnight passes, and ships are called
for in the north, where nothing else is different. And after the scan of the guests the ports of the
crew are late, so that the crew has ships which it does not have alone. -/
theorem late_ports_reveal_delay :
    (lateHarbour oneEach).AnswersAs oneEach ∧
    (∃ trace₁ st₁ s₁ result₁ rest₂ st₂ s₂ result₂,
      ((lateHarbour oneEach).withScanners (lateHarbour southDown).scanners).AnswersAs southDown ∧
      (∀ context : ScanContext, (context.service, context.operation) = ("Fleet", "Ports") ∧
        context.region = "south" ∨ oneEach context = southDown context) ∧
      (lateHarbour oneEach).Scans .running 0 .empty "crew" trace₁ st₁ s₁ result₁ ∧
      ((lateHarbour oneEach).withScanners (lateHarbour southDown).scanners).Scans .running 0 .empty
        "crew" (portsBesideStorm.map (·.2) ++ rest₂) st₂ s₂ result₂ ∧
      ¬ s₁.AgreeOn .running (Unaffected lateHarbours ("Fleet", "Ports") "south") s₂) ∧
    ∃ trace st' s' guests crew trace₀ st₀ s₀ alone,
      (lateHarbour oneEach).ScansAll .running 0 .empty ["guests", "crew"] trace st' s'
        [("guests", guests), ("crew", crew)] ∧
      ((lateHarbour oneEach).accountsOf ["guests", "crew"]).Nodup ∧
      (lateHarbour oneEach).Scans .running 0 .empty "crew" trace₀ st₀ s₀ alone ∧
      crew ≠ alone ∧ ¬ s'.AgreeOn .running (fun key => key.account = "crew") s₀ := by
  have hidentity : ∀ responses : Responses, (lateHarbour responses).identity "crew" = .ok "crew" :=
    fun _ => rfl
  obtain ⟨trace, halone⟩ := (lateHarbour oneEach).scans_scanAccount .running 0 .empty "crew"
  obtain ⟨trace', hguests⟩ := (lateHarbour oneEach).scans_scanAccount .running 0 .empty "guests"
  have hstorm : (lateHarbour southDown).Interleaved .running 0 .empty
      ((tasksFor (lateHarbour southDown).settings [ports]).map
        ((lateHarbour southDown).program "crew")) portsBesideStorm 2
      (Store.empty.withPort "north" 4102444800)
      [.ok (foundPort "north"), .ok ⟨"south/Fleet|Ports", 1, 0, 0, 1, 0, false⟩] :=
    .step rfl .call (.call rfl) (.step rfl .call (.call rfl)
      (.step rfl (.write rfl) (.write rfl) (.finished rfl)))
  obtain ⟨rest, hdown⟩ :=
    exists_scans_of_first_level (hidentity southDown) plan_lateHarbour hstorm rfl
  obtain ⟨rest', hafter⟩ := exists_scans_of_first_level (hidentity oneEach) plan_lateHarbour
    (interleaved_portsAtOnce (((lateHarbour oneEach).scanAccount .empty "guests").run 0).2
      (((lateHarbour oneEach).scanAccount .empty "guests").run 0).1.1) rfl
  have hnorth : Unaffected lateHarbours ("Fleet", "Ports") "south"
      ⟨"crew", "north", "Fleet", "Ships"⟩ := .inl (by decide)
  have hcrew : (⟨"crew", "north", "Fleet", "Ships"⟩ : Key).account = "crew" := rfl
  rw [scanAccount_lateHarbour (by decide)] at halone hguests hafter
  refine ⟨answersAs_counting rfl, ⟨trace, _, _, _, rest, _, _, _, answersAs_counting rfl,
    down_or_oneEach_eq_southDown, halone, hdown, fun h => ?_⟩,
    _, _, _, _, _, trace, _, _, _, .cons hguests (.cons hafter .nil), by decide, halone,
    fun h => ?_, fun h => ?_⟩
  · exact absurd (h.length_eq hnorth) (by decide +kernel)
  · exact absurd (congrArg scopesOf h) (by decide +kernel)
  · exact absurd (h.length_eq hcrew) (by decide +kernel)

end ResourceGraph.Pipeline
