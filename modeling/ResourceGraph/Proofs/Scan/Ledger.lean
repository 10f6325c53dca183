import Mathlib.Algebra.BigOperators.Group.List.Basic
import ResourceGraph.Proofs.Scan.Writes

/-!
# The books of a scan

What a scan counts and what it stores are two ways to tell the same calls. Every task has its calls
in the order of its parameter objects, the pages of those that succeed are stored in that order, and
the counters are those of all calls together.
-/
namespace ResourceGraph

/-! ## The calls of a task -/

inductive Ending where
  | succeeded
  /-- With an error that stands for absence. -/
  | ignored
  | failed
deriving DecidableEq

namespace Call

def ending (c : Call) : Ending :=
  match c.attempted.result with
  | .ok _ => .succeeded
  | .error (.ignorable, _) => .ignored
  | .error _ => .failed

theorem length_eq_count (calls : List Call) : calls.length =
    calls.countP (·.ending = .succeeded) + calls.countP (·.ending = .ignored) +
      calls.countP (·.ending = .failed) := by
  induction calls with
  | nil => rfl
  | cons c calls ih =>
    rw [List.length_cons, List.countP_cons, List.countP_cons, List.countP_cons]
    cases c.ending with
    | succeeded => simp; omega
    | ignored => simp; omega
    | failed => simp; omega

end Call

namespace Pipeline

section Found

variable {m : Type → Type} [Monad m] {p : Pipeline m} {account : String} {task : ScanTask}
  {before calls : List Call} {h : Harvest}

/-- The pages of a call, with the place of the key and the parameters of the call. -/
def recordsOfCall (p : Pipeline m) (key : Key) (c : Call) : List Record :=
  match c.attempted.result with
  | .ok pages => p.recordsOf key.account key.region c.parameters pages
  | .error _ => []

/-- A harvest and the calls that it comes from. -/
structure Harvested (p : Pipeline m) (account : String) (task : ScanTask) (calls : List Call)
    (h : Harvest) : Prop where
  records : h.records = calls.flatMap (p.recordsOfCall (taskKey account task))
  counted : h.outcome.records = h.records.length
  called : h.outcome.calls = calls.length
  ignored : h.outcome.ignored = calls.countP (·.ending = .ignored)
  failed : h.outcome.failed = calls.countP (·.ending = .failed)

theorem Harvested.collect (hbefore : Harvested p account task before h) (c : Call) :
    Harvested p account task (before ++ [c]) (p.collect account task h c) := by
  obtain ⟨hrecords, hcounted, hcalled, hignored, hfailed⟩ := hbefore
  obtain ⟨parameters, (⟨kind, e⟩ | pages), retries⟩ := c
  · cases kind
    all_goals constructor
    all_goals simp [Pipeline.collect, Harvest.add, Except.map, recordsOfCall, Call.ending,
      hrecords, hcounted, hcalled, hignored, hfailed]
  · constructor
    all_goals simp [Pipeline.collect, Harvest.add, Except.map, recordsOfCall, Call.ending, taskKey,
      hrecords, hcounted, hcalled, hignored, hfailed]

theorem harvested_found : Harvested p account task calls (p.found account task calls) := by
  have hfold : ∀ {before : List Call} {h : Harvest}, Harvested p account task before h →
      Harvested p account task (before ++ calls) (calls.foldl (p.collect account task) h) := by
    induction calls with
    | nil =>
      intro before h hbefore
      rwa [List.append_nil]
    | cons c calls ih =>
      intro before h hbefore
      rw [List.foldl_cons, List.append_cons]
      exact ih (hbefore.collect c)
  cases calls with
  | nil => exact ⟨rfl, rfl, rfl, rfl, rfl⟩
  | cons c calls =>
    have hnothing : Harvested p account task [] (nothingYet task) := ⟨rfl, rfl, rfl, rfl, rfl⟩
    exact hfold hnothing

/-- A task is skipped if it has nothing to call with. -/
theorem skipped_found : (p.found account task calls).outcome.skipped = calls.isEmpty := by
  have hfold : ∀ {calls : List Call} {h : Harvest},
      (calls.foldl (p.collect account task) h).outcome.skipped = h.outcome.skipped := by
    intro calls
    induction calls with
    | nil => exact fun {h} => rfl
    | cons c calls ih =>
      intro h
      rw [List.foldl_cons, ih]
      obtain ⟨parameters, (⟨kind, e⟩ | pages), retries⟩ := c
      · cases kind
        all_goals rfl
      · rfl
  cases calls with
  | nil => rfl
  | cons c calls => exact hfold

end Found

/-! ## Sums -/

/-- The counters after some outcomes, by those before. -/
structure Totals (before : ScanSummary) (outcomes : List TaskOutcome) (after : ScanSummary) :
    Prop where
  account : after.account = before.account
  calls : after.calls = before.calls + (outcomes.map (·.calls)).sum
  recordsWritten : after.recordsWritten = before.recordsWritten + (outcomes.map (·.records)).sum
  ignored : after.ignored = before.ignored + (outcomes.map (·.ignored)).sum
  failed : after.failed = before.failed + (outcomes.map (·.failed)).sum
  skipped : after.skipped = before.skipped + outcomes.countP (·.skipped)
  perScope : (after.perScope.map (·.2)).sum =
    (before.perScope.map (·.2)).sum + (outcomes.map (·.records)).sum

theorem sum_perScope_absorb {summary : ScanSummary} {outcome : TaskOutcome} :
    ((summary.absorb outcome).perScope.map (·.2)).sum =
      (summary.perScope.map (·.2)).sum + outcome.records := by
  have hadded : ∀ before : Option Nat, id (before.getD 0 + outcome.records) =
      before.elim 0 id + outcome.records := by
    intro before
    cases before with
    | none => rfl
    | some n => rfl
  by_cases hzero : outcome.records = 0
  · simp [ScanSummary.absorb, hzero]
  · simp only [ScanSummary.absorb, if_neg hzero]
    exact Ordered.sum_adjust hadded

theorem totals_absorb {summary : ScanSummary} {outcomes : List TaskOutcome} :
    Totals summary outcomes (outcomes.foldl ScanSummary.absorb summary) := by
  induction outcomes generalizing summary with
  | nil => exact ⟨rfl, rfl, rfl, rfl, rfl, rfl, rfl⟩
  | cons outcome outcomes ih =>
    have hrest : Totals (summary.absorb outcome) outcomes _ := ih
    rw [List.foldl_cons]
    generalize outcomes.foldl ScanSummary.absorb (summary.absorb outcome) = after at hrest ⊢
    obtain ⟨haccount, hcalls, hrecords, hignored, hfailed, hskipped, hscope⟩ := hrest
    rw [sum_perScope_absorb] at hscope
    simp only [ScanSummary.absorb] at haccount hcalls hrecords hignored hfailed hskipped
    refine ⟨haccount, ?_, ?_, ?_, ?_, ?_, ?_⟩
    all_goals simp only [List.map_cons, List.sum_cons, List.countP_cons]
    all_goals omega

end Pipeline

/-! ## What is stored of a trace -/

/-- How many records were stored. -/
def Write.size (w : Write) : Nat := if w.answer.isOk then w.records.length else 0

theorem Pipeline.Replays.recordCount_eq {σ : Type} {p : Pipeline (StateM σ)} {st st' : σ}
    {s s' : Store} {trace : List Event} (h : p.Replays st s trace st' s') :
    s'.recordCount = s.recordCount + ((trace.filterMap Event.write?).map Write.size).sum := by
  induction h with
  | nil => rfl
  | cons hevent _ ih =>
    rw [ih]
    cases hevent with
    | read => rfl
    | call _ => rfl
    | write hwrite =>
      rw [(Backend.write_eq_ok_iff.1 hwrite).2, Store.recordCount_write, Nat.add_assoc]
      rfl
    | refuse _ => simp [Event.write?, Write.size, Except.isOk, Except.toBool]

theorem Delivered.sum_size {clock : Clock} {key : Key} {h : Harvest} {writes : List Write}
    {outcome : Except StoreError TaskOutcome} (hdelivered : Delivered clock key h writes outcome)
    (hanswers : ∀ w ∈ writes, w.answer = .ok ()) :
    (writes.map Write.size).sum = h.records.length := by
  cases hdelivered with
  | nothing hnone => simp [hnone]
  | @written stamped answer _ hstamped =>
    obtain rfl : answer = .ok () := hanswers _ List.mem_cons_self
    have hlength := congrArg List.length hstamped
    rw [List.length_map, List.length_map] at hlength
    simpa [Write.size, Except.isOk, Except.toBool] using hlength

namespace Backend

variable {key : Key} {h : Harvest}

theorem settle_reliable : reliable.settle key h = .ok h.outcome := by
  unfold settle
  split
  · rfl
  · rfl

theorem flatten_kept_reliable : (reliable.kept key h).flatten = h.records := by
  by_cases hnone : h.records = []
  · simp [kept, hnone]
  · have hadmits : (reliable.admits key).isOk = true := rfl
    simp [kept, hnone, hadmits]

end Backend

/-! ## The calls under a key -/

/-- The context of the calls for a key. -/
def Key.context (key : Key) : ScanContext := ⟨key.account, key.region, key.service, key.operation⟩

theorem Key.context_inj {key other : Key} (h : key.context = other.context) : key = other := by
  obtain ⟨account, region, service, operation⟩ := key
  obtain ⟨account', region', service', operation'⟩ := other
  cases h
  rfl

def Event.callUnder? (key : Key) (event : Event) : Option Call :=
  event.call?.bind fun entry => if entry.1 = key.context then some entry.2 else none

/-- The calls for a key, in order. -/
def callsUnder (key : Key) (trace : List Event) : List Call :=
  trace.filterMap (Event.callUnder? key)

theorem callsUnder_append {key : Key} {trace rest : List Event} :
    callsUnder key (trace ++ rest) = callsUnder key trace ++ callsUnder key rest :=
  List.filterMap_append

theorem callsUnder_eq_nil {key : Key} {trace : List Event}
    (h : ∀ context c, .call context c ∈ trace → context ≠ key.context) :
    callsUnder key trace = [] := by
  refine List.filterMap_eq_nil_iff.2 fun event hevent => ?_
  cases event with
  | read _ _ => rfl
  | write _ => rfl
  | call context c => simp [Event.callUnder?, Event.call?, h context c hevent]

namespace Pipeline

variable {σ : Type} {p : Pipeline (StateM σ)} {clock : Clock} {account : String} {st st' : σ}
  {s s₁ s' : Store}

theorem Performed.callsUnder_eq {task : ScanTask} {path : List Event}
    {outcome : Except StoreError TaskOutcome} {calls : List Call}
    (h : p.Performed clock account task path outcome calls) :
    callsUnder (taskKey account task) path = calls := by
  have hcalled : path.filterMap (Event.callUnder? (taskKey account task)) =
      (path.filterMap Event.call?).filterMap fun entry =>
        if entry.1 = (taskKey account task).context then some entry.2 else none := by
    rw [List.filterMap_filterMap]
    rfl
  rw [callsUnder, hcalled, h.called, List.filterMap_map]
  have hown : ∀ c : Call, ((fun entry : ScanContext × Call =>
      if entry.1 = (taskKey account task).context then some entry.2 else none) ∘
        fun c => (contextOf account task, c)) c = some c := fun c => if_pos rfl
  rw [funext hown, List.filterMap_some]

/-- What tasks did from one store to another: the calls of each, and what they left. -/
structure Performs (p : Pipeline (StateM σ)) (clock : Clock) (account : String) (s s' : Store)
    (trace : List Event) (runs : List TaskRun) : Prop where
  calls : ∀ run ∈ runs, callsUnder (taskKey account run.task) trace = run.calls
  only : ∀ key, key ∉ runs.map (fun run => taskKey account run.task) → callsUnder key trace = []
  appended : ∀ key, ∃ records, s'.read key = s.read key ++ records ∧
    records.map clock.forget =
      ((callsUnder key trace).flatMap (p.recordsOfCall key)).map clock.forget
  perm : ((trace.filterMap Event.call?).map (·.2)).Perm (runs.flatMap (·.calls))
  recordCount : s'.recordCount = s.recordCount +
    (runs.map fun run => (p.found account run.task run.calls).records.length).sum

theorem Performs.append {trace rest : List Event} {runs others : List TaskRun}
    (h : Performs p clock account s s₁ trace runs) (h' : Performs p clock account s₁ s' rest others)
    (hapart : ∀ run ∈ runs, ∀ other ∈ others,
      taskKey account run.task ≠ taskKey account other.task) :
    Performs p clock account s s' (trace ++ rest) (runs ++ others) := by
  refine ⟨fun run hrun => ?_, fun key hkey => ?_, fun key => ?_, ?_, ?_⟩
  · rw [callsUnder_append]
    rcases List.mem_append.1 hrun with hrun | hrun
    · rw [h.calls run hrun, h'.only, List.append_nil]
      intro hmem
      obtain ⟨other, hother, hsame⟩ := List.mem_map.1 hmem
      exact hapart run hrun other hother hsame.symm
    · rw [h'.calls run hrun, h.only, List.nil_append]
      intro hmem
      obtain ⟨other, hother, hsame⟩ := List.mem_map.1 hmem
      exact hapart other hother run hrun hsame
  · rw [List.map_append, List.mem_append, not_or] at hkey
    rw [callsUnder_append, h.only key hkey.1, h'.only key hkey.2, List.append_nil]
  · obtain ⟨records, hread, hrecords⟩ := h.appended key
    obtain ⟨records', hread', hrecords'⟩ := h'.appended key
    refine ⟨records ++ records', by rw [hread', hread, List.append_assoc], ?_⟩
    rw [callsUnder_append, List.flatMap_append, List.map_append, List.map_append, hrecords,
      hrecords']
  · rw [List.filterMap_append, List.map_append, List.flatMap_append]
    exact h.perm.append h'.perm
  · rw [h'.recordCount, h.recordCount, List.map_append, List.sum_append, Nat.add_assoc]

theorem Interleaved.Parts.performs {tasks : List ScanTask} {trace : List (Nat × Event)}
    {outcomes : List (Except StoreError TaskOutcome)} {runs : List TaskRun}
    (h : Parts p clock account tasks trace outcomes runs)
    (hreplays : p.Replays st s (trace.map (·.2)) st' s') (hbackend : p.backend = .reliable)
    (hkeys : (tasks.map (taskKey account)).Nodup) :
    Performs p clock account s s' (trace.map (·.2)) runs := by
  have hmap : runs.map (fun run => taskKey account run.task) = tasks.map (taskKey account) := by
    rw [← h.task, List.map_map]
    rfl
  have hcalls : ∀ run ∈ runs, callsUnder (taskKey account run.task) (trace.map (·.2)) =
      run.calls := by
    intro run hrun
    rw [callsUnder, h.filterMap_eq hkeys hrun, ← callsUnder, (h.performed run hrun).callsUnder_eq]
    intro other hother hne event hevent
    cases event with
    | read _ _ => rfl
    | write _ => rfl
    | call context c =>
      have hcontext : context = (taskKey account other.task).context :=
        (h.performed other hother).call_context hevent
      have hdiffers : context ≠ (taskKey account run.task).context := fun heq =>
        hne (Key.context_inj (hcontext.symm.trans heq))
      simp [Event.callUnder?, Event.call?, hdiffers]
  have honly : ∀ key, key ∉ runs.map (fun run => taskKey account run.task) →
      callsUnder key (trace.map (·.2)) = [] := by
    intro key hkey
    refine callsUnder_eq_nil fun context c hc heq => hkey ?_
    obtain ⟨task, htask, hcontext⟩ := h.exists_task_of_call hc
    have hsame : taskKey account task = key := Key.context_inj (hcontext.symm.trans heq)
    rw [hmap, ← hsame]
    exact List.mem_map_of_mem htask
  refine ⟨hcalls, honly, fun key => ?_, ?_, ?_⟩
  · by_cases hkey : key ∈ runs.map fun run => taskKey account run.task
    · obtain ⟨run, hrun, rfl⟩ := List.mem_map.1 hkey
      refine ⟨_, hreplays.read_eq, ?_⟩
      have hown : (trace.map (·.2)).filterMap (Event.storedUnder? (taskKey account run.task)) =
          run.path.filterMap (Event.storedUnder? (taskKey account run.task)) := by
        refine h.filterMap_eq hkeys hrun fun other hother hne event hevent => ?_
        cases event with
        | read _ _ => rfl
        | call _ _ => rfl
        | write w =>
          have hkey := (h.performed other hother).write_key hevent
          simp [Event.storedUnder?, Event.write?, Write.storedUnder?, hkey, hne]
      rw [hown, List.map_flatten, h.stored_eq hreplays hrun, if_pos rfl, ← List.map_flatten,
        hbackend, Backend.flatten_kept_reliable, harvested_found.records, hcalls run hrun]
    · refine ⟨[], ?_, by rw [honly key hkey]; rfl⟩
      rw [List.append_nil]
      refine hreplays.read_eq_of_not_mem fun hmem => hkey ?_
      rw [hmap]
      exact h.subperm_keys.subset hmem
  · refine ((h.perm.filterMap Event.call?).map (·.2)).trans (.of_eq ?_)
    rw [List.filterMap_flatMap, List.map_flatMap]
    refine List.flatMap_congr fun run hrun => ?_
    rw [(h.performed run hrun).called, List.map_map]
    exact List.map_id run.calls
  · rw [hreplays.recordCount_eq, ((h.perm.filterMap Event.write?).map Write.size).sum_eq,
      List.filterMap_flatMap, List.map_flatMap, List.flatMap_def, List.sum_flatten, List.map_map]
    congr 2
    refine List.map_congr_left fun run hrun => ?_
    refine (h.performed run hrun).delivered.sum_size fun w hw => ?_
    rw [h.write_answer hreplays hrun w hw, hbackend]
    rfl

/-! ## All levels -/

theorem absorbAll_map_ok {summary : ScanSummary} {outcomes : List TaskOutcome} :
    absorbAll summary (outcomes.map .ok) = .ok (outcomes.foldl ScanSummary.absorb summary) := by
  induction outcomes generalizing summary with
  | nil => rfl
  | cons outcome outcomes ih =>
    rw [List.map_cons, absorbAll_cons]
    exact ih

/-- What the first level reads is not changed any more. -/
theorem LevelsRun.callParameters_eq {summary : ScanSummary} {level : List PlannedOperation}
    {levels : List (List PlannedOperation)} {trace : List Event}
    {result : Except StoreError ScanSummary} {task : ScanTask}
    (h : p.LevelsRun clock account st s summary (level :: levels) trace st' s' result)
    (hlevels : p.Runnable (level :: levels)) (hop : task.op ∈ level) :
    callParameters (Backend.reliable.source s) account task =
      callParameters (Backend.reliable.source s') account task := by
  refine callParameters_congr (nofun : Clock.still = .running → _) fun name hname => ?_
  rw [h.replays.read_eq_of_not_mem]
  intro hwritten
  obtain ⟨other, hother, hkey⟩ :=
    List.mem_map.1 ((h.subperm_writtenKeys hlevels).subset hwritten)
  have hsame : other.op.name = name := name_eq_of_taskKey_eq hkey
  exact hlevels.unread_head hop (op_mem_of_mem_tasksFor hother) (hsame ▸ hname)

/-- What holds of the tasks of a level, and of those of two runs together if it holds of each, holds
of the tasks of all levels. Where the store refuses nothing there is no failure, and each task finds
its parameters as they read in the end. -/
theorem LevelsRun.exists_runs {R : Store → Store → List Event → List TaskRun → Prop}
    {summary : ScanSummary} {levels : List (List PlannedOperation)} {trace : List Event}
    {result : Except StoreError ScanSummary}
    (h : p.LevelsRun clock account st s summary levels trace st' s' result)
    (hlevels : p.Runnable levels) (hbackend : p.backend = .reliable) (hnil : ∀ s, R s s [] [])
    (hparts : ∀ {st st' : σ} {s s' : Store} {level : List PlannedOperation}
      {trace : List (Nat × Event)} {outcomes : List (Except StoreError TaskOutcome)}
      {runs : List TaskRun}, (level.map (·.name)).Nodup →
      Interleaved.Parts p clock account (tasksFor p.settings level) trace outcomes runs →
      p.Replays st s (trace.map (·.2)) st' s' → R s s' (trace.map (·.2)) runs)
    (happend : ∀ {s s₁ s' : Store} {trace rest : List Event} {runs others : List TaskRun},
      R s s₁ trace runs → R s₁ s' rest others →
      (∀ run ∈ runs, ∀ other ∈ others, taskKey account run.task ≠ taskKey account other.task) →
      R s s' (trace ++ rest) (runs ++ others)) :
    ∃ runs : List TaskRun, runs.map (·.task) = tasksFor p.settings levels.flatten ∧
      R s s' trace runs ∧
      (∀ run ∈ runs, run.calls.map (·.parameters) =
        callParameters (.ofStore s') account run.task) ∧
      result = .ok ((runs.map fun run => (p.found account run.task run.calls).outcome).foldl
        ScanSummary.absorb summary) := by
  have houtcomes : ∀ {st st' : σ} {s s' : Store} {tasks : List ScanTask}
      {trace : List (Nat × Event)} {outcomes : List (Except StoreError TaskOutcome)}
      {runs : List TaskRun}, Interleaved.Parts p clock account tasks trace outcomes runs →
      p.Replays st s (trace.map (·.2)) st' s' →
      outcomes = (runs.map fun run => (p.found account run.task run.calls).outcome).map .ok := by
    intro st st' s s' tasks trace outcomes runs h hreplays
    rw [← h.outcome, List.map_map]
    refine List.map_congr_left fun run hrun => ?_
    rw [h.outcome_eq hreplays hrun, hbackend, Backend.settle_reliable]
    rfl
  induction h with
  | done => exact ⟨[], rfl, hnil _, nofun, rfl⟩
  | @next st st₁ st' s s₁ s' summary summary₁ level levels trace rest outcomes result hlevel
      habsorb hrest ih =>
    obtain ⟨runs, hruns⟩ := hlevel.exists_parts hlevels.registered_head
    obtain ⟨others, hothers, hR, hparameters, hresult⟩ := ih hlevels.tail
    refine ⟨runs ++ others, ?_,
      happend (hparts hlevels.once_head hruns hlevel.replays) hR ?_, ?_, ?_⟩
    · rw [List.map_append, hruns.task, hothers, List.flatten_cons, tasksFor, tasksFor, tasksFor,
        List.flatMap_append]
    · intro run hrun other hother hsame
      have hop := op_mem_of_mem_tasksFor (hruns.task_mem hrun)
      have hop' := op_mem_of_mem_tasksFor (hothers ▸ List.mem_map_of_mem hother)
      have honce := hlevels.once
      rw [List.flatten_cons, List.map_append] at honce
      refine (List.nodup_append.1 honce).2.2 _ (List.mem_map_of_mem hop) _
        (List.mem_map_of_mem hop') ?_
      exact (name_eq_of_taskKey_eq hsame).trans (name_eq_of_taskKey_eq rfl).symm
    · intro run hrun
      rcases List.mem_append.1 hrun with hrun | hrun
      · -- what the task read when its level started is what is there in the end
        rw [hruns.calls_parameters hlevel.replays hlevels.unread_tasks hrun, hbackend]
        exact (LevelsRun.next hlevel habsorb hrest).callParameters_eq hlevels
          (op_mem_of_mem_tasksFor (hruns.task_mem hrun))
      · exact hparameters run hrun
    · rw [houtcomes hruns hlevel.replays, absorbAll_map_ok] at habsorb
      rw [hresult, List.map_append, List.foldl_append, Except.ok.inj habsorb]
  | failed hlevel habsorb =>
    obtain ⟨runs, hruns⟩ := hlevel.exists_parts hlevels.registered_head
    rw [houtcomes hruns hlevel.replays, absorbAll_map_ok] at habsorb
    cases habsorb

theorem LevelsRun.exists_performs {summary summary' : ScanSummary}
    {levels : List (List PlannedOperation)} {trace : List Event}
    (h : p.LevelsRun clock account st s summary levels trace st' s' (.ok summary'))
    (hlevels : p.Runnable levels) (hbackend : p.backend = .reliable)
    (hregions : p.settings.regions.Nodup) :
    ∃ runs : List TaskRun, runs.map (·.task) = tasksFor p.settings levels.flatten ∧
      Performs p clock account s s' trace runs ∧
      (∀ run ∈ runs, run.calls.map (·.parameters) =
        callParameters (.ofStore s') account run.task) ∧
      summary' = (runs.map fun run => (p.found account run.task run.calls).outcome).foldl
        ScanSummary.absorb summary := by
  have hnone : ∀ s, Performs p clock account s s [] [] := fun s =>
    ⟨nofun, fun _ _ => rfl, fun key => ⟨[], by rw [List.append_nil], rfl⟩, .nil, rfl⟩
  obtain ⟨runs, htasks, hperforms, hparameters, hresult⟩ := h.exists_runs hlevels hbackend hnone
    (fun honce hruns hreplays =>
      hruns.performs hreplays hbackend (nodup_taskKey_tasksFor honce hregions))
    Performs.append
  exact ⟨runs, htasks, hperforms, hparameters, Except.ok.inj hresult⟩

/-! ## The ledger of a scan -/

/-- What a scan did for each task, and what it says that it did. -/
structure Ledger (p : Pipeline (StateM σ)) (clock : Clock) (account : String)
    (tasks : List ScanTask) (s s' : Store) (trace : List Event) (summary : ScanSummary) :
    Prop where
  /-- A task makes one call for each of its parameter objects, in order. -/
  parameters : ∀ task ∈ tasks, (callsUnder (taskKey account task) trace).map (·.parameters) =
    callParameters (.ofStore s') account task
  /-- The pages of its calls are appended in order, each with the parameters of its call. -/
  appended : ∀ task ∈ tasks, ∃ records,
    s'.read (taskKey account task) = s.read (taskKey account task) ++ records ∧
    records.map clock.forget = ((callsUnder (taskKey account task) trace).flatMap
      (p.recordsOfCall (taskKey account task))).map clock.forget
  untouched : ∀ key, key ∉ tasks.map (taskKey account) →
    s'.read key = s.read key ∧ callsUnder key trace = []
  owner : summary.account = account
  recordsWritten : s'.recordCount = s.recordCount + summary.recordsWritten
  perScope : (summary.perScope.map (·.2)).sum = summary.recordsWritten
  calls : summary.calls =
    (tasks.map fun task => (callParameters (.ofStore s') account task).length).sum
  skipped : summary.skipped =
    tasks.countP fun task => (callParameters (.ofStore s') account task).isEmpty
  balance : summary.calls = ((trace.filterMap Event.call?).map (·.2)).countP
    (·.ending = .succeeded) + summary.ignored + summary.failed

/-- The summary of some tasks, by their calls. -/
structure Booked (p : Pipeline (StateM σ)) (account : String) (runs : List TaskRun)
    (summary : ScanSummary) : Prop where
  owner : summary.account = account
  calls : summary.calls = (runs.map (·.calls.length)).sum
  recordsWritten : summary.recordsWritten =
    (runs.map fun run => (p.found account run.task run.calls).records.length).sum
  ignored : summary.ignored = (runs.map fun run => run.calls.countP (·.ending = .ignored)).sum
  failed : summary.failed = (runs.map fun run => run.calls.countP (·.ending = .failed)).sum
  skipped : summary.skipped = runs.countP (·.calls.isEmpty)
  perScope : (summary.perScope.map (·.2)).sum = summary.recordsWritten

theorem booked_foldl {runs : List TaskRun} : Booked p account runs
    ((runs.map fun run => (p.found account run.task run.calls).outcome).foldl
      ScanSummary.absorb (.empty account)) := by
  have htotals : Totals (.empty account)
      (runs.map fun run => (p.found account run.task run.calls).outcome) _ := totals_absorb
  generalize (runs.map fun run => (p.found account run.task run.calls).outcome).foldl
    ScanSummary.absorb (.empty account) = summary at htotals ⊢
  obtain ⟨howner, hcalls, hrecords, hignored, hfailed, hskipped, hscope⟩ := htotals
  have hharvested : ∀ run : TaskRun, Harvested p account run.task run.calls
      (p.found account run.task run.calls) := fun _ => harvested_found
  refine ⟨howner, ?_, ?_, ?_, ?_, ?_, by rw [hscope, hrecords]; rfl⟩
  · simpa [ScanSummary.empty, Function.comp_def, (hharvested _).called] using hcalls
  · simpa [ScanSummary.empty, Function.comp_def, (hharvested _).counted] using hrecords
  · simpa [ScanSummary.empty, Function.comp_def, (hharvested _).ignored] using hignored
  · simpa [ScanSummary.empty, Function.comp_def, (hharvested _).failed] using hfailed
  · simpa [ScanSummary.empty, Function.comp_def, skipped_found, List.countP_map] using hskipped

theorem Performs.ledger {trace : List Event} {runs : List TaskRun} {tasks : List ScanTask}
    {summary : ScanSummary} (h : Performs p clock account s s' trace runs)
    (htasks : runs.map (·.task) = tasks) (hbooked : Booked p account runs summary)
    (hparameters : ∀ run ∈ runs, run.calls.map (·.parameters) =
      callParameters (.ofStore s') account run.task) :
    Ledger p clock account tasks s s' trace summary := by
  subst htasks
  have hcount : ∀ ending, ((trace.filterMap Event.call?).map (·.2)).countP (·.ending = ending) =
      (runs.map fun run => run.calls.countP (·.ending = ending)).sum := by
    intro ending
    rw [h.perm.countP_eq, List.countP_flatMap]
    rfl
  have hlength : (trace.filterMap Event.call?).length = (runs.map (·.calls.length)).sum := by
    rw [← List.length_map (f := (·.2)), h.perm.length_eq, List.length_flatMap]
  refine {
    parameters := fun task htask => ?_
    appended := fun task _ => h.appended _
    untouched := fun key hkey => ?_
    owner := hbooked.owner
    recordsWritten := by rw [h.recordCount, hbooked.recordsWritten]
    perScope := hbooked.perScope
    calls := ?_
    skipped := ?_
    balance := ?_ }
  · obtain ⟨run, hrun, rfl⟩ := List.mem_map.1 htask
    rw [h.calls run hrun, hparameters run hrun]
  · rw [List.map_map] at hkey
    have hnone := h.only key hkey
    obtain ⟨records, hread, hrecords⟩ := h.appended key
    rw [hnone] at hrecords
    rw [hread, List.map_eq_nil_iff.1 hrecords, List.append_nil]
    exact ⟨rfl, hnone⟩
  · rw [hbooked.calls, List.map_map]
    congr 1
    refine List.map_congr_left fun run hrun => ?_
    rw [Function.comp_apply, ← hparameters run hrun, List.length_map]
  · rw [hbooked.skipped, List.countP_map]
    refine List.countP_congr fun run hrun => ?_
    rw [Function.comp_apply, ← hparameters run hrun, List.isEmpty_map]
  · have hcalls := Call.length_eq_count ((trace.filterMap Event.call?).map (·.2))
    rw [List.length_map, hlength, hcount .ignored, hcount .failed] at hcalls
    rw [hbooked.calls, hbooked.ignored, hbooked.failed]
    exact hcalls

/-- Three calls, one of which fails. The ships of the south are skipped. -/
def afterStorm : ScanSummary :=
  ⟨"crew", 3, 2, 0, 1, 0, 1, [("north/Fleet|Ports", 1), ("north/Fleet|Ships", 1)]⟩

end Pipeline

end ResourceGraph
