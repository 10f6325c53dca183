import Mathlib.Logic.Relation
import ResourceGraph.Proofs.Record.Silence
import ResourceGraph.Proofs.Scan.Ledger
import ResourceGraph.Proofs.Service.LiteralOrder

/-!
# Operations without input

Where an operation leaves no records, those that read it have no complete parameter object: they
make no calls, leave no records either, and so starve the operations that read them. This says
nothing of operations with a key that several parameters give, which may find it elsewhere.
-/
namespace ResourceGraph

/-! ## Parameters -/

namespace Parameter

variable {source : Source} {scope : Scope} {parameters : List Parameter} {q : Parameter}
  {s : Selector} {objects : List Fields}

/-- A selector that gives nothing leaves no object complete, whatever the others give. -/
theorem eq_nil_of_resolve_eq_ok (hkeys : (parameters.map (·.key)).Nodup) (hq : q ∈ parameters)
    (hs : q.source = .selector s) (hnone : source.evaluate scope s = .ok [])
    (h : resolve source scope parameters = .ok objects) : objects = [] := by
  by_contra hne
  have hkeys' : ((parameters.map (supply source scope)).map (·.key)).Nodup := by
    rwa [map_key_supply]
  have hfirst : 0 < objects.length := List.length_pos_of_ne_nil hne
  -- the first object would take the first value of every selector
  obtain ⟨⟨-, havailable⟩, -⟩ :=
    ((aligned_of_resolve_eq_ok h).lt_length_iff_available hkeys').1 hfirst
  have hsupply : supply source scope q = ⟨q.key, .each []⟩ := by
    unfold supply
    rw [hs]
    simp [hnone, Except.toOption]
  have hmem : (⟨q.key, .each []⟩ : Supply) ∈ parameters.map (supply source scope) :=
    hsupply ▸ List.mem_map_of_mem hq
  exact Nat.not_lt_zero 0 (havailable q.key [] hmem)

end Parameter

namespace Pipeline

variable {account region : String} {task : ScanTask} {store : Store} {name : String × String}

/-- A task that reads an operation without records has nothing to call with. -/
theorem callParameters_eq_nil (hkeys : (task.op.parameters.map (·.key)).Nodup)
    (hname : name ∈ task.op.reads) (hnone : store.read (readKey account task name) = []) :
    callParameters (.ofStore store) account task = [] := by
  obtain ⟨q, hq, hdepends⟩ := List.mem_filterMap.1 hname
  obtain ⟨key, s | v⟩ := q
  · obtain rfl : (s.service, s.operation) = name := Option.some.inj hdepends
    have hevaluate : (Source.ofStore store).evaluate (.place account task.region) s = .ok [] :=
      Source.evaluate_of_no_records (congrArg Except.ok hnone)
    have hsome : task.op.parameters.isEmpty = false :=
      List.isEmpty_eq_false_iff.2 (List.ne_nil_of_mem hq)
    unfold callParameters
    rw [hsome]
    cases hresolve : Parameter.resolve (.ofStore store) (.place account task.region)
        task.op.parameters with
    | error fault => rfl
    | ok objects =>
      rw [Parameter.eq_nil_of_resolve_eq_ok hkeys hq rfl hevaluate hresolve]
      rfl
  · cases hdepends

/-! ## One operation after the other -/

variable {σ : Type} {p : Pipeline (StateM σ)} {clock : Clock} {st st' : σ} {s s' : Store}
  {trace : List Event} {runs : List TaskRun} {other : String × String} {plan : Plan}

/-- Parts of tasks in which every event of a trace has its place. -/
structure Parted (p : Pipeline (StateM σ)) (clock : Clock) (account : String) (trace : List Event)
    (runs : List TaskRun) : Prop where
  performed : ∀ run ∈ runs, p.Performed clock account run.task run.path run.outcome run.calls
  inside : ∀ event ∈ trace, ∃ run ∈ runs, event ∈ run.path

theorem Parted.append {rest : List Event} {others : List TaskRun}
    (h : Parted p clock account trace runs) (h' : Parted p clock account rest others) :
    Parted p clock account (trace ++ rest) (runs ++ others) where
  performed run hrun := (List.mem_append.1 hrun).elim (h.performed run) (h'.performed run)
  inside event hevent := by
    rcases List.mem_append.1 hevent with hevent | hevent
    · obtain ⟨run, hrun, hmem⟩ := h.inside event hevent
      exact ⟨run, List.mem_append_left _ hrun, hmem⟩
    · obtain ⟨run, hrun, hmem⟩ := h'.inside event hevent
      exact ⟨run, List.mem_append_right _ hrun, hmem⟩

/-- A task without calls writes nothing. -/
theorem Performed.write_not_mem {path : List Event} {outcome : Except StoreError TaskOutcome}
    (h : p.Performed clock account task path outcome []) (w : Write) : .write w ∉ path := by
  intro hw
  have hdelivered := h.delivered
  have hmem : w ∈ path.filterMap Event.write? := Event.mem_filterMap_write?.2 hw
  generalize path.filterMap Event.write? = writes at hdelivered hmem
  cases hdelivered with
  | nothing _ => cases hmem
  | written hsome _ => exact hsome rfl

/-- Tasks that make no calls leave no trace of calls or writes under their key. -/
theorem Parted.untouched {key : Key} (h : Parted p clock account trace runs)
    (hidle : ∀ run ∈ runs, taskKey account run.task = key → run.calls = []) :
    (∀ c, .call key.context c ∉ trace) ∧ key ∉ writtenKeys trace := by
  constructor
  · intro c hc
    obtain ⟨run, hrun, hmem⟩ := h.inside _ hc
    have hperformed := h.performed run hrun
    have hkey : key = taskKey account run.task :=
      Key.context_inj (hperformed.call_context hmem)
    rw [hkey] at hmem
    have hcall : c ∈ run.calls := hperformed.mem_calls_iff.2 hmem
    rw [hidle run hrun hkey.symm] at hcall
    cases hcall
  · intro hwritten
    obtain ⟨w, hw, hkey⟩ := List.mem_map.1 hwritten
    obtain ⟨run, hrun, hmem⟩ := h.inside _ (Event.mem_filterMap_write?.1 hw)
    have hperformed := h.performed run hrun
    have hidle := hidle run hrun ((hperformed.write_key hmem).symm.trans hkey)
    rw [hidle] at hperformed
    exact hperformed.write_not_mem w hmem

/-- What tasks did, and what each of them had to call with. -/
structure Ran (p : Pipeline (StateM σ)) (clock : Clock) (account : String)
    (tasks : List ScanTask) (s' : Store) (trace : List Event) (runs : List TaskRun) : Prop where
  tasks : runs.map (·.task) = tasks
  parted : Parted p clock account trace runs
  parameters : ∀ run ∈ runs, run.calls.map (·.parameters) =
    callParameters (.ofStore s') account run.task
  /-- The operation of a task is the one that the catalog first declares by its name. -/
  declared : ∀ run ∈ runs, (Plan.declared p.catalog).find? (·.name = run.task.op.name) =
    some run.task.op

theorem Scans.exists_ran {profile : String} {result : Except ScanError ScanSummary}
    (h : p.Scans clock st s profile trace st' s' result) (hbackend : p.backend = .reliable)
    (hidentity : p.identity profile = .ok account) (hplan : p.plan = .ok plan) :
    ∃ runs, Ran p clock account (tasksFor p.settings plan.levels.flatten) s' trace runs ∧
      result = .ok ((runs.map fun run => (p.found account run.task run.calls).outcome).foldl
        ScanSummary.absorb (.empty account)) := by
  cases h with
  | unidentified hfault => cases hidentity.symm.trans hfault
  | unplanned _ hfault => cases hplan.symm.trans hfault
  | planned hidentity' hplan' hlevels hanswer =>
    obtain rfl := Except.ok.inj (hidentity.symm.trans hidentity')
    obtain rfl := Except.ok.inj (hplan.symm.trans hplan')
    have hnone : Parted p clock account [] [] := ⟨nofun, nofun⟩
    obtain ⟨runs, htasks, hparted, hparameters, hresult⟩ := hlevels.exists_runs
      (R := fun _ _ => Parted p clock account) (.of_plan hplan) hbackend (fun _ => hnone)
      (fun _ hruns _ => ⟨hruns.performed, fun event => hruns.exists_run⟩)
      (fun h h' _ => h.append h')
    have hpeel := Plan.build_eq_ok_iff.1 hplan
    have hdeclared : ∀ run ∈ runs, (Plan.declared p.catalog).find? (·.name = run.task.op.name) =
        some run.task.op := by
      intro run hrun
      have hplanned : run.task.op ∈ plan.levels.flatten :=
        op_mem_of_mem_tasksFor (htasks ▸ List.mem_map_of_mem hrun)
      exact (Plan.mem_candidates_iff.1 ((Plan.perm_flatten hpeel).mem_iff.1 hplanned)).2
    refine ⟨runs, ⟨htasks, hparted, hparameters, hdeclared⟩, ?_⟩
    rw [hanswer, hresult]
    rfl

namespace Ran

variable {tasks : List ScanTask}

section Propagation

variable (h : Ran p clock account tasks s' trace runs)
  (hkeys : ∀ op ∈ Plan.declared p.catalog, (op.parameters.map (·.key)).Nodup)
include h hkeys

/-- A task has nothing to call with if it reads an operation without records. -/
theorem calls_eq_nil {run : TaskRun} (hrun : run ∈ runs)
    (hdepends : Plan.DependsOn p.catalog run.task.op.name other)
    (hnone : s'.read (readKey account run.task other) = []) : run.calls = [] := by
  obtain ⟨op, hfirst, hreads⟩ := hdepends
  obtain rfl : run.task.op = op := Option.some.inj ((h.declared run hrun).symm.trans hfirst)
  have hdistinct := hkeys _ (List.mem_of_find?_eq_some hfirst)
  have hparameters := h.parameters run hrun
  rw [callParameters_eq_nil hdistinct hreads hnone] at hparameters
  exact List.map_eq_nil_iff.1 hparameters

/-- An operation that reads one without records is not called, and writes nothing. -/
theorem untouched_of_dependsOn (hdepends : Plan.DependsOn p.catalog name other)
    (hnone : s'.read ⟨account, region, other.1, other.2⟩ = []) :
    (∀ run ∈ runs, taskKey account run.task = ⟨account, region, name.1, name.2⟩ →
      run.calls = []) ∧
    (∀ c, .call (Key.context ⟨account, region, name.1, name.2⟩) c ∉ trace) ∧
      ⟨account, region, name.1, name.2⟩ ∉ writtenKeys trace := by
  have hidle : ∀ run ∈ runs, taskKey account run.task = ⟨account, region, name.1, name.2⟩ →
      run.calls = [] := by
    intro run hrun hkey
    have hname : run.task.op.name = name := name_eq_of_taskKey_eq hkey
    have hregion : run.task.region = region := congrArg Key.region hkey
    subst hname hregion
    exact h.calls_eq_nil hkeys hrun hdepends hnone
  exact ⟨hidle, h.parted.untouched hidle⟩

/-- Along a chain of operations that read each other, each is left without records. -/
theorem exists_starved_read (hreplays : p.Replays st s trace st' s')
    (hempty : ∀ service operation, s.read ⟨account, region, service, operation⟩ = [])
    (hchain : Relation.TransGen (Plan.DependsOn p.catalog) name other)
    (hnone : s'.read ⟨account, region, other.1, other.2⟩ = []) :
    ∃ read, Plan.DependsOn p.catalog name read ∧
      s'.read ⟨account, region, read.1, read.2⟩ = [] := by
  induction hchain using Relation.TransGen.head_induction_on with
  | single hdepends => exact ⟨_, hdepends, hnone⟩
  | head hdepends _ ih =>
    obtain ⟨read, hread, hstarved⟩ := ih
    -- nothing is written there, so it is as empty as the region was
    obtain ⟨-, -, hunwritten⟩ := h.untouched_of_dependsOn hkeys hread hstarved
    exact ⟨_, hdepends, (hreplays.read_eq_of_not_mem hunwritten).trans (hempty _ _)⟩

end Propagation

end Ran

/-- A task without input makes no calls, writes nothing, and counts as skipped. -/
structure Starved (account : String) (trace : List Event) (task : ScanTask)
    (outcome : TaskOutcome) : Prop where
  uncalled : ∀ c, .call (contextOf account task) c ∉ trace
  unwritten : taskKey account task ∉ writtenKeys trace
  skipped : outcome = { TaskOutcome.none (taskLabel task) with skipped := true }

/-- Where keys are distinct and a region starts without records, every task starves that reads,
directly or through others, an operation which leaves no records there. Nothing fails for that: the
summary counts such tasks as skipped, each once. -/
theorem starvation_spreads (p : Pipeline (StateM σ)) (clock : Clock) (st : σ) (s : Store)
    (profile : String) (hbackend : p.backend = .reliable)
    (hidentity : p.identity profile = .ok account) (hplan : p.plan = .ok plan)
    (hkeys : ∀ op ∈ Plan.declared p.catalog, (op.parameters.map (·.key)).Nodup)
    (hempty : ∀ service operation, s.read ⟨account, region, service, operation⟩ = []) :
    (∃ trace, p.Scans clock st s profile trace
      ((p.scanAccount s profile).run st).2 ((p.scanAccount s profile).run st).1.1
      ((p.scanAccount s profile).run st).1.2) ∧
    ∀ trace st' s' result, p.Scans clock st s profile trace st' s' result →
      ∃ (summary : ScanSummary) (outcomes : List TaskOutcome), result = .ok summary ∧
        outcomes.length = (tasksFor p.settings plan.levels.flatten).length ∧
        summary = outcomes.foldl ScanSummary.absorb (.empty account) ∧
        summary.skipped = outcomes.countP (·.skipped) ∧
        ∀ origin : String × String, s'.read ⟨account, region, origin.1, origin.2⟩ = [] →
          ∀ (k : Nat) (task : ScanTask), (tasksFor p.settings plan.levels.flatten)[k]? = some task →
            task.region = region →
            Relation.TransGen (Plan.DependsOn p.catalog) task.op.name origin →
              ∃ outcome, outcomes[k]? = some outcome ∧ Starved account trace task outcome := by
  refine ⟨p.scans_scanAccount clock st s profile, fun trace st' s' result h => ?_⟩
  obtain ⟨runs, hran, hresult⟩ := h.exists_ran hbackend hidentity hplan
  have htotals : Totals (.empty account)
      (runs.map fun run => (p.found account run.task run.calls).outcome) _ := totals_absorb
  refine ⟨_, _, hresult, ?_, rfl, htotals.skipped.trans (Nat.zero_add _), ?_⟩
  · rw [← hran.tasks, List.length_map, List.length_map]
  · rintro origin horigin k task hk rfl hchain
    rw [← hran.tasks, List.getElem?_map, Option.map_eq_some_iff] at hk
    obtain ⟨run, hrun, rfl⟩ := hk
    obtain ⟨read, hread, hstarved⟩ :=
      hran.exists_starved_read hkeys h.replays hempty hchain horigin
    obtain ⟨hidle, huncalled, hunwritten⟩ := hran.untouched_of_dependsOn hkeys hread hstarved
    refine ⟨(p.found account run.task run.calls).outcome, ?_, huncalled, hunwritten, ?_⟩
    · rw [List.getElem?_map, hrun, Option.map_some]
    · rw [hidle run (List.mem_of_getElem? hrun) rfl]
      rfl

/-! ## Crews without ships -/

def shipResults : Selector :=
  ⟨"Fleet", "Ships", ⟨"[*].result", .project .current (.field "result")⟩⟩

def crews : PlannedOperation :=
  ⟨"fleet", "Fleet", "Crews", false,
    [⟨"kind", .value (.str "sailors")⟩, ⟨"ship", .selector shipResults⟩]⟩

/-- The harbour with crews for the ships, which have a literal parameter too. No ports are found in
the south. -/
def crewed : Pipeline (StateM Nat) :=
  { harbour ["north", "south"] southDown with
    catalog :=
      ⟨[{ Plan.fleet [] with operations := [⟨"Crews", crews.parameters⟩,
        ⟨"Ships", ships.parameters⟩, ⟨"Ports", []⟩] }], by decide⟩
    scanners := [("Fleet", "Ports"), ("Fleet", "Ships"), ("Fleet", "Crews")].map
      (counting southDown) }

theorem plan_crewed : crewed.plan = .ok ⟨[[ports], [ships], [crews]]⟩ := by
  cbv

theorem dependsOn_crewed : Relation.TransGen (Plan.DependsOn crewed.catalog) ("Fleet", "Crews")
    ("Fleet", "Ports") := by
  have hships : Plan.DependsOn crewed.catalog ("Fleet", "Crews") ("Fleet", "Ships") :=
    ⟨crews, rfl, List.mem_singleton_self _⟩
  have hports : Plan.DependsOn crewed.catalog ("Fleet", "Ships") ("Fleet", "Ports") :=
    ⟨ships, rfl, List.mem_singleton_self _⟩
  exact .head hships (.single hports)

/-- The ships and crews of the south are skipped. -/
theorem starvation_spreads_crewed : ∃ trace st' s' summary,
    crewed.Scans .still 0 .empty "crew" trace st' s' (.ok summary) ∧
      s'.read ⟨"crew", "south", "Fleet", "Ports"⟩ = [] ∧ summary.skipped = 2 ∧
      ∃ outcome, Starved "crew" trace ⟨crews, "south"⟩ outcome := by
  have hempty : ∀ service operation,
      Store.empty.read ⟨"crew", "south", service, operation⟩ = [] := fun _ _ => rfl
  obtain ⟨⟨trace, hscan⟩, hstarved⟩ :=
    starvation_spreads crewed .still 0 .empty "crew" rfl rfl plan_crewed (by decide) hempty
  obtain ⟨summary, outcomes, hresult, -, -, -, hall⟩ := hstarved _ _ _ _ hscan
  have hports : ((crewed.scanAccount .empty "crew").run 0).1.1.read
      ⟨"crew", "south", "Fleet", "Ports"⟩ = [] := by
    rw [scanAccount_of_plan rfl plan_crewed]
    rfl
  have hskipped : ((crewed.scanAccount .empty "crew").run 0).1.2.map (·.skipped) = .ok 2 := by
    rw [scanAccount_of_plan rfl plan_crewed]
    rfl
  obtain ⟨outcome, -, hcrews⟩ := hall ("Fleet", "Ports") hports 5 ⟨crews, "south"⟩ rfl rfl
    dependsOn_crewed
  rw [hresult] at hscan hskipped
  exact ⟨trace, _, _, summary, hscan, hports, Except.ok.inj hskipped, outcome, hcrews⟩

end Pipeline

end ResourceGraph
