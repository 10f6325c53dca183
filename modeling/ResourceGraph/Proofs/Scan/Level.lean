import Mathlib.Data.List.Count
import Mathlib.Data.List.Flatten
import Mathlib.Data.List.Perm.Subperm
import ResourceGraph.Proofs.Scan.Cycle
import ResourceGraph.Proofs.Scan.Run

/-!
# The tasks of a level

A plan has each operation once, and none reads one of its own level or of a later level. So no task
of a level reads what another one writes, and each finds what was there when the level started.
-/
namespace ResourceGraph

namespace Pipeline

variable {settings : ScanSettings} {ops : List PlannedOperation} {op : PlannedOperation}
  {task other : ScanTask} {account : String} {key : Key}

/-! ## Keys -/

theorem op_eq_of_mem_tasksOf (h : task ∈ tasksOf settings op) : task.op = op := by
  unfold tasksOf at h
  split at h
  · rw [List.mem_singleton.1 h]
  · obtain ⟨region, -, rfl⟩ := List.mem_map.1 h
    rfl

theorem tasksFor_cons : tasksFor settings (op :: ops) =
    tasksOf settings op ++ tasksFor settings ops :=
  List.flatMap_cons

theorem op_mem_of_mem_tasksFor (h : task ∈ tasksFor settings ops) : task.op ∈ ops := by
  obtain ⟨op, hop, htask⟩ := List.mem_flatMap.1 h
  rwa [op_eq_of_mem_tasksOf htask]

theorem name_eq_of_taskKey_eq (h : taskKey account task = key) :
    task.op.name = (key.service, key.operation) := by
  rw [← h]
  rfl

/-- A task is told by its key. -/
theorem eq_of_taskKey_eq (hops : (ops.map (·.name)).Nodup) (htask : task ∈ tasksFor settings ops)
    (hother : other ∈ tasksFor settings ops)
    (h : taskKey account task = taskKey account other) : task = other := by
  have hname : task.op.name = other.op.name :=
    (name_eq_of_taskKey_eq h).trans (name_eq_of_taskKey_eq rfl).symm
  have hop : task.op = other.op := List.inj_on_of_nodup_map hops
    (op_mem_of_mem_tasksFor htask) (op_mem_of_mem_tasksFor hother) hname
  have hregion : task.region = other.region := congrArg Key.region h
  obtain ⟨op, region⟩ := task
  obtain rfl : op = other.op := hop
  obtain rfl : region = other.region := hregion
  rfl

theorem count_effectiveRegions_le (region : String) :
    settings.effectiveRegions.count region ≤ max 1 (settings.regions.count region) := by
  unfold ScanSettings.effectiveRegions
  split
  · exact Nat.le_trans List.count_le_length (Nat.le_max_left ..)
  · exact Nat.le_max_right ..

/-- An operation has a key as often as the region is listed, or once. -/
theorem count_taskKey_tasksOf_le : ((tasksOf settings op).map (taskKey account)).count key ≤
    max 1 (settings.regions.count key.region) := by
  unfold tasksOf
  split
  · exact Nat.le_trans List.count_le_length (Nat.le_max_left ..)
  · refine Nat.le_trans ?_ (count_effectiveRegions_le key.region)
    rw [List.map_map, List.count_eq_countP, List.countP_map, List.count_eq_countP]
    refine List.countP_mono_left fun region _ h => ?_
    have hkey : taskKey account ⟨op, region⟩ = key := eq_of_beq h
    exact beq_iff_eq.2 (congrArg Key.region hkey)

theorem count_taskKey_tasksFor_le (hops : (ops.map (·.name)).Nodup) :
    ((tasksFor settings ops).map (taskKey account)).count key ≤
      max 1 (settings.regions.count key.region) := by
  have hother : ∀ {xs : List ScanTask},
      (∀ task ∈ xs, task.op.name ≠ (key.service, key.operation)) →
      (xs.map (taskKey account)).count key = 0 := by
    intro xs hxs
    refine List.count_eq_zero.2 fun hmem => ?_
    obtain ⟨task, htask, hkey⟩ := List.mem_map.1 hmem
    exact hxs task htask (name_eq_of_taskKey_eq hkey)
  induction ops with
  | nil => exact Nat.zero_le _
  | cons op ops ih =>
    obtain ⟨hop, hrest⟩ := List.nodup_cons.1 hops
    rw [tasksFor_cons, List.map_append, List.count_append]
    by_cases hname : op.name = (key.service, key.operation)
    · have hzero : ((tasksFor settings ops).map (taskKey account)).count key = 0 := by
        refine hother fun task htask heq => hop ?_
        exact List.mem_map.2 ⟨_, op_mem_of_mem_tasksFor htask, heq.trans hname.symm⟩
      rw [hzero]
      exact count_taskKey_tasksOf_le
    · have hzero : ((tasksOf settings op).map (taskKey account)).count key = 0 := by
        refine hother fun task htask => ?_
        rwa [op_eq_of_mem_tasksOf htask]
      rw [hzero, Nat.zero_add]
      exact ih hrest

theorem nodup_taskKey_tasksFor (hops : (ops.map (·.name)).Nodup)
    (hregions : settings.regions.Nodup) :
    ((tasksFor settings ops).map (taskKey account)).Nodup := by
  refine List.nodup_iff_count_le_one.2 fun key => ?_
  have hcount := List.nodup_iff_count_le_one.1 hregions key.region
  exact Nat.le_trans (count_taskKey_tasksFor_le hops) (by omega)

/-! ## Plans -/

/-- Levels of operations that have scanners. Each operation is there once, and it reads none of its
own level or of a later one. -/
structure Runnable {m : Type → Type} (p : Pipeline m) (levels : List (List PlannedOperation)) :
    Prop where
  registered : ∀ op ∈ levels.flatten, (p.scanner? op.service op.operation).isSome
  once : (levels.flatten.map (·.name)).Nodup
  beside : ∀ level ∈ levels, ∀ op ∈ level, ∀ other ∈ level, other.name ∉ op.reads
  later : levels.Pairwise fun level after => ∀ op ∈ level, ∀ other ∈ after, other.name ∉ op.reads

namespace Runnable

variable {m : Type → Type} {p : Pipeline m} {level : List PlannedOperation}
  {levels : List (List PlannedOperation)} {plan : Plan}

theorem of_plan (h : p.plan = .ok plan) : p.Runnable plan.levels := by
  have hpeel := Plan.build_eq_ok_iff.1 h
  -- the level of an operation is its longest chain of producers, and a producer has a shorter one
  have hreads : ∀ i j (hi : i < plan.levels.length) (hj : j < plan.levels.length), i ≤ j →
      ∀ op ∈ plan.levels[i], ∀ other ∈ plan.levels[j], other.name ∉ op.reads := by
    intro i j hi hj hle op hop other hother hread
    have hchain := (Plan.mem_level_iff hpeel).1 ⟨_, List.getElem?_eq_getElem hi, hop⟩
    have hproducer := (Plan.mem_level_iff hpeel).1 ⟨_, List.getElem?_eq_getElem hj, hother⟩
    exact absurd (hproducer.lt_of_reads hchain hread) (Nat.not_lt.2 hle)
  refine ⟨fun op hop => ?_, (Plan.layered_of_build_eq_ok h).once, fun level hlevel => ?_, ?_⟩
  · exact Plan.accepts_of_mem_candidates ((Plan.perm_flatten hpeel).mem_iff.1 hop)
  · obtain ⟨i, hi, rfl⟩ := List.mem_iff_getElem.1 hlevel
    exact hreads i i hi hi (Nat.le_refl i)
  · exact List.pairwise_iff_getElem.2 fun i j hi hj hij => hreads i j hi hj (Nat.le_of_lt hij)

theorem tail (h : p.Runnable (level :: levels)) : p.Runnable levels where
  registered op hop := h.registered op (List.mem_append_right level hop)
  once := h.once.sublist ((List.sublist_append_right level levels.flatten).map _)
  beside after hafter := h.beside after (List.mem_cons_of_mem level hafter)
  later := h.later.of_cons

theorem registered_head (h : p.Runnable (level :: levels)) :
    ∀ task ∈ tasksFor settings level, (p.scanner? task.op.service task.op.operation).isSome :=
  fun _ htask => h.registered _ (List.mem_append_left _ (op_mem_of_mem_tasksFor htask))

theorem once_head (h : p.Runnable (level :: levels)) : (level.map (·.name)).Nodup :=
  h.once.sublist ((List.sublist_append_left level levels.flatten).map _)

/-- The first level reads nothing that is written in it or later. -/
theorem unread_head (h : p.Runnable (level :: levels)) (hop : op ∈ level) {later : PlannedOperation}
    (hlater : later ∈ (level :: levels).flatten) : later.name ∉ op.reads := by
  rcases List.mem_append.1 hlater with hmem | hmem
  · exact h.beside level List.mem_cons_self op hop later hmem
  · obtain ⟨after, hafter, hmem⟩ := List.mem_flatten.1 hmem
    exact List.rel_of_pairwise_cons h.later hafter op hop later hmem

theorem unread_tasks (h : p.Runnable (level :: levels)) : ∀ task ∈ tasksFor settings level,
    ∀ other ∈ tasksFor settings level, other.op.name ∉ task.op.reads :=
  fun _ htask _ hother => h.unread_head (op_mem_of_mem_tasksFor htask)
    (List.mem_append_left _ (op_mem_of_mem_tasksFor hother))

end Runnable

/-! ## A level -/

/-- The part of one task in a level. -/
structure TaskRun where
  task : ScanTask
  path : List Event
  outcome : Except StoreError TaskOutcome
  calls : List Call

namespace Interleaved

variable {σ : Type} {p : Pipeline (StateM σ)} {clock : Clock} {st st' : σ} {s s' : Store}
  {tasks : List ScanTask} {trace : List (Nat × Event)}
  {outcomes : List (Except StoreError TaskOutcome)}

/-- What each task did, in the order of the tasks. -/
structure Parts (p : Pipeline (StateM σ)) (clock : Clock) (account : String)
    (tasks : List ScanTask) (trace : List (Nat × Event))
    (outcomes : List (Except StoreError TaskOutcome)) (runs : List TaskRun) : Prop where
  task : runs.map (·.task) = tasks
  outcome : runs.map (·.outcome) = outcomes
  path : ∀ k run, runs[k]? = some run → run.path = eventsOf k trace
  performed : ∀ run ∈ runs, p.Performed clock account run.task run.path run.outcome run.calls
  perm : (trace.map (·.2)).Perm (runs.flatMap (·.path))
  inside : ∀ entry ∈ trace, entry.1 < runs.length

/-- A list is the image of another if it is so at each position. -/
theorem map_eq_of_getElem? {α β : Type} {f : α → β} {xs : List α} {ys : List β}
    (hlength : xs.length = ys.length)
    (h : ∀ (k : Nat) (x : α), xs[k]? = some x → ys[k]? = some (f x)) : xs.map f = ys := by
  refine List.ext_getElem (by rw [List.length_map, hlength]) fun k hk hk' => ?_
  rw [List.getElem_map]
  have hat := h k _ (List.getElem?_eq_getElem (by rwa [List.length_map] at hk))
  rw [List.getElem?_eq_getElem hk'] at hat
  exact (Option.some.inj hat).symm

theorem exists_parts (h : p.Interleaved clock st s (tasks.map (p.program account)) trace st' s'
    outcomes) (hregistered : ∀ task ∈ tasks,
      (p.scanner? task.op.service task.op.operation).isSome) :
    ∃ runs, Parts p clock account tasks trace outcomes runs := by
  have hlength := h.length_eq
  have hlt := h.lt_length
  rw [List.length_map] at hlength hlt
  have hone : ∀ k ∈ List.range tasks.length, ∃ run : TaskRun, tasks[k]? = some run.task ∧
      outcomes[k]? = some run.outcome ∧ run.path = eventsOf k trace ∧
      p.Performed clock account run.task run.path run.outcome run.calls := by
    intro k hk
    obtain ⟨task, htask⟩ : ∃ task, tasks[k]? = some task :=
      ⟨_, List.getElem?_eq_getElem (List.mem_range.1 hk)⟩
    have hprogram : (tasks.map (p.program account))[k]? = some (p.program account task) := by
      rw [List.getElem?_map, htask, Option.map_some]
    obtain ⟨outcome, houtcome, hpath⟩ := h.follows hprogram
    obtain ⟨calls, hperformed⟩ :=
      exists_performed (hregistered _ (List.mem_of_getElem? htask)) hpath
    exact ⟨⟨task, _, outcome, calls⟩, htask, houtcome, rfl, hperformed⟩
  obtain ⟨runs, hruns⟩ := exists_forall₂_iff.2 hone
  have hcount : runs.length = tasks.length := by rw [← hruns.length_eq, List.length_range]
  have hat : ∀ k run, runs[k]? = some run → tasks[k]? = some run.task ∧
      outcomes[k]? = some run.outcome ∧ run.path = eventsOf k trace ∧
      p.Performed clock account run.task run.path run.outcome run.calls := by
    intro k run hk
    obtain ⟨hlt, rfl⟩ := List.getElem?_eq_some_iff.1 hk
    have hrun := hruns.get (by rwa [List.length_range, ← hcount]) hlt
    simpa using hrun
  have hpath : runs.map (·.path) = (List.range tasks.length).map fun k => eventsOf k trace := by
    refine map_eq_of_getElem? (by simp [hcount]) fun k run hk => ?_
    obtain ⟨htask, -, hpath, -⟩ := hat k run hk
    have hlt := (List.getElem?_eq_some_iff.1 htask).1
    rw [List.getElem?_map, List.getElem?_range hlt, hpath, Option.map_some]
  exact ⟨runs, {
    task := map_eq_of_getElem? hcount fun k run hk => (hat k run hk).1
    outcome := map_eq_of_getElem? (by rw [hcount, hlength]) fun k run hk => (hat k run hk).2.1
    path := fun k run hk => (hat k run hk).2.2.1
    performed := fun run hrun => by
      obtain ⟨k, hk⟩ := List.mem_iff_getElem?.1 hrun
      exact (hat k run hk).2.2.2
    perm := by
      rw [List.flatMap_def, hpath, ← List.flatMap_def]
      exact perm_flatMap_eventsOf hlt
    inside := by rwa [hcount] }⟩

namespace Parts

variable {runs : List TaskRun} {run : TaskRun}

theorem task_mem (h : Parts p clock account tasks trace outcomes runs) (hrun : run ∈ runs) :
    run.task ∈ tasks :=
  h.task ▸ List.mem_map_of_mem hrun

/-- Every event of the level is one of a task. -/
theorem exists_run (h : Parts p clock account tasks trace outcomes runs) {event : Event}
    (hevent : event ∈ trace.map (·.2)) : ∃ run ∈ runs, event ∈ run.path :=
  List.mem_flatMap.1 (h.perm.mem_iff.1 hevent)

theorem mem_trace (h : Parts p clock account tasks trace outcomes runs) (hrun : run ∈ runs)
    {event : Event} (hevent : event ∈ run.path) : event ∈ trace.map (·.2) :=
  h.perm.mem_iff.2 (List.mem_flatMap.2 ⟨run, hrun, hevent⟩)

/-- What the other tasks do not do is in the trace as the task did it. -/
theorem filterMap_eq (h : Parts p clock account tasks trace outcomes runs)
    (hkeys : (tasks.map (taskKey account)).Nodup) (hrun : run ∈ runs) {β : Type}
    {f : Event → Option β} (hothers : ∀ other ∈ runs,
      taskKey account other.task ≠ taskKey account run.task →
        ∀ event ∈ other.path, f event = none) :
    (trace.map (·.2)).filterMap f = run.path.filterMap f := by
  obtain ⟨k, hk⟩ := List.mem_iff_getElem?.1 hrun
  rw [h.path k run hk]
  refine filterMap_eq_of_only fun entry hentry hne => ?_
  obtain ⟨i, event⟩ := entry
  have hi := List.getElem?_eq_getElem (h.inside _ hentry)
  refine hothers _ (List.mem_of_getElem? hi) (fun hsame => hne ?_) event ?_
  · rw [← h.task, List.map_map] at hkeys
    refine (List.getElem?_inj ?_ hkeys).1 ?_
    · rw [List.length_map]
      exact h.inside _ hentry
    · rw [List.getElem?_map, List.getElem?_map, hi, hk]
      exact congrArg some hsame
  · rw [h.path i _ hi]
    exact mem_eventsOf_iff.2 hentry

theorem exists_task_of_write (h : Parts p clock account tasks trace outcomes runs) {w : Write}
    (hw : .write w ∈ trace.map (·.2)) : ∃ task ∈ tasks, w.key = taskKey account task := by
  obtain ⟨run, hrun, hmem⟩ := h.exists_run hw
  exact ⟨run.task, h.task_mem hrun, (h.performed run hrun).write_key hmem⟩

theorem exists_task_of_call (h : Parts p clock account tasks trace outcomes runs)
    {context : ScanContext} {c : Call} (hc : .call context c ∈ trace.map (·.2)) :
    ∃ task ∈ tasks, context = contextOf account task := by
  obtain ⟨run, hrun, hmem⟩ := h.exists_run hc
  exact ⟨run.task, h.task_mem hrun, (h.performed run hrun).call_context hmem⟩

/-- There is one write at most for each task. -/
theorem subperm_keys (h : Parts p clock account tasks trace outcomes runs) :
    List.Subperm (((trace.map (·.2)).filterMap Event.write?).map (·.key))
      (tasks.map (taskKey account)) := by
  refine ((h.perm.filterMap Event.write?).map (·.key)).subperm.trans ?_
  rw [← h.task, List.map_map, List.filterMap_flatMap, List.map_flatMap, List.map_eq_flatMap]
  exact (List.Sublist.flatMap_right runs fun run hrun =>
    (h.performed run hrun).sublist_keys).subperm

/-- What a task reads was there when the level started. -/
theorem calls_parameters (h : Parts p clock account tasks trace outcomes runs)
    (hreplays : p.Replays st s (trace.map (·.2)) st' s')
    (hunread : ∀ task ∈ tasks, ∀ other ∈ tasks, other.op.name ∉ task.op.reads)
    (hrun : run ∈ runs) :
    run.calls.map (·.parameters) = callParameters (p.backend.source s) account run.task := by
  refine (h.performed run hrun).parameters _ fun key answer hread => ?_
  obtain ⟨name, hname, rfl⟩ := (h.performed run hrun).reads key answer hread
  refine hreplays.read_answer (fun w hw heq => ?_) (h.mem_trace hrun hread)
  obtain ⟨other, hother, hkey⟩ := h.exists_task_of_write hw
  have hsame : other.op.name = name := name_eq_of_taskKey_eq (hkey.symm.trans heq)
  exact hunread _ (h.task_mem hrun) other hother (hsame ▸ hname)

theorem write_answer (h : Parts p clock account tasks trace outcomes runs)
    (hreplays : p.Replays st s (trace.map (·.2)) st' s') (hrun : run ∈ runs) :
    ∀ w ∈ run.path.filterMap Event.write?, w.answer = p.backend.admits w.key :=
  fun w hw => hreplays.write_answer w (h.mem_trace hrun (Event.mem_filterMap_write?.1 hw))

theorem outcome_eq (h : Parts p clock account tasks trace outcomes runs)
    (hreplays : p.Replays st s (trace.map (·.2)) st' s') (hrun : run ∈ runs) :
    run.outcome = p.backend.settle (taskKey account run.task)
      (p.found account run.task run.calls) :=
  (h.performed run hrun).delivered.outcome_eq (h.write_answer hreplays hrun)

theorem stored_eq (h : Parts p clock account tasks trace outcomes runs)
    (hreplays : p.Replays st s (trace.map (·.2)) st' s') (hrun : run ∈ runs) (key : Key) :
    (run.path.filterMap (Event.storedUnder? key)).map (·.map clock.forget) =
      if taskKey account run.task = key then
        (p.backend.kept (taskKey account run.task) (p.found account run.task run.calls)).map
          (·.map clock.forget)
      else [] := by
  rw [Event.filterMap_storedUnder?]
  exact (h.performed run hrun).delivered.stored_eq (h.write_answer hreplays hrun) key

end Parts

end Interleaved

end Pipeline

end ResourceGraph
