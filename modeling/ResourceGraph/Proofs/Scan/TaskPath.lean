import ResourceGraph.Proofs.Scan.Interleaving

/-!
# What a task does

The events of one task, whatever goes on beside it: it reads what its parameters name, makes a call
for each parameter object, and writes the pages of all calls at once, under its own key.
-/
namespace ResourceGraph

variable {clock : Clock} {path : List Event} {account region : String}

namespace Program.Follows

variable {α : Type} {value v : α}

theorem done_iff : (Program.done v).Follows clock path value ↔ path = [] ∧ value = v := by
  constructor
  · intro h
    cases h with
    | done => exact ⟨rfl, rfl⟩
    | next hgoes _ => cases hgoes
  · rintro ⟨rfl, rfl⟩
    exact .done

theorem read_iff {key : Key} {next : Except StoreError (List Record) → Program α} :
    (Program.read key next).Follows clock path value ↔
      ∃ answer rest, path = .read key answer :: rest ∧ (next answer).Follows clock rest value := by
  constructor
  · intro h
    cases h with
    | next hgoes hpath =>
      cases hgoes
      exact ⟨_, _, rfl, hpath⟩
  · rintro ⟨answer, rest, rfl, hrest⟩
    exact .next .read hrest

theorem call_iff {context : ScanContext} {parameters : Option Fields}
    {next : Attempted (List Json) → Program α} :
    (Program.call context parameters next).Follows clock path value ↔
      ∃ attempted rest, path = .call context ⟨parameters, attempted⟩ :: rest ∧
        (next attempted).Follows clock rest value := by
  constructor
  · intro h
    cases h with
    | next hgoes hpath =>
      cases hgoes
      exact ⟨_, _, rfl, hpath⟩
  · rintro ⟨attempted, rest, rfl, hrest⟩
    exact .next .call hrest

theorem write_iff {key : Key} {records : List Record}
    {next : Except StoreError Unit → Program α} :
    (Program.write key records next).Follows clock path value ↔
      ∃ stamped answer rest, path = .write ⟨key, stamped, answer⟩ :: rest ∧
        stamped.map clock.forget = records.map clock.forget ∧
        (next answer).Follows clock rest value := by
  constructor
  · intro h
    cases h with
    | next hgoes hpath =>
      obtain ⟨⟩ | ⟨⟩ | hstamped := hgoes
      exact ⟨_, _, _, rfl, hstamped, hpath⟩
  · rintro ⟨stamped, answer, rest, rfl, hstamped, hrest⟩
    exact .next (.write hstamped) hrest

/-- Parameters are read in turn. What they resolve to hangs on the answers alone. -/
theorem exists_reads {next : Except EvalError (List Fields) → Program α}
    {parameters : List Parameter} {objects : List Fields}
    (h : (resolving account region next parameters objects).Follows clock path value) :
    ∃ reads rest resolved, path = reads ++ rest ∧ (next resolved).Follows clock rest value ∧
      (∀ event ∈ reads, ∃ name ∈ parameters.filterMap Parameter.dependsOn?, ∃ answer,
        event = .read ⟨account, region, name.1, name.2⟩ answer) ∧
      ∀ source : Source, (∀ key answer, .read key answer ∈ reads → answer = source.read key) →
        resolved =
          parameters.foldlM (Parameter.extend source (.place account region)) objects := by
  induction parameters generalizing objects path with
  | nil => exact ⟨[], path, .ok objects, rfl, h, by simp, fun _ _ => rfl⟩
  | cons q parameters ih =>
    -- with the objects so far extended, the other parameters come next, unless there is a fault
    have hgoOn : ∀ (extended : Except EvalError (List Fields)) {goOn : Program α}
        {path : List Event},
        (∀ objects, extended = .ok objects →
          goOn = resolving account region next parameters objects) →
        (∀ fault, extended = .error fault → goOn = next (.error fault)) →
        goOn.Follows clock path value →
        ∃ reads rest resolved, path = reads ++ rest ∧ (next resolved).Follows clock rest value ∧
          (∀ event ∈ reads, ∃ name ∈ parameters.filterMap Parameter.dependsOn?, ∃ answer,
            event = .read ⟨account, region, name.1, name.2⟩ answer) ∧
          ∀ source : Source, (∀ key answer, .read key answer ∈ reads → answer = source.read key) →
            resolved = extended >>=
              parameters.foldlM (Parameter.extend source (.place account region)) := by
      intro extended goOn path hok hfault hpath
      cases extended with
      | ok objects =>
        rw [hok objects rfl] at hpath
        exact ih hpath
      | error fault =>
        rw [hfault fault rfl] at hpath
        exact ⟨[], path, .error fault, rfl, hpath, by simp, fun _ _ => rfl⟩
    cases hq : q.dependsOn? with
    | some name =>
      simp only [resolving, hq] at h
      obtain ⟨answer, path', rfl, hpath⟩ := read_iff.1 h
      obtain ⟨reads, rest, resolved, rfl, hrest, hreads, hresolved⟩ :=
        hgoOn (Parameter.extend (.answering answer) (.place account region) objects q)
          (fun _ heq => by rw [heq]) (fun _ heq => by rw [heq]) hpath
      rw [List.filterMap_cons_some hq]
      refine ⟨_ :: reads, rest, resolved, rfl, hrest, ?_, fun source hsource => ?_⟩
      · refine List.forall_mem_cons.2 ⟨⟨name, List.mem_cons_self, answer, rfl⟩, ?_⟩
        intro event hevent
        obtain ⟨other, hother, heq⟩ := hreads event hevent
        exact ⟨other, List.mem_cons_of_mem _ hother, heq⟩
      · have hanswer := hsource _ _ List.mem_cons_self
        rw [hresolved source fun key answer hmem => hsource key answer
          (List.mem_cons_of_mem _ hmem), hanswer, Parameter.extend_answering hq, List.foldlM_cons]
    | none =>
      simp only [resolving, hq] at h
      obtain ⟨reads, rest, resolved, rfl, hrest, hreads, hresolved⟩ :=
        hgoOn (Parameter.extend (.answering (.ok [])) (.place account region) objects q)
          (fun _ heq => by rw [heq]) (fun _ heq => by rw [heq]) h
      rw [List.filterMap_cons_none hq]
      refine ⟨reads, rest, resolved, rfl, hrest, hreads, fun source hsource => ?_⟩
      rw [hresolved source hsource, Parameter.extend_literal hq, List.foldlM_cons]

variable {m : Type → Type} [Monad m] {p : Pipeline m} {task : ScanTask}

/-- There is one call for each of the parameter objects, in their order. -/
theorem exists_calls {next : Harvest → Program α} {sets : List (Option Fields)} {h₀ : Harvest}
    (h : (calling p account task next sets h₀).Follows clock path value) :
    ∃ (calls : List Call) (rest : List Event),
      path = calls.map (.call (Pipeline.contextOf account task)) ++ rest ∧
      calls.map (·.parameters) = sets ∧
      (next (calls.foldl (p.collect account task) h₀)).Follows clock rest value := by
  induction sets generalizing path h₀ with
  | nil => exact ⟨[], path, rfl, rfl, h⟩
  | cons parameters sets ih =>
    rw [calling, call_iff] at h
    obtain ⟨attempted, path', rfl, hpath⟩ := h
    obtain ⟨calls, rest, rfl, rfl, hrest⟩ := ih hpath
    exact ⟨⟨parameters, attempted⟩ :: calls, rest, rfl, rfl, hrest⟩

end Program.Follows

/-- What was found goes out in one write, or none if nothing was found. -/
inductive Delivered (clock : Clock) (key : Key) (h : Harvest) :
    List Write → Except StoreError TaskOutcome → Prop
  | nothing (hnone : h.records = []) : Delivered clock key h [] (.ok h.outcome)
  | written {stamped : List Record} {answer : Except StoreError Unit} (hsome : h.records ≠ [])
      (hstamped : stamped.map clock.forget = h.records.map clock.forget) :
      Delivered clock key h [⟨key, stamped, answer⟩] (answer.map fun _ => h.outcome)

namespace Backend

/-- The outcome of a task that found this. -/
def settle (b : Backend) (key : Key) (h : Harvest) : Except StoreError TaskOutcome :=
  if h.records.isEmpty then .ok h.outcome else (b.admits key).map fun _ => h.outcome

/-- What is stored of what a task found: all or nothing. -/
def kept (b : Backend) (key : Key) (h : Harvest) : List (List Record) :=
  if h.records.isEmpty ∨ ¬ (b.admits key).isOk then [] else [h.records]

end Backend

namespace Delivered

variable {b : Backend} {key : Key} {h : Harvest} {writes : List Write}
  {outcome : Except StoreError TaskOutcome}

theorem outcome_eq (hdelivered : Delivered clock key h writes outcome)
    (hanswers : ∀ w ∈ writes, w.answer = b.admits w.key) : outcome = b.settle key h := by
  cases hdelivered with
  | nothing hnone => rw [Backend.settle, if_pos (by simp [hnone])]
  | @written stamped answer hsome _ =>
    obtain rfl : answer = b.admits key := hanswers _ List.mem_cons_self
    rw [Backend.settle, if_neg (by simp [hsome])]

theorem stored_eq (hdelivered : Delivered clock key h writes outcome)
    (hanswers : ∀ w ∈ writes, w.answer = b.admits w.key) (k : Key) :
    (writes.filterMap (Write.storedUnder? k)).map (·.map clock.forget) =
      if key = k then (b.kept key h).map (·.map clock.forget) else [] := by
  cases hdelivered with
  | nothing hnone => simp [Backend.kept, hnone]
  | @written stamped answer hsome hstamped =>
    obtain rfl : answer = b.admits key := hanswers _ List.mem_cons_self
    by_cases hkey : key = k
    · by_cases hadmits : (b.admits key).isOk
      · simp [Backend.kept, Write.storedUnder?, ← hkey, hsome, hadmits, hstamped]
      · simp [Backend.kept, Write.storedUnder?, ← hkey, hadmits]
    · simp [Write.storedUnder?, hkey]

end Delivered

namespace Pipeline

variable {m : Type → Type} [Monad m] {p : Pipeline m} {task : ScanTask}
  {outcome : Except StoreError TaskOutcome} {source : Source}

/-- What the calls of a task found. A task without calls is skipped. -/
def found (p : Pipeline m) (account : String) (task : ScanTask) : List Call → Harvest
  | [] => ⟨{ (nothingYet task).outcome with skipped := true }, []⟩
  | c :: calls => (c :: calls).foldl (p.collect account task) (nothingYet task)

/-- The key of the operation with this name, at the place of the task. -/
def readKey (account : String) (task : ScanTask) (name : String × String) : Key :=
  ⟨account, task.region, name.1, name.2⟩

/-- What a task did, if these are its events: it read at its own place, and made these calls. -/
structure Performed (p : Pipeline m) (clock : Clock) (account : String) (task : ScanTask)
    (path : List Event) (outcome : Except StoreError TaskOutcome) (calls : List Call) : Prop where
  reads : ∀ key answer, .read key answer ∈ path →
    ∃ name ∈ task.op.reads, key = readKey account task name
  /-- The calls are for the parameter objects that come of the answers. -/
  parameters : ∀ source : Source,
    (∀ key answer, .read key answer ∈ path → answer = source.read key) →
    calls.map (·.parameters) = callParameters source account task
  called : path.filterMap Event.call? = calls.map fun c => (contextOf account task, c)
  delivered : Delivered clock (taskKey account task) (p.found account task calls)
    (path.filterMap Event.write?) outcome

theorem delivered_of_follows {h : Harvest}
    (hpath : (delivering account task h).Follows clock path outcome) :
    path.filterMap Event.call? = [] ∧ (∀ key answer, .read key answer ∉ path) ∧
      Delivered clock (taskKey account task) h (path.filterMap Event.write?) outcome := by
  unfold delivering at hpath
  split at hpath
  · next hnone =>
    obtain ⟨rfl, rfl⟩ := Program.Follows.done_iff.1 hpath
    exact ⟨rfl, by simp, .nothing (List.isEmpty_iff.1 hnone)⟩
  · next hsome =>
    obtain ⟨stamped, answer, rest, rfl, hstamped, hrest⟩ := Program.Follows.write_iff.1 hpath
    obtain ⟨rfl, rfl⟩ := Program.Follows.done_iff.1 hrest
    exact ⟨rfl, by simp, .written (fun hnil => hsome (List.isEmpty_iff.2 hnil)) hstamped⟩

theorem performing_of_follows {sets : List (Option Fields)}
    (h : (p.performing account task sets).Follows clock path outcome) :
    (∀ key answer, .read key answer ∉ path) ∧ ∃ calls : List Call,
      calls.map (·.parameters) = sets ∧
      path.filterMap Event.call? = calls.map (fun c => (contextOf account task, c)) ∧
      Delivered clock (taskKey account task) (p.found account task calls)
        (path.filterMap Event.write?) outcome := by
  cases sets with
  | nil =>
    obtain ⟨rfl, rfl⟩ := Program.Follows.done_iff.1 h
    exact ⟨by simp, [], rfl, rfl, .nothing rfl⟩
  | cons set sets =>
    obtain ⟨calls, rest, rfl, hsets, hrest⟩ := Program.Follows.exists_calls h
    obtain ⟨hcalled, hunread, hdelivered⟩ := delivered_of_follows hrest
    have hfound : p.found account task calls =
        calls.foldl (p.collect account task) (nothingYet task) := by
      cases calls with
      | nil => cases hsets
      | cons c calls => rfl
    refine ⟨fun key answer => ?_, calls, hsets, ?_, ?_⟩
    · simp [hunread]
    · rw [List.filterMap_append, hcalled, List.append_nil, List.filterMap_map]
      exact congrFun List.filterMap_eq_map calls
    · have hnone :
          (calls.map (Event.call (contextOf account task))).filterMap Event.write? = [] := by
        rw [List.filterMap_map]
        exact List.filterMap_eq_nil_iff.2 fun c _ => rfl
      rw [List.filterMap_append, hnone, hfound]
      exact hdelivered

/-- The events of a registered task are those of its reads, its calls and its write. -/
theorem exists_performed (hscanner : (p.scanner? task.op.service task.op.operation).isSome)
    (h : (p.program account task).Follows clock path outcome) :
    ∃ calls, p.Performed clock account task path outcome calls := by
  rw [program, if_neg (by simp [Option.isSome_iff_ne_none.1 hscanner])] at h
  split at h
  · next hnone =>
    obtain ⟨hunread, calls, hsets, hcalled, hdelivered⟩ := performing_of_follows h
    refine ⟨calls, fun key answer hmem => absurd hmem (hunread key answer), fun source _ => ?_,
      hcalled, hdelivered⟩
    rw [callParameters_eq, if_pos hnone]
    exact hsets
  · next hsome =>
    obtain ⟨reads, rest, resolved, rfl, hrest, hreads, hresolved⟩ :=
      Program.Follows.exists_reads h
    obtain ⟨hunread, calls, hsets, hcalled, hdelivered⟩ := performing_of_follows hrest
    have honly : ∀ {β : Type} {f : Event → Option β}, (∀ key answer, f (.read key answer) = none) →
        reads.filterMap f = [] := by
      intro β f hf
      refine List.filterMap_eq_nil_iff.2 fun event hevent => ?_
      obtain ⟨name, -, answer, rfl⟩ := hreads event hevent
      exact hf _ _
    refine ⟨calls, fun key answer hmem => ?_, fun source hsource => ?_, ?_, ?_⟩
    · rcases List.mem_append.1 hmem with hmem | hmem
      · obtain ⟨name, hname, _, heq⟩ := hreads _ hmem
        cases heq
        exact ⟨name, hname, rfl⟩
      · exact absurd hmem (hunread key answer)
    · rw [callParameters_eq, if_neg hsome, hsets, hresolved source fun key answer hmem =>
        hsource key answer (List.mem_append_left rest hmem)]
    · rw [List.filterMap_append, honly fun _ _ => rfl, List.nil_append, hcalled]
    · rw [List.filterMap_append, honly fun _ _ => rfl, List.nil_append]
      exact hdelivered

namespace Performed

variable {calls : List Call}

/-- There is one write at most, under the key of the task. -/
theorem sublist_keys (h : p.Performed clock account task path outcome calls) :
    List.Sublist ((path.filterMap Event.write?).map (·.key)) [taskKey account task] := by
  have hdelivered := h.delivered
  generalize path.filterMap Event.write? = writes at hdelivered
  cases hdelivered with
  | nothing _ => exact List.nil_sublist _
  | written _ _ => exact List.Sublist.refl _

theorem write_key (h : p.Performed clock account task path outcome calls) {w : Write}
    (hw : .write w ∈ path) : w.key = taskKey account task :=
  List.mem_singleton.1 (h.sublist_keys.subset
    (List.mem_map_of_mem (Event.mem_filterMap_write?.2 hw)))

theorem mem_calls_iff (h : p.Performed clock account task path outcome calls) {c : Call} :
    c ∈ calls ↔ .call (contextOf account task) c ∈ path := by
  rw [← Event.mem_filterMap_call?, h.called]
  simp

/-- A task calls its own operation. -/
theorem call_context (h : p.Performed clock account task path outcome calls)
    {context : ScanContext} {c : Call} (hc : .call context c ∈ path) :
    context = contextOf account task := by
  rw [← Event.mem_filterMap_call?, h.called] at hc
  obtain ⟨c', -, heq⟩ := List.mem_map.1 hc
  exact (Prod.mk.inj heq).1.symm

end Performed

end Pipeline

end ResourceGraph
