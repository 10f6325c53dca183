import ResourceGraph.Proofs.Record.Content
import ResourceGraph.Scan.Pipeline

/-!
# The requests of a task

A task as a program that makes one request after the other: it reads the records of each selector,
makes its calls, and writes what they found. Every request waits for its answer, so that requests of
several tasks can be mixed. If nothing comes in between, the program does what running the task
does.
-/
namespace ResourceGraph

/-- One call, with all its repetitions. -/
structure Call where
  parameters : Option Fields
  attempted : Attempted (List Json)

inductive Program (α : Type) where
  | done (value : α)
  | read (key : Key) (next : Except StoreError (List Record) → Program α)
  | call (context : ScanContext) (parameters : Option Fields)
      (next : Attempted (List Json) → Program α)
  | write (key : Key) (records : List Record) (next : Except StoreError Unit → Program α)

def Source.read (source : Source) (key : Key) : Except StoreError (List Record) :=
  source.readScoped key.account key.region key.service key.operation

/-- Gives one answer to all that is read. -/
def Source.answering (answer : Except StoreError (List Record)) : Source where
  readScoped _ _ _ _ := answer
  readGlobal _ _ := answer
  scopes := .ok []

/-- What was found, with that of one more call. -/
def Pipeline.collect {m : Type → Type} [Monad m] (p : Pipeline m) (account : String)
    (task : ScanTask) (h : Harvest) (c : Call) : Harvest :=
  Harvest.add h c.attempted.retries
    (c.attempted.result.map (p.recordsOf account task.region c.parameters))

/-! ## The program of a task -/

namespace Program

variable {α : Type}

/-- Extends the objects by one parameter after the other, and goes on with the result. -/
def resolving (account region : String) (next : Except EvalError (List Fields) → Program α) :
    List Parameter → List Fields → Program α
  | [], objects => next (.ok objects)
  | q :: rest, objects =>
    let goOn (answer : Except StoreError (List Record)) : Program α :=
      match Parameter.extend (.answering answer) (.place account region) objects q with
      | .ok objects => resolving account region next rest objects
      | .error fault => next (.error fault)
    match q.dependsOn? with
    | some (service, operation) => .read ⟨account, region, service, operation⟩ goOn
    | none => goOn (.ok [])

variable {m : Type → Type} [Monad m]

/-- Makes a call with each of the parameter objects, and goes on with what was found. -/
def calling (p : Pipeline m) (account : String) (task : ScanTask)
    (next : Harvest → Program α) : List (Option Fields) → Harvest → Program α
  | [], h => next h
  | parameters :: rest, h =>
    .call (Pipeline.contextOf account task) parameters fun attempted =>
      calling p account task next rest (p.collect account task h ⟨parameters, attempted⟩)

/-- Answers the requests in turn, with nothing in between. -/
def exec (backend : Backend) (answer : ScanContext → Option Fields → m (Attempted (List Json))) :
    Program α → Store → m (Store × α)
  | .done value, store => pure (store, value)
  | .read key next, store => exec backend answer (next ((backend.source store).read key)) store
  | .call context parameters next, store => do
    let attempted ← answer context parameters
    exec backend answer (next attempted) store
  | .write key records next, store =>
    match backend.write store key records with
    | .ok store => exec backend answer (next (.ok ())) store
    | .error fault => exec backend answer (next (.error fault)) store

end Program

namespace Pipeline

variable {m : Type → Type} [Monad m]

/-- The parameters of each call, from what those of the operation resolve to. -/
def completeSets (parameters : List Parameter) :
    Except EvalError (List Fields) → List (Option Fields)
  | .ok objects => (objects.filter (Parameter.isComplete parameters)).map some
  | .error _ => []

/-- Writes what a task found, if it found anything. -/
def delivering (account : String) (task : ScanTask) (h : Harvest) :
    Program (Except StoreError TaskOutcome) :=
  if h.records.isEmpty then .done (.ok h.outcome)
  else .write (taskKey account task) h.records fun answer => .done (answer.map fun _ => h.outcome)

def nothingYet (task : ScanTask) : Harvest := ⟨.none (taskLabel task), []⟩

/-- Makes the calls and writes, or is skipped if there is nothing to call with. -/
def performing (p : Pipeline m) (account : String) (task : ScanTask) :
    List (Option Fields) → Program (Except StoreError TaskOutcome)
  | [] => .done (.ok { (nothingYet task).outcome with skipped := true })
  | set :: sets =>
    .calling p account task (delivering account task) (set :: sets) (nothingYet task)

/-- What a task asks for. -/
def program (p : Pipeline m) (account : String) (task : ScanTask) :
    Program (Except StoreError TaskOutcome) :=
  if (p.scanner? task.op.service task.op.operation).isNone then
    .done (.ok (nothingYet task).outcome)
  else if task.op.parameters.isEmpty then p.performing account task [none]
  else .resolving account task.region
    (fun resolved => p.performing account task (completeSets task.op.parameters resolved))
    task.op.parameters []

/-- What comes of a call. -/
def answer (p : Pipeline m) (context : ScanContext) (parameters : Option Fields) :
    m (Attempted (List Json)) :=
  match p.scanner? context.service context.operation with
  | some scanner => (RetryPolicy.ofSettings p.settings.retry).run (.ofSettings p.settings)
      (scanner.scan context parameters)
  | none => pure ⟨.ok [], 0⟩

end Pipeline

/-! ## Running a task -/

namespace Parameter

variable {source : Source} {account region : String} {objects : List Fields} {q : Parameter}

/-- A parameter reads its own operation at the place of the task, and nothing else. -/
theorem extend_answering {service operation : String}
    (h : q.dependsOn? = some (service, operation)) :
    extend (.answering (source.read ⟨account, region, service, operation⟩)) (.place account region)
      objects q = extend source (.place account region) objects q := by
  obtain ⟨key, s | v⟩ := q
  · obtain ⟨rfl, rfl⟩ := Prod.mk.inj (Option.some.inj h)
    rfl
  · cases h

theorem extend_literal {other : Source} (h : q.dependsOn? = none) :
    extend other (.place account region) objects q =
      extend source (.place account region) objects q := by
  obtain ⟨key, s | v⟩ := q
  · cases h
  · rfl

end Parameter

namespace Program

variable {α : Type} {m : Type → Type} [Monad m] {backend : Backend} {store : Store}
  {answer : ScanContext → Option Fields → m (Attempted (List Json))} {account region : String}

theorem exec_resolving {next : Except EvalError (List Fields) → Program α}
    {parameters : List Parameter} {objects : List Fields} :
    (resolving account region next parameters objects).exec backend answer store =
      (next (parameters.foldlM (Parameter.extend (backend.source store) (.place account region))
        objects)).exec backend answer store := by
  induction parameters generalizing objects with
  | nil => rfl
  | cons q rest ih =>
    rw [List.foldlM_cons]
    cases hq : q.dependsOn? with
    | some name =>
      obtain ⟨service, operation⟩ := name
      simp only [resolving, hq, exec, Parameter.extend_answering hq]
      cases Parameter.extend (backend.source store) (.place account region) objects q with
      | ok objects => exact ih
      | error fault => rfl
    | none =>
      have hliteral : Parameter.extend (.answering (.ok [])) (.place account region) objects q =
          Parameter.extend (backend.source store) (.place account region) objects q :=
        Parameter.extend_literal hq
      simp only [resolving, hq, hliteral]
      cases Parameter.extend (backend.source store) (.place account region) objects q with
      | ok objects => exact ih
      | error fault => rfl

variable [LawfulMonad m] {p : Pipeline m} {task : ScanTask}

theorem exec_calling {scanner : Scanner m} {next : Harvest → Program α}
    (hscanner : p.scanner? task.op.service task.op.operation = some scanner)
    {sets : List (Option Fields)} {h : Harvest} :
    (calling p account task next sets h).exec backend p.answer store =
      p.makeCalls account task scanner h sets >>= fun h =>
        (next h).exec backend p.answer store := by
  have hanswer : ∀ parameters, p.answer (Pipeline.contextOf account task) parameters =
      (RetryPolicy.ofSettings p.settings.retry).run (.ofSettings p.settings)
        (scanner.scan (Pipeline.contextOf account task) parameters) := by
    intro parameters
    simp only [Pipeline.answer, Pipeline.contextOf, hscanner]
  induction sets generalizing h with
  | nil => simp [calling, Pipeline.makeCalls]
  | cons parameters rest ih =>
    simp only [calling, exec, Pipeline.makeCalls, Pipeline.collect, bind_assoc, hanswer, ih]

end Program

namespace Pipeline

variable {m : Type → Type} [Monad m] {p : Pipeline m} {account : String} {task : ScanTask}
  {store : Store}

theorem callParameters_eq {source : Source} :
    callParameters source account task =
      if task.op.parameters.isEmpty then [none]
      else completeSets task.op.parameters (task.op.parameters.foldlM
        (Parameter.extend source (.place account task.region)) []) := by
  unfold callParameters Parameter.resolve
  split
  · rfl
  · cases task.op.parameters.foldlM (Parameter.extend source (.place account task.region)) [] with
    | ok objects => rfl
    | error fault => rfl

theorem exec_delivering {h : Harvest} :
    (delivering account task h).exec p.backend p.answer store =
      pure (p.commit account task h store) := by
  unfold delivering commit
  split
  · rfl
  · rw [Program.exec]
    cases p.backend.write store (taskKey account task) h.records with
    | ok store => rfl
    | error fault => rfl

/-- A registered task performs the calls for the parameters that it reads. -/
theorem exec_program (hscanner : (p.scanner? task.op.service task.op.operation).isSome) :
    (p.program account task).exec p.backend p.answer store =
      (p.performing account task
        (callParameters (p.backend.source store) account task)).exec p.backend p.answer store := by
  rw [callParameters_eq, program, if_neg (by simp [Option.isSome_iff_ne_none.1 hscanner])]
  split
  · rfl
  · exact Program.exec_resolving

/-- The program of a task, with nothing in between, is the task. -/
theorem runTask_eq_exec [LawfulMonad m] :
    p.runTask account store task = (p.program account task).exec p.backend p.answer store := by
  cases hscanner : p.scanner? task.op.service task.op.operation with
  | none => simp [runTask, gather, program, hscanner, Program.exec, commit, nothingYet]
  | some scanner =>
    rw [exec_program (by rw [hscanner]; rfl), runTask, gather]
    simp only [hscanner]
    cases callParameters (p.backend.source store) account task with
    | nil => simp [performing, Program.exec, commit, nothingYet]
    | cons set sets =>
      simp only [performing, Program.exec_calling hscanner, exec_delivering]
      rfl

end Pipeline

end ResourceGraph
