import ResourceGraph.Scan.Plan
import ResourceGraph.Scan.Retry

/-!
Scanning accounts. The levels of the plan run in order. In a level each operation runs in every
configured region, or in the default region if it is global; each of these tasks reads its
parameters, makes its calls, and then writes the pages of all calls at once, under its own key.
-/
namespace ResourceGraph

inductive ScanError where
  | identity (profile : String) (e : ProviderError)
  | plan (e : ConfigError)
  | storage (e : StoreError)

namespace ScanError

def message : ScanError → String
  | identity profile e =>
    "Cannot resolve account identity for profile `" ++ profile ++ "`: " ++ e.message
  | plan e => "Scan plan error: " ++ e.message
  | storage e => "Storage error: " ++ e.message

def code : ScanError → String
  | identity .. => "IDENTITY_RESOLUTION"
  | plan e => e.code
  | storage e => e.code

end ScanError

/-- What one task did. -/
structure TaskOutcome where
  label : String
  calls : Nat
  records : Nat
  ignored : Nat
  failed : Nat
  retried : Nat
  /-- There was nothing to call with. -/
  skipped : Bool

def TaskOutcome.none (label : String) : TaskOutcome := ⟨label, 0, 0, 0, 0, 0, false⟩

/-- Counters of the scan of one account. -/
structure ScanSummary where
  account : String
  calls : Nat
  recordsWritten : Nat
  ignored : Nat
  failed : Nat
  retried : Nat
  skipped : Nat
  /-- Records by region and operation, in ascending order. -/
  perScope : List (String × Nat)

namespace ScanSummary

def empty (account : String) : ScanSummary := ⟨account, 0, 0, 0, 0, 0, 0, []⟩

def absorb (s : ScanSummary) (o : TaskOutcome) : ScanSummary where
  account := s.account
  calls := s.calls + o.calls
  recordsWritten := s.recordsWritten + o.records
  ignored := s.ignored + o.ignored
  failed := s.failed + o.failed
  retried := s.retried + o.retried
  skipped := s.skipped + (if o.skipped then 1 else 0)
  perScope :=
    if o.records = 0 then s.perScope
    else Ordered.adjust o.label (fun n => n.getD 0 + o.records) s.perScope

end ScanSummary

/-- A task's operation and region. -/
structure ScanTask where
  op : PlannedOperation
  region : String

/-- What a task found, to be written. -/
structure Harvest where
  outcome : TaskOutcome
  records : List Record

structure Pipeline (m : Type → Type) where
  catalog : Catalog
  backend : Backend
  /-- The account of a profile. -/
  identity : String → Except ProviderError String
  /-- The latest first. -/
  scanners : List (Scanner m)
  settings : ScanSettings
  /-- The time stamped on records. -/
  now : Nat

namespace Pipeline

variable {m : Type → Type} [Monad m]

/-- A scanner takes the place of an earlier one for the same operation. -/
def register (p : Pipeline m) (scanner : Scanner m) : Pipeline m :=
  { p with scanners := scanner :: p.scanners }

def scanner? (p : Pipeline m) (service operation : String) : Option (Scanner m) :=
  p.scanners.find? fun s => s.service = service && s.operation = operation

/-- Plans the operations that have a scanner. -/
def plan (p : Pipeline m) : Except ConfigError Plan :=
  Plan.build p.catalog fun service operation => (p.scanner? service operation).isSome

/-- The parameters of each call: none at all if the operation declares none. -/
def callParameters (source : Source) (account : String) (task : ScanTask) :
    List (Option Fields) :=
  if task.op.parameters.isEmpty then [none]
  else match Parameter.resolve source (.place account task.region) task.op.parameters with
    | .ok objects => objects.map some
    | .error _ => []

def recordsOf (p : Pipeline m) (account region : String) (parameters : Option Fields)
    (pages : List Json) : List Record :=
  pages.map fun page => ⟨⟨account, region, p.now⟩, parameters.getD [], page⟩

/-- Adds one call and what came of it. -/
def Harvest.add (h : Harvest) (retries : Nat)
    (result : Except (ErrorClass × ProviderError) (List Record)) : Harvest :=
  let o := { h.outcome with calls := h.outcome.calls + 1, retried := h.outcome.retried + retries }
  match result with
  | .ok records => ⟨{ o with records := o.records + records.length }, h.records ++ records⟩
  | .error (.ignorable, _) => { h with outcome := { o with ignored := o.ignored + 1 } }
  | .error _ => { h with outcome := { o with failed := o.failed + 1 } }

def contextOf (account : String) (task : ScanTask) : ScanContext :=
  ⟨account, task.region, task.op.service, task.op.operation⟩

/-- Makes the calls of a task, one after the other. -/
def makeCalls (p : Pipeline m) (account : String) (task : ScanTask) (scanner : Scanner m) :
    Harvest → List (Option Fields) → m Harvest
  | h, [] => pure h
  | h, parameters :: rest => do
    let attempted ← (RetryPolicy.ofSettings p.settings.retry).run
      (Classifier.ofSettings p.settings) (scanner.scan (contextOf account task) parameters)
    let result := attempted.result.map (p.recordsOf account task.region parameters)
    makeCalls p account task scanner (Harvest.add h attempted.retries result) rest

def taskLabel (task : ScanTask) : String := task.region ++ "/" ++ task.op.label

/-- Everything a task does before it writes. -/
def gather (p : Pipeline m) (source : Source) (account : String) (task : ScanTask) :
    m Harvest := do
  let nothing : Harvest := ⟨.none (taskLabel task), []⟩
  match p.scanner? task.op.service task.op.operation with
  | none => return nothing
  | some scanner =>
    match callParameters source account task with
    | [] => return { nothing with outcome := { nothing.outcome with skipped := true } }
    | sets => p.makeCalls account task scanner nothing sets

/-- The key under which a task writes. -/
def taskKey (account : String) (task : ScanTask) : Key :=
  ⟨account, task.region, task.op.service, task.op.operation⟩

/-- Writes what a task found, if it found anything. -/
def commit (p : Pipeline m) (account : String) (task : ScanTask) (h : Harvest) (store : Store) :
    Store × Except StoreError TaskOutcome :=
  if h.records.isEmpty then (store, .ok h.outcome)
  else match p.backend.write store (taskKey account task) h.records with
    | .ok store => (store, .ok h.outcome)
    | .error e => (store, .error e)

def runTask (p : Pipeline m) (account : String) (store : Store) (task : ScanTask) :
    m (Store × Except StoreError TaskOutcome) := do
  return p.commit account task (← p.gather (p.backend.source store) account task) store

/-- All tasks of a level; one that fails does not stop the others. -/
def runTasks (p : Pipeline m) (account : String) :
    Store → List ScanTask → m (Store × List (Except StoreError TaskOutcome))
  | store, [] => pure (store, [])
  | store, task :: tasks => do
    let (store, outcome) ← p.runTask account store task
    let (store, outcomes) ← runTasks p account store tasks
    return (store, outcome :: outcomes)

def tasksOf (settings : ScanSettings) (op : PlannedOperation) : List ScanTask :=
  if op.isGlobal then [⟨op, settings.effectiveDefaultRegion⟩]
  else settings.effectiveRegions.map fun region => ⟨op, region⟩

/-- The outcomes in order, up to the first failure. -/
def absorbAll (summary : ScanSummary) (outcomes : List (Except StoreError TaskOutcome)) :
    Except StoreError ScanSummary :=
  outcomes.foldlM (fun s outcome => outcome.map s.absorb) summary

/-- The levels in order, up to the first with a failure. -/
def runLevels (p : Pipeline m) (account : String) :
    Store → ScanSummary → List (List PlannedOperation) →
      m (Store × Except StoreError ScanSummary)
  | store, summary, [] => pure (store, .ok summary)
  | store, summary, level :: levels => do
    let (store, outcomes) ← p.runTasks account store (level.flatMap (tasksOf p.settings))
    match absorbAll summary outcomes with
    | .ok summary => runLevels p account store summary levels
    | .error e => return (store, .error e)

/-- Scans the account of a profile. -/
def scanAccount (p : Pipeline m) (store : Store) (profile : String) :
    m (Store × Except ScanError ScanSummary) := do
  match p.identity profile with
  | .error e => return (store, .error (.identity profile e))
  | .ok account =>
    match p.plan with
    | .error e => return (store, .error (.plan e))
    | .ok plan =>
      let (store, result) ← p.runLevels account store (.empty account) plan.levels
      return (store, result.mapError .storage)

/-- Scans one profile after the other; one that fails does not stop the others. -/
def scanAccounts (p : Pipeline m) :
    Store → List String → m (Store × List (String × Except ScanError ScanSummary))
  | store, [] => pure (store, [])
  | store, profile :: profiles => do
    let (store, result) ← p.scanAccount store profile
    let (store, results) ← scanAccounts p store profiles
    return (store, (profile, result) :: results)

end Pipeline

end ResourceGraph
