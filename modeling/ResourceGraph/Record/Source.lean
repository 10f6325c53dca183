import ResourceGraph.Query.Selector
import ResourceGraph.Record.Store

/-!
Read access to stored records, where each read may fail, and selectors evaluated through it. A
`Backend` says which calls on a store are refused.
-/
namespace ResourceGraph

/-- A call that the store's backend refused. -/
structure StoreError where
  reason : String

def StoreError.message (e : StoreError) : String := "State store backend error: " ++ e.reason

def StoreError.code (_ : StoreError) : String := "STORAGE_ERROR"

inductive EvalError where
  | query (e : QueryError)
  | store (e : StoreError)

namespace EvalError

def message : EvalError → String
  | query e => e.message
  | store e => e.message

def code : EvalError → String
  | query e => e.code
  | store e => e.code

def ofQuery (r : Except QueryError α) : Except EvalError α := r.mapError .query

def ofStore (r : Except StoreError α) : Except EvalError α := r.mapError .store

end EvalError

/-- What can be read. -/
structure Source where
  readScoped : (account region service operation : String) → Except StoreError (List Record)
  readGlobal : (service operation : String) → Except StoreError (List Record)
  scopes : Except StoreError (List (String × String))

namespace Source

def ofStore (s : Store) : Source where
  readScoped account region service operation :=
    .ok (s.readScoped account region service operation)
  readGlobal service operation := .ok (s.readGlobal service operation)
  scopes := .ok s.scopes

/-- The records that a selector reads. -/
def records (source : Source) (scope : Scope) (s : Selector) : Except StoreError (List Record) :=
  match scope with
  | .place account region => source.readScoped account region s.service s.operation
  | .everywhere => source.readGlobal s.service s.operation

/-- The result of the query on the list of records; none if there are no records. -/
def evaluateValue (source : Source) (scope : Scope) (s : Selector) :
    Except EvalError (Option Json) := do
  let records ← EvalError.ofStore (source.records scope s)
  if records.isEmpty then return none
  else
    return some (← EvalError.ofQuery (s.query.search (.arr (records.map Record.toJson))))

/-- The result as a sequence; no records give none. -/
def evaluate (source : Source) (scope : Scope) (s : Selector) : Except EvalError (List Json) := do
  return (← source.evaluateValue scope s).elim [] Query.sequenceOf

/-- Reads the selector first. -/
def evaluateText (source : Source) (scope : Scope) (text : String) :
    Except EvalError (List Json) := do
  source.evaluate scope (← EvalError.ofQuery (Selector.ofText text))

end Source

/-- Which calls are refused, and why. -/
structure Backend where
  refusesWrite : Key → Option StoreError
  refusesScoped : Key → Option StoreError
  refusesGlobal : (service operation : String) → Option StoreError
  refusesScopes : Option StoreError

namespace Backend

/-- Refuses nothing. -/
def reliable : Backend := ⟨fun _ => none, fun _ => none, fun _ _ => none, none⟩

def guarded (refusal : Option StoreError) (result : α) : Except StoreError α :=
  match refusal with
  | some e => .error e
  | none => .ok result

def source (b : Backend) (s : Store) : Source where
  readScoped account region service operation :=
    guarded (b.refusesScoped ⟨account, region, service, operation⟩)
      (s.readScoped account region service operation)
  readGlobal service operation :=
    guarded (b.refusesGlobal service operation) (s.readGlobal service operation)
  scopes := guarded b.refusesScopes s.scopes

def write (b : Backend) (s : Store) (key : Key) (records : List Record) :
    Except StoreError Store :=
  guarded (b.refusesWrite key) (s.write key records)

end Backend

end ResourceGraph
