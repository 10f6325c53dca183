import ResourceGraph.Record.Source
import ResourceGraph.Service.Error
import ResourceGraph.Service.Spec

/-!
Parameters of dependent operations. A selector gives each of its results to the object at the same
position, a literal goes to every object there is, and objects that lack a declared key are dropped.
-/
namespace ResourceGraph

inductive ParameterSource where
  | selector (s : Selector)
  | value (v : Json)

structure Parameter where
  key : String
  source : ParameterSource

namespace Parameter

/-- Of a selector and a value the selector counts. -/
def ofSpec (service operation : String) (spec : ParameterSpec) : Except ConfigError Parameter :=
  let invalid (fault : ParameterFault) : Except ConfigError Parameter :=
    .error (.invalidParameter service operation spec.key fault)
  if Text.trim spec.key = "" then invalid .emptyKey
  else match spec.selector, spec.value with
    | some text, _ =>
      match Selector.ofText text with
      | .ok s => .ok ⟨spec.key, .selector s⟩
      | .error e => invalid (.selector e)
    | none, some v => .ok ⟨spec.key, .value v⟩
    | none, none => invalid .noSource

/-- The service and operation whose records the parameter reads. -/
def dependsOn? (p : Parameter) : Option (String × String) :=
  match p.source with
  | .selector s => some (s.service, s.operation)
  | .value _ => none

/-- Gives each value to the object at its position, and starts objects for the values left over. -/
def spread (key : String) : List Json → List Fields → List Fields
  | [], objects => objects
  | v :: values, [] => [(key, v)] :: spread key values []
  | v :: values, object :: objects => object.insert key v :: spread key values objects

/-- Gives one value to every object, of which there is at least one. -/
def broadcast (key : String) (value : Json) : List Fields → List Fields
  | [] => [[(key, value)]]
  | objects => objects.map (·.insert key value)

/-- The objects so far with one more parameter. -/
def extend (source : Source) (scope : Scope) (objects : List Fields) (p : Parameter) :
    Except EvalError (List Fields) :=
  match p.source with
  | .selector s => (source.evaluate scope s).map fun values => spread p.key values objects
  | .value v => .ok (broadcast p.key v objects)

def isComplete (parameters : List Parameter) (object : Fields) : Bool :=
  parameters.all fun p => object.contains p.key

/-- The complete parameter objects, in order. -/
def resolve (source : Source) (scope : Scope) (parameters : List Parameter) :
    Except EvalError (List Fields) :=
  (parameters.foldlM (extend source scope) []).map (·.filter (isComplete parameters))

end Parameter

end ResourceGraph
