import ResourceGraph.Graph.Basic
import ResourceGraph.Ordered
import ResourceGraph.Policy.Role
import ResourceGraph.Service.Translator
import ResourceGraph.Text.Lower

/-!
Generators find relations between services that no single selector can express. They read records
everywhere and propose edges and role bindings.
-/
namespace ResourceGraph

inductive GraphError where
  | eval (e : EvalError)
  | policy (e : PolicyError)
  | generator (name reason : String)

namespace GraphError

def message : GraphError → String
  | eval e => "Selector evaluation failed: " ++ e.message
  | policy e => "Policy error: " ++ e.message
  | generator name reason => "Edge generator `" ++ name ++ "` failed: " ++ reason

def code : GraphError → String
  | eval e => e.code
  | policy e => e.code
  | generator .. => "GRAPH_ERROR"

end GraphError

/-- What generators can read. -/
structure GeneratorContext where
  source : Source
  roles : Roles

namespace GeneratorContext

def evaluate (ctx : GeneratorContext) (s : Selector) : Except GraphError (List Json) :=
  (ctx.source.evaluate .everywhere s).mapError .eval

/-- The regions that hold records, in ascending order. -/
def knownRegions (ctx : GeneratorContext) : Except GraphError (List String) :=
  match ctx.source.scopes with
  | .ok scopes => .ok (Ordered.ofList (scopes.map (·.2)))
  | .error e => .error (.eval (.store e))

end GeneratorContext

structure GeneratorOutput where
  edges : List Edge
  bindings : List RoleBinding

def GeneratorOutput.empty : GeneratorOutput := ⟨[], []⟩

structure Generator where
  name : String
  generate : GeneratorContext → Except GraphError GeneratorOutput

/-- A domain name in lower case, without blanks around it and without dots at its end. -/
def normalizeDns (name : String) : String :=
  Text.lowerAscii (String.ofList (Text.dropEndWhile (· = '.') (Text.trimChars name.toList)))

/-- The texts of a field that holds one or a list. -/
def Json.textList (item : Json) (name : String) : List String :=
  match item.field? name with
  | some (.str s) => [s]
  | some (.arr items) => items.filterMap Json.str?
  | _ => []

end ResourceGraph
