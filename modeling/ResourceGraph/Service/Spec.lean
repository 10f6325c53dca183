import ResourceGraph.Document.Basic

/-!
Descriptions of services as they are written: selectors and queries are still text, and names that
are left out follow the key.
-/
namespace ResourceGraph

/-- How one parameter of an operation gets its value. -/
structure ParameterSpec where
  key : String
  selector : Option String
  value : Option Json

structure OperationSpec where
  operation : String
  parameters : List ParameterSpec

/-- An edge between what two queries find in each item of a selector's result. -/
structure EdgeSpec where
  name : String
  state : String
  source : String
  target : String

structure ServiceSpec where
  /-- Unique in a catalog. -/
  key : String
  /-- The name in selectors and store keys. -/
  service : Option String
  /-- The type of the service's nodes. -/
  label : Option String
  /-- The service's segment of resource names. -/
  arnService : Option String
  /-- Scanned once an account, in the default region. -/
  isGlobal : Bool
  /-- Node ids are bare names and no resource names. -/
  bareNameIds : Bool
  /-- Selectors of nodes. -/
  nodes : List String
  edges : List EdgeSpec
  /-- Selectors of role bindings. -/
  iamRoles : List String
  operations : List OperationSpec

namespace ServiceSpec

def effectiveService (s : ServiceSpec) : String := s.service.getD s.key

def effectiveLabel (s : ServiceSpec) : String := s.label.getD s.key

def effectiveArnService (s : ServiceSpec) : String := s.arnService.getD s.key

end ServiceSpec

/-! ## Reading and writing -/

section Reading

open Document

variable {α : Type} [Document α]

def ParameterSpec.read? (d : α) : Option ParameterSpec := do
  let parts ← parts? 3 d
  let key ← parts.required 0 "Key" text?
  let selector ← parts.optional 1 "Selector" text?
  let value ← parts.optional 2 "Value" (fun v => some (toJson v))
  return ⟨key, selector, value⟩

def OperationSpec.read? (d : α) : Option OperationSpec := do
  let parts ← parts? 2 d
  let operation ← parts.defaulted 0 "operation" "" text?
  let parameters ← parts.defaulted 1 "parameters" [] (list? ParameterSpec.read?)
  return ⟨operation, parameters⟩

def EdgeSpec.read? (d : α) : Option EdgeSpec := do
  let parts ← parts? 4 d
  let name ← parts.defaulted 0 "name" "" text?
  let state ← parts.defaulted 1 "state" "" text?
  let source ← parts.defaulted 2 "source" "" text?
  let target ← parts.defaulted 3 "target" "" text?
  return ⟨name, state, source, target⟩

def ServiceSpec.read? (d : α) : Option ServiceSpec := do
  let parts ← parts? 10 d
  let key ← parts.defaulted 0 "key" "" text?
  let service ← parts.optional 1 "service" text?
  let label ← parts.optional 2 "label" text?
  let arnService ← parts.optional 3 "arn_service" text?
  let isGlobal ← parts.defaulted 4 "global" false flag?
  let bareNameIds ← parts.defaulted 5 "bare_name_ids" false flag?
  let nodes ← parts.defaulted 6 "nodes" [] (list? text?)
  let edges ← parts.defaulted 7 "edges" [] (list? EdgeSpec.read?)
  let iamRoles ← parts.defaulted 8 "iam_roles" [] (list? text?)
  let operations ← parts.defaulted 9 "operations" [] (list? OperationSpec.read?)
  return ⟨key, service, label, arnService, isGlobal, bareNameIds, nodes, edges, iamRoles,
    operations⟩

end Reading

/-- An absent selector or value is left out. -/
def ParameterSpec.toJson (p : ParameterSpec) : Json :=
  .obj (("Key", .str p.key) ::
    ((p.selector.map fun s => ("Selector", Json.str s)).toList ++
      (p.value.map fun v => ("Value", v)).toList))

def OperationSpec.toJson (o : OperationSpec) : Json :=
  .obj [("operation", .str o.operation),
    ("parameters", .arr (o.parameters.map ParameterSpec.toJson))]

def EdgeSpec.toJson (e : EdgeSpec) : Json :=
  .obj [("name", .str e.name), ("state", .str e.state), ("source", .str e.source),
    ("target", .str e.target)]

def ServiceSpec.toJson (s : ServiceSpec) : Json :=
  .obj [("key", .str s.key), ("service", .ofStr? s.service), ("label", .ofStr? s.label),
    ("arn_service", .ofStr? s.arnService), ("global", .bool s.isGlobal),
    ("bare_name_ids", .bool s.bareNameIds), ("nodes", .ofStrings s.nodes),
    ("edges", .arr (s.edges.map EdgeSpec.toJson)), ("iam_roles", .ofStrings s.iamRoles),
    ("operations", .arr (s.operations.map OperationSpec.toJson))]

end ResourceGraph
