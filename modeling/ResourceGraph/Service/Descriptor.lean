import ResourceGraph.Configuration
import ResourceGraph.Service.Parameter

/-! Compiled descriptions of services, in which every selector and query has been read. -/
namespace ResourceGraph

structure EdgeDescriptor where
  name : String
  state : Selector
  source : Query
  target : Query

structure OperationDescriptor where
  operation : String
  parameters : List Parameter

/-- What the operation's parameters read. -/
def OperationDescriptor.dependencies (o : OperationDescriptor) : List (String × String) :=
  o.parameters.filterMap Parameter.dependsOn?

structure Descriptor where
  key : String
  service : String
  label : String
  arnService : String
  isGlobal : Bool
  bareNameIds : Bool
  nodes : List Selector
  edges : List EdgeDescriptor
  iamRoles : List Selector
  operations : List OperationDescriptor

def readSelector (place : SelectorPlace) (text : String) : Except ConfigError Selector :=
  (Selector.ofText text).mapError (.selector place)

def readQuery (place : SelectorPlace) (text : String) : Except ConfigError Query :=
  (Query.ofText text).mapError (.selector place)

def EdgeDescriptor.ofSpec (service : String) (spec : EdgeSpec) :
    Except ConfigError EdgeDescriptor := do
  if Text.trim spec.name = "" then .error (.invalidService service .unnamedEdge)
  else
    let state ← readSelector (.edge service spec.name .state) spec.state
    let source ← readQuery (.edge service spec.name .source) spec.source
    let target ← readQuery (.edge service spec.name .target) spec.target
    return ⟨spec.name, state, source, target⟩

def OperationDescriptor.ofSpec (service : String) (spec : OperationSpec) :
    Except ConfigError OperationDescriptor := do
  if Text.trim spec.operation = "" then .error (.invalidService service .unnamedOperation)
  else return ⟨spec.operation, ← spec.parameters.mapM (Parameter.ofSpec service spec.operation)⟩

namespace Descriptor

def ofSpec (spec : ServiceSpec) : Except ConfigError Descriptor := do
  if Text.trim spec.key = "" then .error (.invalidService spec.effectiveService .missingKey)
  else
    let nodes ← spec.nodes.mapM (readSelector (.nodes spec.key))
    let iamRoles ← spec.iamRoles.mapM (readSelector (.iamRoles spec.key))
    let edges ← spec.edges.mapM (EdgeDescriptor.ofSpec spec.key)
    let operations ← spec.operations.mapM (OperationDescriptor.ofSpec spec.effectiveService)
    return {
      key := spec.key
      service := spec.effectiveService
      label := spec.effectiveLabel
      arnService := spec.effectiveArnService
      isGlobal := spec.isGlobal
      bareNameIds := spec.bareNameIds
      nodes, edges, iamRoles, operations }

/-- The services that a pack of descriptions lists. -/
def packSpecs? (text : String) : Option (List ServiceSpec) := do
  let pack ← Document.parts? 1 (← Toml.ofText? text)
  pack.defaulted 0 "services" [] (Document.list? ServiceSpec.read?)

/-- Reads and compiles a pack of descriptions. -/
def ofPack (text : String) : Except ConfigError (List Descriptor) :=
  match packSpecs? text with
  | some specs => specs.mapM ofSpec
  | none => .error .illFormedText

end Descriptor

end ResourceGraph
