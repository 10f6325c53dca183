import ResourceGraph.Generator.Alias
import ResourceGraph.Generator.Container
import ResourceGraph.Generator.Origin
import ResourceGraph.Graph.Manifest
import ResourceGraph.Policy.Edges
import ResourceGraph.Service.Translator

/-!
Assembly of a graph from stored records. Accounts and regions give the nodes that contain the
others; then come the nodes of the services, and of several with one sanitized id the first stays.
Edges are proposed by the services, by role bindings and by generators; one whose ends are not both
nodes is pruned, and of several with one id the first stays. Whatever cannot be read contributes
nothing.
-/
namespace ResourceGraph

def regionNodeId (account region : String) : String := account ++ ":" ++ region

/-- Counters of one assembly. -/
structure AssemblyCounts where
  accounts : Nat
  nodes : Nat
  duplicateNodes : Nat
  edgesProposed : Nat
  edgesPruned : Nat
  duplicateEdges : Nat
  edges : Nat
  roles : Nat

/-- Built-in generators, in the order in which they run. -/
def builtInGenerators : Except QueryError (List Generator) := do
  return [(← AliasSelectors.builtIn).generator, (← OriginSelectors.builtIn).generator,
    (← BalancerSelectors.builtIn).generator, (← TaskRoleSelectors.builtIn).generator]

structure Assembler where
  source : Source
  catalog : Catalog
  generators : List Generator
  translators : Translators
  roleSelector : Selector
  partition : String

/-- A node, and the key of the service it comes from. -/
structure Proposal where
  service : Option String
  node : Node

/-- The nodes of one service in one account and region. -/
structure NodeTask where
  descriptor : Descriptor
  scope : Scope
  /-- The parent of nodes that name none. -/
  container : String

namespace Assembler

/-- An assembler with the built-in generators and standard translators. -/
def ofSettings (source : Source) (catalog : Catalog) (settings : GraphSettings) :
    Except ConfigError Assembler := do
  let roleSelector ← readSelector .roleSelector settings.effectiveRoleSelector
  let generators ← builtInGenerators.mapError (.selector .generators)
  return ⟨source, catalog, generators, .standard, roleSelector, settings.effectivePartition⟩

/-! ## Nodes -/

/-- The nodes of an account and its regions. -/
def accountNodes (scope : AccountScope) : List Node :=
  Node.ofKind scope.accountId "account" ::
    scope.regions.map fun region =>
      { Node.ofKind (regionNodeId scope.accountId region) "region" with
        parent := some scope.accountId }

def containmentNodes (manifest : Manifest) : List Node := manifest.accounts.flatMap accountNodes

/-- A global service is read in the default region, any other in every region of the account. -/
def tasksOf (defaultRegion : String) (scope : AccountScope) (d : Descriptor) : List NodeTask :=
  if d.nodes.isEmpty then []
  else if d.isGlobal then [⟨d, .place scope.accountId defaultRegion, scope.accountId⟩]
  else scope.regions.map fun region =>
    ⟨d, .place scope.accountId region, regionNodeId scope.accountId region⟩

def nodeTasks (a : Assembler) (manifest : Manifest) : List NodeTask :=
  manifest.accounts.flatMap fun scope =>
    a.catalog.services.flatMap (tasksOf manifest.defaultRegion scope)

def nodeOf? (a : Assembler) (task : NodeTask) (item : Json) : Option Node :=
  (a.translators.translate task.descriptor.key item).map fun n =>
    ⟨n.id, task.descriptor.label, some (n.parent.getD task.container), n.metadata⟩

/-- The items of a selector's result; none if it cannot be evaluated. -/
def itemsOf (a : Assembler) (scope : Scope) (s : Selector) : List Json :=
  match a.source.evaluate scope s with
  | .ok items => items
  | .error _ => []

def nodesFor (a : Assembler) (task : NodeTask) : List Node :=
  task.descriptor.nodes.flatMap fun s => (a.itemsOf task.scope s).filterMap (a.nodeOf? task)

/-- All proposed nodes: first those that contain others, then those of the services. -/
def proposals (a : Assembler) (manifest : Manifest) : List Proposal :=
  (containmentNodes manifest).map (⟨none, ·⟩) ++
    (a.nodeTasks manifest).flatMap fun task =>
      (a.nodesFor task).map (⟨some task.descriptor.key, ·⟩)

/-- The elements whose key is neither seen nor the key of an earlier one. -/
def firstByKey (key : α → String) (seen : List String) : List α → List α
  | [] => []
  | x :: xs =>
    if key x ∈ seen then firstByKey key seen xs else x :: firstByKey key (key x :: seen) xs

/-- How many elements have a key that is seen or that of an earlier one. -/
def repeatsByKey (key : α → String) (seen : List String) : List α → Nat
  | [] => 0
  | x :: xs =>
    if key x ∈ seen then repeatsByKey key seen xs + 1 else repeatsByKey key (key x :: seen) xs

def keptProposals (a : Assembler) (manifest : Manifest) : List Proposal :=
  firstByKey (·.node.sanitizedId) [] (a.proposals manifest)

/-- The ids of the nodes that come from services. -/
def indexOf (proposals : List Proposal) : NodeIndex :=
  proposals.foldl (fun index p =>
    match p.service with
    | some service => index.insert service p.node.id
    | none => index) .empty

/-! ## Edges -/

/-- What a result of an edge's target query says: a target, and possibly a name for the edge. -/
def targetOf? (name : String) : Json → Option (String × String)
  | .str target => some (target, name)
  | .obj fields => do
    let target ← (Fields.get? fields "target").bind Json.str?
    return (target, ((Fields.get? fields "name").bind Json.str?).getD name)
  | _ => none

/-- The edges of one item, from the first text that the source query finds. -/
def edgesForItem (edge : EdgeDescriptor) (item : Json) : Except QueryError (List Edge) := do
  match (← edge.source.searchAll item).findSome? Json.str? with
  | none => return []
  | some source =>
    let targets := (← edge.target.searchAll item).filterMap (targetOf? edge.name)
    return (targets.filter (·.1 ≠ "")).map fun (target, name) =>
      (Edge.between source target name).withMetadata "label" (.str name)

def declaredEdges (a : Assembler) (edge : EdgeDescriptor) : List Edge :=
  (a.itemsOf .everywhere edge.state).flatMap fun item =>
    match edgesForItem edge item with
    | .ok edges => edges
    | .error _ => []

/-- The role bindings that the services' selectors find. -/
def roleBindings (a : Assembler) : List RoleBinding :=
  a.catalog.services.flatMap fun d =>
    d.iamRoles.flatMap fun s => (a.itemsOf .everywhere s).filterMap RoleBinding.read?

/-- The roles that are known; none if they cannot be read. -/
def knownRoles (a : Assembler) : Roles :=
  match Roles.hydrate a.source a.roleSelector with
  | .ok roles => roles
  | .error _ => .empty

/-- What a generator proposes, its bindings resolved; nothing if it fails. -/
def generatedEdges (resolver : ResourceResolver) (ctx : GeneratorContext) (g : Generator) :
    List Edge :=
  match g.generate ctx with
  | .ok output => output.edges ++ output.bindings.flatMap (resolver.edgesForRole ctx.roles)
  | .error _ => []

/-- All proposed edges, given the index of the nodes. -/
def proposedEdges (a : Assembler) (index : NodeIndex) : List Edge :=
  let resolver : ResourceResolver := ⟨a.catalog, index, a.partition⟩
  let roles := a.knownRoles
  a.catalog.services.flatMap (fun d => d.edges.flatMap a.declaredEdges) ++
    a.roleBindings.flatMap (resolver.edgesForRole roles) ++
    a.generators.flatMap (generatedEdges resolver ⟨a.source, roles⟩)

/-- Whether both ends of an edge are among the ids. -/
def joins (ids : List String) (e : Edge) : Bool := ids.contains e.source && ids.contains e.target

/-! ## The graph -/

def assemble (a : Assembler) (manifest : Manifest) : Graph × AssemblyCounts :=
  let proposed := a.proposals manifest
  let kept := a.keptProposals manifest
  let nodes := kept.map (·.node)
  let edges := a.proposedEdges (indexOf kept)
  let joined := edges.filter (joins (nodes.map (·.id)))
  let keptEdges := firstByKey (·.id) [] joined
  (⟨nodes, keptEdges⟩, {
    accounts := manifest.accounts.length
    nodes := nodes.length
    duplicateNodes := repeatsByKey (·.node.sanitizedId) [] proposed
    edgesProposed := edges.length
    edgesPruned := edges.countP fun e => !(joins (nodes.map (·.id)) e)
    duplicateEdges := repeatsByKey (·.id) [] joined
    edges := keptEdges.length
    roles := a.knownRoles.size })

end Assembler

end ResourceGraph
