import ResourceGraph.Scan.DirectedGraph
import ResourceGraph.Service.Catalog

/-!
The order of a scan. An operation whose parameters read another comes after it: the operations are
sorted so that each stands behind those that it reads, and then put in levels, each one level above
the highest of those that it reads. If there is no such order, some of them form a cycle.
-/
namespace ResourceGraph

structure PlannedOperation where
  serviceKey : String
  service : String
  operation : String
  isGlobal : Bool
  parameters : List Parameter

namespace PlannedOperation

def name (op : PlannedOperation) : String × String := (op.service, op.operation)

def label (op : PlannedOperation) : String := op.service ++ "|" ++ op.operation

/-- The operations whose records the parameters read. -/
def reads (op : PlannedOperation) : List (String × String) :=
  op.parameters.filterMap Parameter.dependsOn?

/-- Operations are ordered by service, then name. -/
def sortsBefore (a b : PlannedOperation) : Bool :=
  !(decide ([b.service, b.operation] < [a.service, a.operation]))

end PlannedOperation

structure Plan where
  levels : List (List PlannedOperation)

namespace Plan

def operationsOf (accepts : String → String → Bool) (d : Descriptor) : List PlannedOperation :=
  (d.operations.filter fun op => accepts d.service op.operation).map fun op =>
    ⟨d.key, d.service, op.operation, d.isGlobal, op.parameters⟩

/-- The operations whose name is neither seen nor the name of an earlier one. -/
def firstOfName (seen : List (String × String)) :
    List PlannedOperation → List PlannedOperation
  | [] => []
  | op :: ops =>
    if op.name ∈ seen then firstOfName seen ops else op :: firstOfName (op.name :: seen) ops

/-- The accepted operations of a catalog, each once. -/
def candidates (catalog : Catalog) (accepts : String → String → Bool) : List PlannedOperation :=
  firstOfName [] (catalog.services.flatMap (operationsOf accepts))

/-- The place of the operation with the name. -/
def place? (ops : List PlannedOperation) (name : String × String) : Option (Fin ops.length) :=
  (List.finRange ops.length).find? fun i => (ops.get i).name = name

/-- The places of what an operation reads. What is not there is left out. -/
def producersOf (ops : List PlannedOperation) (consumer : Fin ops.length) :
    List (Fin ops.length) :=
  (ops.get consumer).reads.filterMap (place? ops)

/-- An edge from each operation to those that read it. -/
def dependencies (ops : List PlannedOperation) : DirectedGraph ops.length :=
  (List.finRange ops.length).foldl (fun g consumer =>
    (producersOf ops consumer).foldl (fun g producer => g.updateEdge producer consumer) g) .empty

/-- Adds an operation to a level. Levels that are missing are made. -/
def pushAt : List (List PlannedOperation) → Nat → PlannedOperation → List (List PlannedOperation)
  | [], 0, op => [[op]]
  | [], k + 1, op => [] :: pushAt [] k op
  | level :: levels, 0, op => (level ++ [op]) :: levels
  | level :: levels, k + 1, op => level :: pushAt levels k op

/-- Levels, and the level of each operation that is in one. -/
structure Layers where
  levels : List (List PlannedOperation)
  placed : List (PlannedOperation × Nat)

namespace Layers

/-- One above the highest of the producers that are placed. -/
def levelFor (placed : List (PlannedOperation × Nat)) (op : PlannedOperation) : Nat :=
  ((placed.filter fun producer => op.reads.contains producer.1.name).map (·.2 + 1)).max?.getD 0

def place (layers : Layers) (op : PlannedOperation) : Layers where
  levels := pushAt layers.levels (levelFor layers.placed op) op
  placed := layers.placed ++ [(op, levelFor layers.placed op)]

end Layers

/-- Places the operations one after the other, then sorts each level. -/
def inOnePass (order : List PlannedOperation) : List (List PlannedOperation) :=
  (order.foldl Layers.place ⟨[], []⟩).levels.map (·.mergeSort PlannedOperation.sortsBefore)

/-- Plans every operation of the catalog that is accepted, in the order of a topological sort. What
an operation reads from outside the plan is simply not there. -/
def buildBy (sort : DirectedGraph.Sorter) (catalog : Catalog)
    (accepts : String → String → Bool) : Except ConfigError Plan :=
  let ops := candidates catalog accepts
  match sort ops.length (dependencies ops) with
  | .ok order => .ok ⟨inOnePass (order.map ops.get)⟩
  | .error i => .error (.dependencyCycle (ops.get i).label)

def build (catalog : Catalog) (accepts : String → String → Bool) : Except ConfigError Plan :=
  buildBy (fun _ => DirectedGraph.toposort) catalog accepts

def size (p : Plan) : Nat := p.levels.flatten.length

def levelOf? (p : Plan) (service operation : String) : Option Nat :=
  p.levels.findIdx? fun level => level.any fun op => op.name = (service, operation)

end Plan

end ResourceGraph
