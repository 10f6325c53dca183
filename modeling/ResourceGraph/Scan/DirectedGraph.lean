/-!
Directed graphs on numbered nodes, and their topological sort. The sort searches the graph depth
first, once along its edges and once against them. The first search finishes a node when it has
finished all that the node leads to; the second one goes through the nodes in the opposite order,
and must not come from one of them to another that it has not seen.
-/
namespace ResourceGraph

/-- A directed graph on `n` nodes. The latest edge is the first of the list. -/
structure DirectedGraph (n : Nat) where
  edges : List (Fin n × Fin n)

namespace DirectedGraph

variable {n : Nat}

def empty : DirectedGraph n := ⟨[]⟩

/-- Adds an edge, unless it is there. -/
def updateEdge (g : DirectedGraph n) (source target : Fin n) : DirectedGraph n :=
  if (source, target) ∈ g.edges then g else ⟨(source, target) :: g.edges⟩

def successors (g : DirectedGraph n) (node : Fin n) : List (Fin n) :=
  (g.edges.filter (·.1 = node)).map (·.2)

def predecessors (g : DirectedGraph n) (node : Fin n) : List (Fin n) :=
  (g.edges.filter (·.2 = node)).map (·.1)

/-- Puts what is not discovered on a stack, one after the other. The top of a stack is the first of
the list. -/
def pushNew (nodes discovered stack : List (Fin n)) : List (Fin n) :=
  (nodes.filter (· ∉ discovered)).reverse ++ stack

def undiscovered (discovered : List (Fin n)) : List (Fin n) :=
  (List.finRange n).filter fun node => node ∉ discovered

theorem length_undiscovered_cons_lt {node : Fin n} {discovered : List (Fin n)}
    (h : node ∉ discovered) :
    (undiscovered (node :: discovered)).length < (undiscovered discovered).length := by
  have hfilter : undiscovered (node :: discovered) =
      (undiscovered discovered).filter fun other => other ≠ node := by
    rw [undiscovered, undiscovered, List.filter_filter]
    simp
  rw [hfilter]
  refine List.length_filter_lt_length_iff_exists.2 ⟨node, ?_, by simp⟩
  exact List.mem_filter.2 ⟨List.mem_finRange node, by simpa using h⟩

/-- The first search, until its stack is empty. A node on top is discovered, and what it leads to is
put above it; when it is on top again, it is finished. Finished nodes are listed the latest first. A
node that leads to itself ends the search. -/
def explore (g : DirectedGraph n) (stack discovered finished : List (Fin n)) :
    Except (Fin n) (List (Fin n) × List (Fin n)) :=
  match stack with
  | [] => .ok (discovered, finished)
  | node :: rest =>
    if node ∈ discovered then explore g rest discovered (finished.insert node)
    else if node ∈ g.successors node then .error node
    else
      explore g (pushNew (g.successors node) (node :: discovered) (node :: rest))
        (node :: discovered) finished
termination_by ((undiscovered discovered).length, stack.length)
decreasing_by
  · exact Prod.Lex.right _ (Nat.lt_succ_self _)
  · exact Prod.Lex.left _ _ (length_undiscovered_cons_lt ‹_›)

/-- Searches from each of the nodes that is still undiscovered. -/
def exploreAll (g : DirectedGraph n) :
    List (Fin n) → List (Fin n) → List (Fin n) → Except (Fin n) (List (Fin n))
  | [], _, finished => .ok finished
  | node :: rest, discovered, finished =>
    if node ∈ discovered then exploreAll g rest discovered finished
    else do
      let (discovered, finished) ← g.explore [node] discovered finished
      exploreAll g rest discovered finished

/-- The next node of the second search, and the stack after it. -/
def next? (g : DirectedGraph n) (discovered : List (Fin n)) :
    List (Fin n) → Option (Fin n × List (Fin n))
  | [] => none
  | node :: rest =>
    if node ∈ discovered then next? g discovered rest
    else some (node, pushNew (g.predecessors node) (node :: discovered) rest)

/-- The second search, from each of the nodes in order. From a node it must come to no other. -/
def confirm (g : DirectedGraph n) (discovered : List (Fin n)) : List (Fin n) → Except (Fin n) Unit
  | [] => .ok ()
  | start :: rest =>
    match g.next? discovered [start] with
    | none => confirm g discovered rest
    | some (node, stack) =>
      match g.next? (node :: discovered) stack with
      | none => confirm g (node :: discovered) rest
      | some (other, _) => .error other

/-- Sorts the nodes of graphs, or names a node that stands in the way. -/
abbrev Sorter := (n : Nat) → DirectedGraph n → Except (Fin n) (List (Fin n))

/-- The nodes, each before those that it leads to, or a node on a cycle. -/
def toposort (g : DirectedGraph n) : Except (Fin n) (List (Fin n)) := do
  let order ← g.exploreAll (List.finRange n) [] []
  g.confirm [] order
  return order

end DirectedGraph

end ResourceGraph
