import ResourceGraph.Graph.Element
import ResourceGraph.Proofs.Graph.EdgeOverlap
import ResourceGraph.Proofs.Json.Fields

/-!
# Elements of a graph

The list of elements shows every node and then every edge, in order, and the data of an element say
what it shows. Nodes among themselves have different ids, and so have edges. A node and an edge can
share one: the id of an edge is also the sanitized id of a node that is named like the two ends
joined. The statements say exactly when; the ids of edges that generators make are left open.
-/
namespace ResourceGraph

/-- What displays tell an element from the others by. -/
def Element.id : Element → String
  | node id _ => id
  | edge e _ => e.id

def Graph.elementIds (g : Graph) : List String := g.elements.map Element.id

/-! ## What the data of an element show -/

/-- A node or an edge as an element shows it. -/
inductive Shown where
  | node (id kind : String) (parent : Option String)
  | edge (id name source target : String)

namespace Shown

def ofNode (n : Node) : Shown := node n.id n.kind n.parent

def ofEdge (e : Edge) : Shown := edge e.id e.name e.source e.target

/-- Reads a written element by its group and its data. -/
def read? (element : Json) : Option Shown := do
  let group ← element.text? "group"
  let data ← element.field? "data"
  let id ← data.text? "id"
  if group = "nodes" then
    return node id (← data.text? "type") (data.text? "parent")
  else
    return edge id (← data.text? "name") (← data.text? "source") (← data.text? "target")

theorem read?_node (n : Node) : read? (Element.ofNode n).toJson = some (ofNode n) := by
  obtain ⟨id, kind, parent, metadata⟩ := n
  cases parent with
  | none => rfl
  | some parent => rfl

theorem read?_edge (e : Edge) : read? (Element.ofEdge e).toJson = some (ofEdge e) := by
  rfl

end Shown

theorem Element.text?_id (x : Element) : x.toJson.text? "id" = some x.id := by
  cases x with
  | node id n => rfl
  | edge e metadata => rfl

namespace Graph

variable (g : Graph)

/-- There is one element for each node and then one for each edge. -/
theorem map_read?_elements :
    g.elements.map (fun x => Shown.read? x.toJson) =
      (g.nodes.map Shown.ofNode ++ g.edges.map Shown.ofEdge).map some := by
  have hnode : (fun n => Shown.read? (Element.ofNode n).toJson) = some ∘ Shown.ofNode :=
    funext Shown.read?_node
  have hedge : (fun e => Shown.read? (Element.ofEdge e).toJson) = some ∘ Shown.ofEdge :=
    funext Shown.read?_edge
  simp only [elements, List.map_append, List.map_map, Function.comp_def] at hnode hedge ⊢
  rw [hnode, hedge]

theorem elementIds_eq :
    g.elementIds = g.nodes.map (·.sanitizedId) ++ g.edges.map (·.id) := by
  simp only [elementIds, elements, List.map_append, List.map_map]
  rfl

variable {g}

/-- The ids of a well-formed graph are distinct unless a node has the id of an edge. -/
theorem WellFormed.nodup_elementIds_iff (h : g.WellFormed) :
    g.elementIds.Nodup ↔ ∀ n ∈ g.nodes, ∀ e ∈ g.edges, e.id ≠ n.sanitizedId := by
  rw [elementIds_eq, List.nodup_append]
  constructor
  · intro hall n hn e he heq
    exact hall.2.2 _ (List.mem_map_of_mem hn) _ (List.mem_map_of_mem he) heq.symm
  · intro hne
    refine ⟨h.distinctNodes, h.distinctEdges, fun x hx y hy heq => ?_⟩
    obtain ⟨n, hn, rfl⟩ := List.mem_map.1 hx
    obtain ⟨e, he, rfl⟩ := List.mem_map.1 hy
    exact hne n hn e he heq.symm

end Graph

/-! ## Nodes named like the ends of an edge -/

/-- The node is named like the two ends, joined by any of the characters that count as one. -/
def Node.IsNamedLikeEnds (n : Node) (e : Edge) : Prop :=
  sanitize n.id = sanitize e.source ++ "_" ++ sanitize e.target

instance (n : Node) (e : Edge) : Decidable (n.IsNamedLikeEnds e) :=
  inferInstanceAs (Decidable (_ = _))

theorem Edge.IsDerived.id_eq_sanitizedId_iff {e : Edge} (h : e.IsDerived) {n : Node} :
    e.id = n.sanitizedId ↔ n.IsNamedLikeEnds e := by
  rw [h, idOf_eq, eq_comm]
  rfl

namespace Assembler

variable (a : Assembler) (manifest : Manifest)

theorem isDerived_or_madeByGenerator_of_kept {e : Edge} (h : e ∈ (a.assemble manifest).1.edges) :
    e.IsDerived ∨ a.MadeByGenerator e := by
  rw [edges_assemble] at h
  have hjoined : e ∈ a.joined manifest := (firstByKey_sublist _).subset h
  exact a.isDerived_or_madeByGenerator manifest ((a.mem_joined_iff manifest).1 hjoined).1

/-- The elements of an assembled graph show all its nodes and then all its edges, and nodes among
themselves and edges among themselves have distinct ids. All the ids are distinct exactly if no node
has the id of an edge; where the id of the edge is made from its ends, as all are but those of edges
that a generator makes itself, such a node is named like the ends. -/
theorem elements_distinct_iff :
    (a.assemble manifest).1.elements.map (fun x => Shown.read? x.toJson) =
      ((a.assemble manifest).1.nodes.map Shown.ofNode ++
        (a.assemble manifest).1.edges.map Shown.ofEdge).map some ∧
    (∀ x ∈ (a.assemble manifest).1.elements, x.toJson.text? "id" = some x.id) ∧
    ((a.assemble manifest).1.nodes.map (Element.id ∘ .ofNode)).Nodup ∧
    ((a.assemble manifest).1.edges.map (Element.id ∘ .ofEdge)).Nodup ∧
    ((a.assemble manifest).1.elementIds.Nodup ↔
      ∀ n ∈ (a.assemble manifest).1.nodes, ∀ e ∈ (a.assemble manifest).1.edges,
        e.id ≠ n.sanitizedId) ∧
    ∀ e ∈ (a.assemble manifest).1.edges,
      (e.IsDerived ∨ a.MadeByGenerator e) ∧
      (e.IsDerived → ∀ n : Node, e.id = n.sanitizedId ↔ n.IsNamedLikeEnds e) := by
  have hwf := a.wellFormed_assemble manifest
  refine ⟨Graph.map_read?_elements _, fun x _ => x.text?_id, hwf.distinctNodes,
    hwf.distinctEdges, hwf.nodup_elementIds_iff, fun e he => ⟨?_, fun hderived n => ?_⟩⟩
  · exact a.isDerived_or_madeByGenerator_of_kept manifest he
  · exact hderived.id_eq_sanitizedId_iff

/-! ## A node with the id of an edge -/

/-- A generator relates an account to another one, which is called like a region of the first. -/
def trading : Assembler :=
  { overlapping with
    generators := [⟨"fixed", fun _ => .ok ⟨[Edge.between "1" "eu" "trades"], []⟩⟩] }

def accountAndNamesake : Manifest := ⟨[⟨"1", ["eu"]⟩, ⟨"eu", []⟩], "us-east-1"⟩

theorem edges_trading :
    (trading.assemble accountAndNamesake).1.edges = [Edge.between "1" "eu" "trades"] := by
  rfl

/-- The region `eu` of the account `1` is named like the two ends of the edge. -/
theorem elements_distinct_iff_trading :
    Edge.between "1" "eu" "trades" ∈ (trading.assemble accountAndNamesake).1.edges ∧
      (Edge.between "1" "eu" "trades").IsDerived ∧
      (Edge.between "1" "eu" "trades").id =
        Node.sanitizedId ⟨regionNodeId "1" "eu", "region", some "1", []⟩ := by
  have hmem : Edge.between "1" "eu" "trades" ∈
      (trading.assemble accountAndNamesake).1.edges := by
    rw [edges_trading]
    exact List.mem_singleton_self _
  obtain ⟨-, -, -, -, -, hedges⟩ := elements_distinct_iff trading accountAndNamesake
  refine ⟨hmem, rfl, ((hedges _ hmem).2 rfl _).2 ?_⟩
  decide

/-- Not all elements of an assembled graph have different ids. -/
theorem region_and_edge_share_id : ¬ (trading.assemble accountAndNamesake).1.elementIds.Nodup := by
  decide

end Assembler

end ResourceGraph
