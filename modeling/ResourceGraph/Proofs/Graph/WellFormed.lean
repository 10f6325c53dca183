import Mathlib.Data.List.Nodup
import Mathlib.Tactic.Tauto
import ResourceGraph.Graph.Assembly

/-!
# Assembled graphs are well formed

Nodes are told apart by their sanitized ids and edges by their own ids, and of several with one key
the first stays. Whatever the source, the catalog, the translators and the generators give, every
edge of the assembled graph joins two of its nodes, and the counters account for every proposal.
Nothing is said here about which edges are proposed.
-/
namespace ResourceGraph

/-! ## The first of each key -/

/-- The elements whose key no earlier element has, in order. -/
def firstOccurrences (key : α → String) (xs : List α) : List α :=
  (xs.zipIdx.filter fun (x, i) => key x ∉ (xs.take i).map key).map (·.1)

namespace Assembler

variable {key : α → String} {seen : List String}

theorem firstByKey_sublist (xs : List α) : (firstByKey key seen xs).Sublist xs := by
  induction xs generalizing seen with
  | nil => exact List.nil_sublist _
  | cons x xs ih =>
    unfold firstByKey
    split
    · exact ih.cons x
    · exact ih.cons_cons x

/-- A list with all of `P` before an `x` either starts with that `x` or goes on to it. -/
theorem exists_split_cons_iff {P : α → Prop} {x z : α} {zs : List α} :
    (∃ before after, z :: zs = before ++ x :: after ∧ ∀ y ∈ before, P y) ↔
      x = z ∨ P z ∧ ∃ before after, zs = before ++ x :: after ∧ ∀ y ∈ before, P y := by
  constructor
  · intro h
    obtain ⟨before, after, hz, hbefore⟩ := h
    cases before with
    | nil => exact .inl (List.cons.inj hz).1.symm
    | cons y before =>
      obtain ⟨rfl, hzs⟩ := List.cons.inj hz
      obtain ⟨hy, hrest⟩ := List.forall_mem_cons.1 hbefore
      exact .inr ⟨hy, before, after, hzs, hrest⟩
  · rintro (rfl | ⟨hz, before, after, rfl, hbefore⟩)
    · exact ⟨[], zs, rfl, by simp⟩
    · exact ⟨z :: before, after, rfl, List.forall_mem_cons.2 ⟨hz, hbefore⟩⟩

/-- What stays is what has no seen key and no key of an earlier element. -/
theorem mem_firstByKey_iff {xs : List α} {x : α} :
    x ∈ firstByKey key seen xs ↔
      key x ∉ seen ∧ ∃ before after, xs = before ++ x :: after ∧ ∀ y ∈ before, key y ≠ key x := by
  induction xs generalizing seen with
  | nil => simp [firstByKey]
  | cons z zs ih =>
    rw [exists_split_cons_iff]
    unfold firstByKey
    split
    · next hseen =>
      rw [ih]
      have hne : key x ∉ seen → key z ≠ key x := fun hx heq => hx (heq ▸ hseen)
      have hneq : key x ∉ seen → x ≠ z := fun hx heq => hx (heq ▸ hseen)
      tauto
    · next hunseen =>
      rw [List.mem_cons, ih, List.mem_cons, not_or]
      constructor
      · rintro (rfl | ⟨⟨hne, hx⟩, hrest⟩)
        · exact ⟨hunseen, .inl rfl⟩
        · exact ⟨hx, .inr ⟨Ne.symm hne, hrest⟩⟩
      · intro h
        obtain ⟨hx, rfl | ⟨hne, hrest⟩⟩ := h
        · exact .inl rfl
        · exact .inr ⟨⟨Ne.symm hne, hx⟩, hrest⟩

theorem length_firstByKey_add_repeatsByKey (xs : List α) :
    (firstByKey key seen xs).length + repeatsByKey key seen xs = xs.length := by
  induction xs generalizing seen with
  | nil => rfl
  | cons x xs ih =>
    unfold firstByKey repeatsByKey
    split
    · have hrest : (firstByKey key seen xs).length + repeatsByKey key seen xs = xs.length := ih
      rw [List.length_cons]
      omega
    · have hrest : (firstByKey key (key x :: seen) xs).length +
          repeatsByKey key (key x :: seen) xs = xs.length := ih
      rw [List.length_cons, List.length_cons]
      omega

theorem nodup_map_firstByKey (xs : List α) : ((firstByKey key seen xs).map key).Nodup := by
  induction xs generalizing seen with
  | nil => simp [firstByKey]
  | cons x xs ih =>
    unfold firstByKey
    split
    · exact ih
    · refine List.nodup_cons.2 ⟨fun hmem => ?_, ih⟩
      obtain ⟨y, hy, hkey⟩ := List.mem_map.1 hmem
      exact (mem_firstByKey_iff.1 hy).1 (hkey ▸ List.mem_cons_self)

theorem map_firstByKey (f : β → α) (xs : List β) :
    (firstByKey (fun x => key (f x)) seen xs).map f = firstByKey key seen (xs.map f) := by
  induction xs generalizing seen with
  | nil => rfl
  | cons x xs ih =>
    by_cases hx : key (f x) ∈ seen
    · simp [firstByKey, hx, ih]
    · simp [firstByKey, hx, ih]

/-- With some keys seen before, those stay whose key is neither among them nor an earlier one. -/
private theorem firstByKey_eq_filter (xs : List α) :
    firstByKey key seen xs =
      (xs.zipIdx.filter fun (x, i) => key x ∉ seen ∧ key x ∉ (xs.take i).map key).map (·.1) := by
  induction xs generalizing seen with
  | nil => rfl
  | cons x xs ih =>
    have hshift : (x :: xs).zipIdx = (x, 0) :: xs.zipIdx.map fun (y, i) => (y, i + 1) := by
      rw [List.zipIdx_cons, List.zipIdx_succ]
    rw [hshift]
    unfold firstByKey
    split
    · next hx =>
      rw [ih, List.filter_cons_of_neg (by simp [hx]), List.filter_map, List.map_map]
      congr 1
      refine List.filter_congr fun (y, i) _ => ?_
      have hne : key y ∉ seen → key y ≠ key x := fun hy h => hy (h ▸ hx)
      simp only [Function.comp, List.take_succ_cons, List.map_cons, List.mem_cons, not_or]
      grind
    · next hx =>
      rw [ih, List.filter_cons_of_pos (by simp [hx]), List.filter_map, List.map_cons, List.map_map]
      congr 2
      refine List.filter_congr fun (y, i) _ => ?_
      simp only [Function.comp, List.take_succ_cons, List.map_cons, List.mem_cons, not_or]
      grind

theorem firstByKey_eq_firstOccurrences (xs : List α) :
    firstByKey key [] xs = firstOccurrences key xs := by
  rw [firstByKey_eq_filter, firstOccurrences]
  simp

end Assembler

/-! ## Well-formed graphs -/

structure Graph.WellFormed (g : Graph) : Prop where
  /-- Both ends of an edge are ids of nodes. -/
  joined : ∀ e ∈ g.edges, e.source ∈ g.nodeIds ∧ e.target ∈ g.nodeIds
  /-- Displays can tell the nodes apart. -/
  distinctNodes : (g.nodes.map (·.sanitizedId)).Nodup
  distinctEdges : (g.edges.map (·.id)).Nodup

namespace Graph.WellFormed

variable {g : Graph}

theorem sanitizedId_inj (h : g.WellFormed) {m n : Node} (hm : m ∈ g.nodes) (hn : n ∈ g.nodes)
    (heq : m.sanitizedId = n.sanitizedId) : m = n :=
  List.inj_on_of_nodup_map h.distinctNodes hm hn heq

theorem sanitize_inj (h : g.WellFormed) {x y : String} (hx : x ∈ g.nodeIds) (hy : y ∈ g.nodeIds)
    (heq : sanitize x = sanitize y) : x = y := by
  obtain ⟨m, hm, rfl⟩ := List.mem_map.1 hx
  obtain ⟨n, hn, rfl⟩ := List.mem_map.1 hy
  rw [h.sanitizedId_inj hm hn heq]

theorem nodup_nodeIds (h : g.WellFormed) : g.nodeIds.Nodup := by
  have hmap : (g.nodeIds.map sanitize).Nodup := by
    rw [nodeIds, List.map_map]
    exact h.distinctNodes
  exact hmap.of_map

theorem findNode?_eq_some_iff (h : g.WellFormed) {id : String} {n : Node} :
    g.findNode? id = some n ↔ n ∈ g.nodes ∧ n.id = id := by
  rw [findNode?, List.findRev?_eq_find?_reverse]
  constructor
  · intro hfind
    exact ⟨List.mem_reverse.1 (List.mem_of_find?_eq_some hfind),
      by simpa using List.find?_some hfind⟩
  · intro h
    obtain ⟨hmem, rfl⟩ := h
    have hsome : (g.nodes.reverse.find? (·.id = n.id)).isSome := by
      rw [List.find?_isSome]
      exact ⟨n, List.mem_reverse.2 hmem, by simp⟩
    obtain ⟨m, hm⟩ := Option.isSome_iff_exists.1 hsome
    have hid : m.id = n.id := by simpa using List.find?_some hm
    rw [hm, h.sanitizedId_inj (List.mem_reverse.1 (List.mem_of_find?_eq_some hm)) hmem
      (congrArg sanitize hid)]

end Graph.WellFormed

/-- The counters of an assembly account for what was proposed and for what the graph holds. -/
structure AssemblyCounts.Balanced (counts : AssemblyCounts) (nodes : List Node)
    (edges : List Edge) (g : Graph) : Prop where
  nodesHeld : counts.nodes = g.nodes.length
  edgesHeld : counts.edges = g.edges.length
  nodesProposed : nodes.length = counts.nodes + counts.duplicateNodes
  edgesProposed : counts.edgesProposed = edges.length
  edgesPruned : counts.edgesPruned = edges.countP fun e => !(Assembler.joins g.nodeIds e)
  edgesBalance : counts.edgesProposed = counts.edgesPruned + counts.duplicateEdges + counts.edges

namespace Assembler

variable (a : Assembler) (manifest : Manifest)

/-- All proposed nodes: those that contain others, and then those of the services, task by task. -/
def proposedNodes : List Node :=
  containmentNodes manifest ++ (a.nodeTasks manifest).flatMap a.nodesFor

/-- All edges that an assembly proposes. -/
def candidates : List Edge := a.proposedEdges (indexOf (a.keptProposals manifest))

/-- The proposed edges that are not pruned. -/
def joined : List Edge := (a.candidates manifest).filter (joins (a.assemble manifest).1.nodeIds)

theorem map_node_proposals : (a.proposals manifest).map (·.node) = a.proposedNodes manifest := by
  simp [proposals, proposedNodes, List.map_flatMap, Function.comp_def]

theorem nodes_assemble :
    (a.assemble manifest).1.nodes =
      firstByKey Node.sanitizedId [] (a.proposedNodes manifest) := by
  rw [← map_node_proposals, ← map_firstByKey]
  rfl

theorem edges_assemble :
    (a.assemble manifest).1.edges = firstByKey (·.id) [] (a.joined manifest) := rfl

theorem joins_iff {ids : List String} {e : Edge} :
    joins ids e = true ↔ e.source ∈ ids ∧ e.target ∈ ids := by
  simp [joins]

theorem mem_joined_iff {e : Edge} :
    e ∈ a.joined manifest ↔ e ∈ a.candidates manifest ∧
      e.source ∈ (a.assemble manifest).1.nodeIds ∧ e.target ∈ (a.assemble manifest).1.nodeIds := by
  rw [joined, List.mem_filter, joins_iff]

theorem wellFormed_assemble : (a.assemble manifest).1.WellFormed where
  joined e he := by
    rw [edges_assemble] at he
    exact ((a.mem_joined_iff manifest).1 ((firstByKey_sublist _).subset he)).2
  distinctNodes := by
    rw [nodes_assemble]
    exact nodup_map_firstByKey _
  distinctEdges := by
    rw [edges_assemble]
    exact nodup_map_firstByKey _

theorem balanced_assemble :
    (a.assemble manifest).2.Balanced (a.proposedNodes manifest) (a.candidates manifest)
      (a.assemble manifest).1 where
  nodesHeld := rfl
  edgesHeld := rfl
  nodesProposed := by
    have hheld : (a.assemble manifest).2.nodes = (a.keptProposals manifest).length :=
      List.length_map ..
    have hduplicate : (a.assemble manifest).2.duplicateNodes =
        repeatsByKey (·.node.sanitizedId) [] (a.proposals manifest) := rfl
    rw [← map_node_proposals, List.length_map, hheld, hduplicate, keptProposals,
      length_firstByKey_add_repeatsByKey]
  edgesProposed := rfl
  edgesPruned := rfl
  edgesBalance := by
    have hproposed : (a.assemble manifest).2.edgesProposed = (a.candidates manifest).length := rfl
    have hpruned : (a.assemble manifest).2.edgesPruned =
        (a.candidates manifest).countP fun e => !joins (a.assemble manifest).1.nodeIds e := rfl
    have hduplicate : (a.assemble manifest).2.duplicateEdges =
        repeatsByKey (·.id) [] (a.joined manifest) := rfl
    have hheld : (a.assemble manifest).2.edges =
        (firstByKey (·.id) [] (a.joined manifest)).length := rfl
    have hjoined : (firstByKey (·.id) [] (a.joined manifest)).length +
        repeatsByKey (·.id) [] (a.joined manifest) = (a.joined manifest).length :=
      length_firstByKey_add_repeatsByKey _
    -- an edge is either joined or pruned
    have hsplit : (a.candidates manifest).length = (a.joined manifest).length +
        (a.candidates manifest).countP fun e => !joins (a.assemble manifest).1.nodeIds e := by
      rw [joined, ← List.countP_eq_length_filter,
        List.length_eq_countP_add_countP (joins (a.assemble manifest).1.nodeIds)]
      simp
    omega

/-- Every assembled graph is well formed, looking up an id finds the node that has it, the nodes are
the first ones proposed with their sanitized ids, and the counters balance. -/
theorem assemble_wellFormed_and_balanced :
    (a.assemble manifest).1.WellFormed ∧ (a.assemble manifest).1.nodeIds.Nodup ∧
    (∀ id n, (a.assemble manifest).1.findNode? id = some n ↔
      n ∈ (a.assemble manifest).1.nodes ∧ n.id = id) ∧
    (a.assemble manifest).1.nodes =
      firstOccurrences Node.sanitizedId (a.proposedNodes manifest) ∧
    (a.assemble manifest).2.Balanced (a.proposedNodes manifest) (a.candidates manifest)
      (a.assemble manifest).1 := by
  have hwf := a.wellFormed_assemble manifest
  refine ⟨hwf, hwf.nodup_nodeIds, fun id n => hwf.findNode?_eq_some_iff, ?_,
    a.balanced_assemble manifest⟩
  rw [nodes_assemble, firstByKey_eq_firstOccurrences]

end Assembler

end ResourceGraph
