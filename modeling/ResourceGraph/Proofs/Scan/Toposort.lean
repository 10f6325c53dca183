import Mathlib.Data.List.Nodup
import Mathlib.Data.List.Perm.Basic
import Mathlib.Logic.Relation
import ResourceGraph.Proofs.Fallible
import ResourceGraph.Scan.DirectedGraph

/-!
# Topological sorts

A topological sort lists all nodes, each before those that it leads to, or names a node on a cycle.
Two depth-first searches keep to that. After the first one, an edge leads from a node to one that
was finished earlier, or to one that leads back to it. So if the second search, which goes through
the nodes in the opposite order, meets a node too early, this node is on a cycle.
-/
namespace ResourceGraph.DirectedGraph

open Relation (TransGen)

variable {n : Nat} {g : DirectedGraph n} {node other next start source target a b : Fin n}
  {nodes stack rest discovered finished earlier later order : List (Fin n)}

def Edge (g : DirectedGraph n) (a b : Fin n) : Prop := (a, b) ∈ g.edges

theorem mem_successors_iff : b ∈ g.successors a ↔ g.Edge a b := by
  simp [successors, Edge]

theorem mem_predecessors_iff : a ∈ g.predecessors b ↔ g.Edge a b := by
  simp [predecessors, Edge]

theorem mem_pushNew_iff : node ∈ pushNew nodes discovered stack ↔
    node ∈ nodes ∧ node ∉ discovered ∨ node ∈ stack := by
  simp [pushNew]

theorem not_edge_empty : ¬ (empty : DirectedGraph n).Edge a b :=
  List.not_mem_nil

theorem edge_updateEdge_iff :
    (g.updateEdge source target).Edge a b ↔ g.Edge a b ∨ a = source ∧ b = target := by
  unfold updateEdge
  split
  · next hmem =>
    refine ⟨.inl, fun h => ?_⟩
    rcases h with h | ⟨rfl, rfl⟩
    · exact h
    · exact hmem
  · simp [Edge, or_comm]

/-- What is asked of a topological sort. -/
structure IsTopologicalSort (sort : Sorter) : Prop where
  perm : ∀ {n : Nat} {g : DirectedGraph n} {order}, sort n g = .ok order →
    order.Perm (List.finRange n)
  forward : ∀ {n : Nat} {g : DirectedGraph n} {order}, sort n g = .ok order →
    order.Pairwise fun a b => ¬ g.Edge b a
  irreflexive : ∀ {n : Nat} {g : DirectedGraph n} {order}, sort n g = .ok order →
    ∀ node, ¬ g.Edge node node
  onCycle : ∀ {n : Nat} {g : DirectedGraph n} {node}, sort n g = .error node →
    TransGen g.Edge node node

/-! ## Along the edges -/

/-- Every node leads to nodes that were finished earlier, or to some that lead back to it. -/
def Backed (g : DirectedGraph n) : List (Fin n) → Prop
  | [] => True
  | node :: earlier =>
    (∀ next, g.Edge node next → next ∈ earlier ∨ TransGen g.Edge next node) ∧ Backed g earlier

/-- What holds at any time of the first search. -/
structure Searching (g : DirectedGraph n) (stack discovered finished : List (Fin n)) : Prop where
  nodup : finished.Nodup
  isDiscovered : ∀ node ∈ finished, node ∈ discovered
  irreflexive : ∀ node ∈ discovered, ¬ g.Edge node node
  /-- A node that is not finished is still on the stack. -/
  mem_stack : ∀ node ∈ discovered, node ∉ finished → node ∈ stack
  /-- It leads to all nodes above it, and what it leads to is there if it is not discovered. -/
  above : ∀ node ∈ discovered, node ∉ finished → ∀ before after,
    stack = before ++ node :: after → node ∉ before →
      (∀ other ∈ before, TransGen g.Edge node other) ∧
        ∀ next, g.Edge node next → next ∈ discovered ∨ next ∈ before
  backed : g.Backed finished

theorem Searching.pop (h : g.Searching (node :: rest) discovered finished)
    (hnode : node ∈ discovered) :
    g.Searching rest discovered (finished.insert node) := by
  have hmem : ∀ other ∈ discovered, other ∉ finished → other ≠ node → other ∈ rest := by
    intro other hother hopen hne
    exact (List.mem_cons.1 (h.mem_stack other hother hopen)).resolve_left hne
  have habove : ∀ other ∈ discovered, other ∉ finished → other ≠ node → ∀ before after,
      rest = before ++ other :: after → other ∉ before →
        (∀ x ∈ before, TransGen g.Edge other x) ∧
          ∀ next, g.Edge other next → next ∈ discovered ∨ next ∈ before := by
    intro other hother hopen hne before after hrest hbefore
    have hcons : other ∉ node :: before := fun hmem =>
      (List.mem_cons.1 hmem).elim hne hbefore
    obtain ⟨hreach, hnext⟩ := h.above other hother hopen (node :: before) after
      (by rw [hrest, List.cons_append]) hcons
    refine ⟨fun x hx => hreach x (List.mem_cons_of_mem node hx), fun next hedge => ?_⟩
    rcases hnext next hedge with hdiscovered | hmem
    · exact .inl hdiscovered
    · rcases List.mem_cons.1 hmem with rfl | hmem
      · exact .inl hnode
      · exact .inr hmem
  by_cases hfinished : node ∈ finished
  · rw [List.insert_of_mem hfinished]
    have hne : ∀ other, other ∉ finished → other ≠ node := fun other hopen heq =>
      hopen (heq ▸ hfinished)
    exact {
      nodup := h.nodup
      isDiscovered := h.isDiscovered
      irreflexive := h.irreflexive
      mem_stack := fun other hother hopen => hmem other hother hopen (hne other hopen)
      above := fun other hother hopen => habove other hother hopen (hne other hopen)
      backed := h.backed }
  · rw [List.insert_of_not_mem hfinished]
    have hopen : ∀ other, other ∉ node :: finished → other ∉ finished ∧ other ≠ node :=
      fun other hother => ⟨List.not_mem_of_not_mem_cons hother, List.ne_of_not_mem_cons hother⟩
    exact {
      nodup := List.nodup_cons.2 ⟨hfinished, h.nodup⟩
      isDiscovered := by
        intro other hother
        rcases List.mem_cons.1 hother with rfl | hother
        · exact hnode
        · exact h.isDiscovered other hother
      irreflexive := h.irreflexive
      mem_stack := fun other hother hnot =>
        hmem other hother (hopen other hnot).1 (hopen other hnot).2
      above := fun other hother hnot =>
        habove other hother (hopen other hnot).1 (hopen other hnot).2
      backed := by
        refine ⟨fun next hedge => ?_, h.backed⟩
        -- nothing is above the node, so all that it leads to has been discovered
        have hnext : next ∈ discovered := by
          have hnothing := (h.above node hnode hfinished [] rest rfl List.not_mem_nil).2 next hedge
          exact hnothing.resolve_right List.not_mem_nil
        by_cases hearlier : next ∈ finished
        · exact .inl hearlier
        · refine .inr ?_
          obtain ⟨before, after, hstack, hbefore⟩ :=
            List.eq_append_cons_of_mem (h.mem_stack next hnext hearlier)
          refine (h.above next hnext hearlier before after hstack hbefore).1 node ?_
          cases before with
          | nil =>
            obtain ⟨rfl, -⟩ := List.cons.inj hstack
            exact absurd hedge (h.irreflexive node hnode)
          | cons top before =>
            obtain ⟨rfl, -⟩ := List.cons.inj hstack
            exact List.mem_cons_self }

/-- A discovered node on a stack is below what was pushed last. -/
theorem exists_below_of_pushNew
    (hstack : pushNew nodes discovered stack = earlier ++ node :: later)
    (hnode : node ∈ discovered) :
    ∃ below, earlier = pushNew nodes discovered below ∧ stack = below ++ node :: later := by
  rcases List.append_eq_append_iff.1 hstack with ⟨below, hearlier, hbelow⟩ | ⟨top, hnew, htop⟩
  · exact ⟨below, hearlier, hbelow⟩
  · cases top with
    | nil => exact ⟨[], by simpa [pushNew] using hnew.symm, by simpa using htop.symm⟩
    | cons first top =>
      obtain ⟨rfl, -⟩ := List.cons.inj htop
      have hmem : node ∈ pushNew nodes discovered [] := by
        rw [pushNew, hnew]
        simp
      rcases mem_pushNew_iff.1 hmem with ⟨-, hnot⟩ | hnil
      · exact absurd hnode hnot
      · exact absurd hnil List.not_mem_nil

theorem Searching.push (h : g.Searching (node :: rest) discovered finished)
    (hself : ¬ g.Edge node node) :
    g.Searching (pushNew (g.successors node) (node :: discovered) (node :: rest))
      (node :: discovered) finished where
  nodup := h.nodup
  isDiscovered other hother := List.mem_cons_of_mem node (h.isDiscovered other hother)
  irreflexive other hother := by
    rcases List.mem_cons.1 hother with rfl | hother
    · exact hself
    · exact h.irreflexive other hother
  mem_stack other hother hopen := by
    refine mem_pushNew_iff.2 (.inr ?_)
    rcases List.mem_cons.1 hother with rfl | hother
    · exact List.mem_cons_self
    · exact h.mem_stack other hother hopen
  above other hother hopen before after hstack hbefore := by
    obtain ⟨below, rfl, hbelow⟩ := exists_below_of_pushNew hstack hother
    have hnot : other ∉ below := fun hmem => hbefore (mem_pushNew_iff.2 (.inr hmem))
    cases below with
    | nil =>
      obtain ⟨rfl, -⟩ := List.cons.inj hbelow
      refine ⟨fun x hx => ?_, fun next hedge => ?_⟩
      · rcases mem_pushNew_iff.1 hx with ⟨hsuccessor, -⟩ | hnil
        · exact .single (mem_successors_iff.1 hsuccessor)
        · exact absurd hnil List.not_mem_nil
      · by_cases hmem : next ∈ node :: discovered
        · exact .inl hmem
        · exact .inr (mem_pushNew_iff.2 (.inl ⟨mem_successors_iff.2 hedge, hmem⟩))
    | cons top below =>
      obtain ⟨rfl, -⟩ := List.cons.inj hbelow
      have hold : other ∈ discovered :=
        (List.mem_cons.1 hother).resolve_left (List.ne_of_not_mem_cons hnot)
      obtain ⟨hreach, hleads⟩ := h.above other hold hopen (node :: below) after hbelow hnot
      refine ⟨fun x hx => ?_, fun next hedge => ?_⟩
      · rcases mem_pushNew_iff.1 hx with ⟨hsuccessor, -⟩ | hx
        · exact (hreach node List.mem_cons_self).tail (mem_successors_iff.1 hsuccessor)
        · exact hreach x hx
      · rcases hleads next hedge with hmem | hmem
        · exact .inl (List.mem_cons_of_mem node hmem)
        · exact .inr (mem_pushNew_iff.2 (.inr hmem))
  backed := h.backed

/-- A search that ends has finished all that it discovered, with all that was on its stack. -/
theorem Searching.explore {discovered' finished' : List (Fin n)}
    (h : g.Searching stack discovered finished)
    (hexplore : g.explore stack discovered finished = .ok (discovered', finished')) :
    g.Searching [] discovered' finished' ∧ (∀ node ∈ stack, node ∈ discovered') ∧
      ∀ node ∈ discovered, node ∈ discovered' := by
  fun_induction DirectedGraph.explore g stack discovered finished with
  | case1 discovered finished =>
    cases hexplore
    exact ⟨h, by simp, fun _ => id⟩
  | case2 discovered finished node rest hnode ih =>
    obtain ⟨hend, hrest, hdiscovered⟩ := ih (h.pop hnode) hexplore
    exact ⟨hend, List.forall_mem_cons.2 ⟨hdiscovered node hnode, hrest⟩, hdiscovered⟩
  | case3 => cases hexplore
  | case4 discovered finished node rest hnode hself ih =>
    obtain ⟨hend, hstack, hdiscovered⟩ :=
      ih (h.push fun hedge => hself (mem_successors_iff.2 hedge)) hexplore
    exact ⟨hend, fun other hother => hstack other (mem_pushNew_iff.2 (.inr hother)),
      fun other hother => hdiscovered other (List.mem_cons_of_mem node hother)⟩

/-- A search that does not end well names a node that leads to itself. -/
theorem edge_self_of_explore_eq_error (h : g.explore stack discovered finished = .error node) :
    g.Edge node node := by
  fun_induction DirectedGraph.explore g stack discovered finished with
  | case1 => cases h
  | case2 discovered finished top rest hnode ih => exact ih h
  | case3 discovered finished top rest hnode hself =>
    cases h
    exact mem_successors_iff.1 hself
  | case4 discovered finished top rest hnode hself ih => exact ih h

/-- Between two searches there is nothing on the stack. -/
theorem Searching.begin (h : g.Searching [] discovered finished) :
    g.Searching [node] discovered finished where
  nodup := h.nodup
  isDiscovered := h.isDiscovered
  irreflexive := h.irreflexive
  mem_stack other hother hopen := List.mem_cons_of_mem node (h.mem_stack other hother hopen)
  above other hother hopen := absurd (h.mem_stack other hother hopen) List.not_mem_nil
  backed := h.backed

theorem Searching.exploreAll (h : g.Searching [] discovered finished)
    (hexplore : g.exploreAll nodes discovered finished = .ok order)
    (hall : ∀ node, node ∈ discovered ∨ node ∈ nodes) :
    order.Perm (List.finRange n) ∧ (∀ node, ¬ g.Edge node node) ∧ g.Backed order := by
  induction nodes generalizing discovered finished with
  | nil =>
    cases hexplore
    have hdiscovered : ∀ node, node ∈ discovered := fun node =>
      (hall node).resolve_right List.not_mem_nil
    have hfinished : ∀ node, node ∈ order := by
      intro node
      by_contra hopen
      exact List.not_mem_nil (h.mem_stack node (hdiscovered node) hopen)
    refine ⟨?_, fun node => h.irreflexive node (hdiscovered node), h.backed⟩
    refine (List.perm_ext_iff_of_nodup h.nodup (List.nodup_finRange n)).2 fun node => ?_
    exact iff_of_true (hfinished node) (List.mem_finRange node)
  | cons start nodes ih =>
    rw [DirectedGraph.exploreAll] at hexplore
    split at hexplore
    · next hstart =>
      refine ih h hexplore fun node => ?_
      rcases hall node with hnode | hnode
      · exact .inl hnode
      · rcases List.mem_cons.1 hnode with rfl | hnode
        · exact .inl hstart
        · exact .inr hnode
    · next hstart =>
      obtain ⟨⟨discovered', finished'⟩, hone, hrest⟩ := bind_eq_ok_iff.1 hexplore
      obtain ⟨hend, hstack, hdiscovered⟩ := h.begin.explore hone
      refine ih hend hrest fun node => ?_
      rcases hall node with hnode | hnode
      · exact .inl (hdiscovered node hnode)
      · rcases List.mem_cons.1 hnode with rfl | hnode
        · exact .inl (hstack node List.mem_cons_self)
        · exact .inr hnode

theorem edge_self_of_exploreAll_eq_error
    (h : g.exploreAll nodes discovered finished = .error node) : g.Edge node node := by
  induction nodes generalizing discovered finished with
  | nil => cases h
  | cons start nodes ih =>
    rw [exploreAll] at h
    split at h
    · exact ih h
    · rcases bind_eq_error_iff.1 h with hstart | ⟨found, -, hrest⟩
      · exact edge_self_of_explore_eq_error hstart
      · exact ih hrest

theorem searching_nil : g.Searching [] [] [] where
  nodup := List.nodup_nil
  isDiscovered := by simp
  irreflexive := by simp
  mem_stack := by simp
  above := by simp
  backed := trivial

/-! ## Against the edges -/

theorem Backed.of_append (h : g.Backed (later ++ earlier)) : g.Backed earlier := by
  induction later with
  | nil => exact h
  | cons node later ih => exact ih h.2

theorem next?_eq_none_iff :
    g.next? discovered stack = none ↔ ∀ node ∈ stack, node ∈ discovered := by
  induction stack with
  | nil => simp [next?]
  | cons top stack ih =>
    rw [next?]
    split
    · next htop => rw [ih, List.forall_mem_cons, and_iff_right htop]
    · next htop => simp [htop]

theorem mem_of_next?_eq_some (h : g.next? discovered stack = some (node, rest)) :
    node ∈ stack ∧ node ∉ discovered := by
  induction stack with
  | nil => cases h
  | cons top stack ih =>
    rw [next?] at h
    split at h
    · next htop =>
      obtain ⟨hnode, hnew⟩ := ih h
      exact ⟨List.mem_cons_of_mem top hnode, hnew⟩
    · next htop =>
      cases h
      exact ⟨List.mem_cons_self, htop⟩

/-- From a node that is not discovered the second search comes to its predecessors. -/
theorem next?_singleton (h : node ∉ discovered) : g.next? discovered [node] =
    some (node, pushNew (g.predecessors node) (node :: discovered) []) := by
  rw [next?, if_neg h]

theorem mem_pushNew_predecessors_iff :
    other ∈ pushNew (g.predecessors node) discovered [] ↔
      g.Edge other node ∧ other ∉ discovered := by
  rw [mem_pushNew_iff, mem_predecessors_iff, or_iff_left List.not_mem_nil]

/-- From a node that it has not seen, the second search goes on if it has seen all predecessors. -/
theorem confirm_cons (g : DirectedGraph n) (nodes : List (Fin n)) (h : node ∉ discovered) :
    (g.confirm discovered (node :: nodes) = g.confirm (node :: discovered) nodes ∧
      ∀ other, g.Edge other node → other ∈ node :: discovered) ∨
    ∃ other, g.confirm discovered (node :: nodes) = .error other ∧ g.Edge other node ∧
      other ∉ node :: discovered := by
  rw [confirm, next?_singleton h]
  cases hnext : g.next? (node :: discovered)
      (pushNew (g.predecessors node) (node :: discovered) []) with
  | none =>
    refine .inl ⟨by simp only [hnext], fun other hedge => ?_⟩
    by_contra hnew
    exact hnew (next?_eq_none_iff.1 hnext other (mem_pushNew_predecessors_iff.2 ⟨hedge, hnew⟩))
  | some found =>
    obtain ⟨hother, hnew⟩ := mem_of_next?_eq_some hnext
    exact .inr ⟨found.1, by simp only [hnext], (mem_pushNew_predecessors_iff.1 hother).1, hnew⟩

/-- Nodes that have not been seen, each before those that it leads to, or one of them that comes
behind a node to which it leads. -/
theorem confirm_cases (g : DirectedGraph n) (hnodup : nodes.Nodup)
    (hnew : ∀ node ∈ nodes, node ∉ discovered) :
    (g.confirm discovered nodes = .ok () ∧ nodes.Pairwise fun a b => ¬ g.Edge b a) ∨
    ∃ earlier start later other, g.confirm discovered nodes = .error other ∧
      nodes = earlier ++ start :: later ∧ g.Edge other start ∧ other ∉ discovered ∧
      other ∉ earlier ∧ other ≠ start := by
  induction nodes generalizing discovered with
  | nil => exact .inl ⟨rfl, .nil⟩
  | cons node nodes ih =>
    obtain ⟨hnode, hrest⟩ := List.nodup_cons.1 hnodup
    obtain ⟨hnodeNew, hrestNew⟩ := List.forall_mem_cons.1 hnew
    have hunseen : ∀ other ∈ nodes, other ∉ node :: discovered := fun other hother =>
      List.not_mem_cons_of_ne_of_not_mem (fun heq => hnode (heq ▸ hother)) (hrestNew other hother)
    rcases g.confirm_cons nodes hnodeNew with ⟨heq, hseen⟩ | ⟨other, herror, hedge, hother⟩
    · rw [heq]
      rcases ih hrest hunseen with ⟨hok, hforward⟩ |
        ⟨earlier, start, later, other, herror, rfl, hedge, hother, hearlier, hstart⟩
      · refine .inl ⟨hok, .cons (fun other hother hedge => ?_) hforward⟩
        exact hunseen other hother (hseen other hedge)
      · refine .inr ⟨node :: earlier, start, later, other, herror, rfl, hedge,
          List.not_mem_of_not_mem_cons hother, ?_, hstart⟩
        exact List.not_mem_cons_of_ne_of_not_mem (List.ne_of_not_mem_cons hother) hearlier
    · exact .inr ⟨[], node, nodes, other, herror, rfl, hedge,
        List.not_mem_of_not_mem_cons hother, List.not_mem_nil, List.ne_of_not_mem_cons hother⟩

/-- In the order of the first search, a node before its predecessor is led to by it and back. -/
theorem Backed.transGen (h : g.Backed (earlier ++ start :: later))
    (hnodup : (earlier ++ start :: later).Nodup) (hnode : node ∈ later)
    (hedge : g.Edge node start) : TransGen g.Edge node node := by
  obtain ⟨between, behind, rfl⟩ := List.append_of_mem hnode
  rw [← List.cons_append, ← List.append_assoc] at h
  have hstart : start ∉ behind := by
    intro hmem
    have hrest := (List.nodup_append.1 hnodup).2.1
    exact (List.nodup_cons.1 hrest).1 (by simp [hmem])
  exact .head hedge ((h.of_append.1 start hedge).resolve_left hstart)

theorem transGen_of_confirm_eq_error (hbacked : g.Backed order)
    (hperm : order.Perm (List.finRange n)) (h : g.confirm [] order = .error node) :
    TransGen g.Edge node node := by
  have hnodup := hperm.nodup_iff.2 (List.nodup_finRange n)
  rcases g.confirm_cases hnodup fun _ _ => List.not_mem_nil with ⟨hok, -⟩ |
    ⟨earlier, start, later, other, herror, rfl, hedge, -, hearlier, hstart⟩
  · cases h.symm.trans hok
  · obtain rfl : node = other := Except.error.inj (h.symm.trans herror)
    have hmem : node ∈ earlier ++ start :: later := hperm.mem_iff.2 (List.mem_finRange node)
    have hlater : node ∈ later :=
      (List.mem_cons.1 ((List.mem_append.1 hmem).resolve_left hearlier)).resolve_left hstart
    exact hbacked.transGen hnodup hlater hedge

theorem toposort_eq_ok_iff : g.toposort = .ok order ↔
    g.exploreAll (List.finRange n) [] [] = .ok order ∧ g.confirm [] order = .ok () := by
  simp only [toposort, bind_eq_ok_iff]
  constructor
  · intro h
    obtain ⟨found, hexplore, ⟨⟩, hconfirm, heq⟩ := h
    cases heq
    exact ⟨hexplore, hconfirm⟩
  · intro h
    obtain ⟨hexplore, hconfirm⟩ := h
    exact ⟨order, hexplore, (), hconfirm, rfl⟩

theorem toposort_eq_error_iff : g.toposort = .error node ↔
    g.exploreAll (List.finRange n) [] [] = .error node ∨
      ∃ order, g.exploreAll (List.finRange n) [] [] = .ok order ∧
        g.confirm [] order = .error node := by
  have hpure : ∀ order : List (Fin n), (pure order : Except (Fin n) _) ≠ .error node := nofun
  simp only [toposort, bind_eq_error_iff, hpure, and_false, exists_false, or_false]

/-- Two searches make a topological sort. -/
theorem isTopologicalSort_toposort : IsTopologicalSort fun _ => toposort := by
  have hexplored : ∀ {n : Nat} {g : DirectedGraph n} {order : List (Fin n)},
      g.exploreAll (List.finRange n) [] [] = .ok order →
        order.Perm (List.finRange n) ∧ (∀ node, ¬ g.Edge node node) ∧ g.Backed order :=
    fun h => searching_nil.exploreAll h fun node => .inr (List.mem_finRange node)
  refine ⟨fun h => ?_, fun h => ?_, fun h => ?_, fun h => ?_⟩
  · exact (hexplored (toposort_eq_ok_iff.1 h).1).1
  · obtain ⟨hexplore, hconfirm⟩ := toposort_eq_ok_iff.1 h
    have hnodup := (hexplored hexplore).1.nodup_iff.2 (List.nodup_finRange _)
    rcases confirm_cases _ hnodup fun _ _ => List.not_mem_nil with ⟨-, hforward⟩ |
      ⟨-, -, -, other, herror, -⟩
    · exact hforward
    · cases hconfirm.symm.trans herror
  · exact (hexplored (toposort_eq_ok_iff.1 h).1).2.1
  · rcases toposort_eq_error_iff.1 h with hexplore | ⟨order, hexplore, hconfirm⟩
    · exact .single (edge_self_of_exploreAll_eq_error hexplore)
    · obtain ⟨hperm, -, hbacked⟩ := hexplored hexplore
      exact transGen_of_confirm_eq_error hbacked hperm hconfirm

end ResourceGraph.DirectedGraph
