import Mathlib.Data.List.Induction
import Mathlib.Order.Nat
import ResourceGraph.Proofs.Scan.Peeling

/-!
# Levels in one pass

If every operation stands behind its producers, one pass gives the levels: an operation goes one
level above the highest of its producers. Whatever such order is taken, the plan is the same, and
there is such an order whenever there is a plan.
-/
namespace ResourceGraph.Plan

open PlannedOperation (sortsBefore)

/-! ## The pass -/

/-- Every operation stands behind those that it reads. -/
structure ProducersFirst (order : List PlannedOperation) : Prop where
  behind : order.Pairwise fun a b => b.name ∉ a.reads
  irreflexive : ∀ op ∈ order, op.name ∉ op.reads

variable {left order level : List PlannedOperation} {levels : List (List PlannedOperation)}
  {placed : List (PlannedOperation × Nat)} {layers : Layers} {op producer : PlannedOperation}
  {j k n : Nat}

/-! ## One operation -/

theorem length_pushAt : (pushAt levels k op).length = max levels.length (k + 1) := by
  induction levels, k, op using pushAt.induct with
  | case1 op => rfl
  | case2 k op ih =>
    rw [pushAt, List.length_cons, ih]
    simp
  | case3 level levels op =>
    rw [pushAt, List.length_cons, List.length_cons]
    omega
  | case4 level levels k op ih =>
    rw [pushAt, List.length_cons, List.length_cons, ih]
    omega

theorem getD_pushAt : (pushAt levels k op)[j]?.getD [] =
    levels[j]?.getD [] ++ if k = j then [op] else [] := by
  induction levels, k, op using pushAt.induct generalizing j with
  | case1 op => cases j with
    | zero => rfl
    | succ j => simp [pushAt]
  | case2 k op ih => cases j with
    | zero => simp [pushAt]
    | succ j => simpa [pushAt] using ih (j := j)
  | case3 level levels op => cases j with
    | zero => simp [pushAt]
    | succ j => simp [pushAt]
  | case4 level levels k op ih => cases j with
    | zero => simp [pushAt]
    | succ j => simpa [pushAt] using ih (j := j)

theorem lt_levelFor (h : (producer, k) ∈ placed) (hreads : producer.name ∈ op.reads) :
    k < Layers.levelFor placed op := by
  refine List.le_max?_getD_of_mem (List.mem_map.2 ⟨(producer, k), List.mem_filter.2 ⟨h, ?_⟩, rfl⟩)
  simpa using hreads

theorem levelFor_eq_zero_or : Layers.levelFor placed op = 0 ∨
    ∃ producer k, (producer, k) ∈ placed ∧ producer.name ∈ op.reads ∧
      Layers.levelFor placed op = k + 1 := by
  rw [Layers.levelFor]
  cases hmax : ((placed.filter fun producer => op.reads.contains producer.1.name).map
      (·.2 + 1)).max? with
  | none => exact .inl rfl
  | some m =>
    obtain ⟨⟨producer, k⟩, hmem, rfl⟩ := List.mem_map.1 (List.max?_mem hmax)
    obtain ⟨hplaced, hreads⟩ := List.mem_filter.1 hmem
    exact .inr ⟨producer, k, hplaced, by simpa using hreads, rfl⟩

/-- Whatever is behind an operation is not on the chains that lead to it. -/
theorem chain_append_singleton_iff (hbehind : ∀ o ∈ order, op.name ∉ o.reads) {o : PlannedOperation}
    (ho : o ∈ order) : Chain (order ++ [op]) n o ↔ Chain order n o := by
  refine ⟨fun h => ?_, fun h => h.mono fun x => List.mem_append_left [op]⟩
  induction h with
  | here _ => exact .here ho
  | after hproducer _ hreads ih =>
    rcases List.mem_append.1 hproducer.mem with hmem | hmem
    · exact (ih hmem).after ho hreads
    · obtain rfl := List.mem_singleton.1 hmem
      exact absurd hreads (hbehind _ ho)

/-! ## All operations -/

/-- What holds of the layers when the operations of a list have been placed. -/
structure Placed (order : List PlannedOperation) (layers : Layers) : Prop where
  once : layers.placed.map (·.1) = order
  longest : ∀ op k, (op, k) ∈ layers.placed ↔ LongestChain order k op
  level : ∀ k, layers.levels[k]?.getD [] = (layers.placed.filter (·.2 = k)).map (·.1)
  count : ∀ k, k < layers.levels.length ↔ ∃ entry ∈ layers.placed, k ≤ entry.2

theorem Placed.exists_level (h : Placed order layers) (hop : op ∈ order) :
    ∃ k, (op, k) ∈ layers.placed := by
  rw [← h.once] at hop
  obtain ⟨⟨o, k⟩, hmem, rfl⟩ := List.mem_map.1 hop
  exact ⟨k, hmem⟩

theorem Placed.longestChain_levelFor (h : Placed order layers)
    (hself : op.name ∉ op.reads) (hbehind : ∀ o ∈ order, op.name ∉ o.reads) :
    LongestChain (order ++ [op]) (Layers.levelFor layers.placed op) op := by
  have hop : op ∈ order ++ [op] := List.mem_append_right order List.mem_cons_self
  refine ⟨?_, fun n hn => ?_⟩
  · rcases levelFor_eq_zero_or with hzero | ⟨producer, k, hplaced, hreads, hsucc⟩
    · rw [hzero]
      exact .here hop
    · have hchain := ((h.longest producer k).1 hplaced).1
      rw [hsucc]
      exact (hchain.mono fun x => List.mem_append_left [op]).after hop hreads
  · cases hn with
    | here _ => exact Nat.zero_le _
    | @after n producer _ hproducer _ hreads =>
      rcases List.mem_append.1 hproducer.mem with hmem | hmem
      · obtain ⟨k, hplaced⟩ := h.exists_level hmem
        have hle : n ≤ k := ((h.longest producer k).1 hplaced).2 n
          ((chain_append_singleton_iff hbehind hmem).1 hproducer)
        exact Nat.lt_of_le_of_lt hle (lt_levelFor hplaced hreads)
      · obtain rfl := List.mem_singleton.1 hmem
        exact absurd hreads hself

theorem Placed.place (h : Placed order layers) (hself : op.name ∉ op.reads)
    (hbehind : ∀ o ∈ order, op.name ∉ o.reads) : Placed (order ++ [op]) (layers.place op) := by
  have hlongest := h.longestChain_levelFor hself hbehind
  refine ⟨?_, fun o k => ?_, fun k => ?_, fun k => ?_⟩
  · rw [Layers.place, List.map_append, h.once]
    rfl
  · have hbefore : o ∈ order → (LongestChain (order ++ [op]) k o ↔ LongestChain order k o) := by
      intro ho
      simp only [LongestChain, chain_append_singleton_iff hbehind ho]
    simp only [Layers.place, List.mem_append, List.mem_singleton, Prod.mk.injEq, h.longest]
    constructor
    · rintro (hchain | ⟨rfl, rfl⟩)
      · exact (hbefore hchain.1.mem).2 hchain
      · exact hlongest
    · intro hchain
      rcases List.mem_append.1 hchain.1.mem with ho | ho
      · exact .inl ((hbefore ho).1 hchain)
      · obtain rfl := List.mem_singleton.1 ho
        exact .inr ⟨rfl, hchain.unique hlongest⟩
  · rw [Layers.place, getD_pushAt, h.level, List.filter_append, List.map_append]
    by_cases hk : Layers.levelFor layers.placed op = k
    · simp [hk]
    · simp [hk]
  · simp only [Layers.place, length_pushAt, List.mem_append, List.mem_singleton, or_and_right,
      exists_or, exists_eq_left, ← h.count]
    omega

theorem producersFirst_append_singleton_iff : ProducersFirst (order ++ [op]) ↔
    ProducersFirst order ∧ op.name ∉ op.reads ∧ ∀ o ∈ order, op.name ∉ o.reads := by
  constructor
  · intro h
    obtain ⟨hbehind, hself⟩ := h
    obtain ⟨hpairwise, -, hlast⟩ := List.pairwise_append.1 hbehind
    refine ⟨⟨hpairwise, fun o ho => hself o (List.mem_append_left [op] ho)⟩, ?_, ?_⟩
    · exact hself op (List.mem_append_right order List.mem_cons_self)
    · exact fun o ho => hlast o ho op List.mem_cons_self
  · intro h
    obtain ⟨⟨hpairwise, hself⟩, hop, hlast⟩ := h
    refine ⟨List.pairwise_append.2 ⟨hpairwise, List.pairwise_singleton .., ?_⟩, ?_⟩
    · intro o ho x hx
      obtain rfl := List.mem_singleton.1 hx
      exact hlast o ho
    · intro o ho
      rcases List.mem_append.1 ho with ho | ho
      · exact hself o ho
      · obtain rfl := List.mem_singleton.1 ho
        exact hop

theorem placed_foldl (h : ProducersFirst order) :
    Placed order (order.foldl Layers.place ⟨[], []⟩) := by
  induction order using List.reverseRecOn with
  | nil =>
    refine ⟨rfl, fun op k => ?_, fun k => rfl, fun k => ?_⟩
    · exact iff_of_false List.not_mem_nil fun hchain => List.not_mem_nil hchain.1.mem
    · simp
  | append_singleton order op ih =>
    obtain ⟨hfirst, hself, hbehind⟩ := producersFirst_append_singleton_iff.1 h
    rw [List.foldl_append]
    exact (ih hfirst).place hself hbehind

/-! ## One pass and peeling -/

theorem ProducersFirst.exists_peel_eq_some (h : ProducersFirst order) :
    ∃ levels, peel order = some levels := by
  cases hpeel : peel order with
  | some levels => exact ⟨levels, rfl⟩
  | none =>
    obtain ⟨stuck, hne, hready, hsub⟩ := exists_stuck_of_peel_eq_none hpeel
    obtain ⟨first, rest, rfl⟩ := List.exists_cons_of_ne_nil hne
    -- the first of those that are stuck reads none of them
    have hbehind := (List.pairwise_cons.1 (h.behind.sublist hsub)).1
    have hself := h.irreflexive first (hsub.subset List.mem_cons_self)
    have hfirst : first ∈ ready (first :: rest) := by
      refine mem_ready_iff.2 ⟨List.mem_cons_self, fun o ho => ?_⟩
      rcases List.mem_cons.1 ho with rfl | ho
      · exact hself
      · exact hbehind o ho
    rw [hready] at hfirst
    exact absurd hfirst List.not_mem_nil

theorem Placed.mem_level_iff (h : Placed order layers) :
    op ∈ layers.levels[k]?.getD [] ↔ LongestChain order k op := by
  rw [h.level, ← h.longest]
  simp

theorem Placed.length_levels (h : Placed order layers) (hpeel : peel order = some levels) :
    levels.length = layers.levels.length := by
  refine eq_of_forall_lt_iff fun k => ?_
  rw [h.count]
  constructor
  · intro hk
    obtain ⟨op, hop⟩ := List.exists_mem_of_ne_nil _ (level_ne_nil hpeel (List.getElem_mem hk))
    have hchain : LongestChain order k op :=
      (Plan.mem_level_iff hpeel).1 ⟨levels[k], List.getElem?_eq_getElem hk, hop⟩
    exact ⟨(op, k), (h.longest op k).2 hchain, Nat.le_refl k⟩
  · intro hentry
    obtain ⟨⟨op, j⟩, hplaced, hle⟩ := hentry
    obtain ⟨level, hlevel, -⟩ := (Plan.mem_level_iff hpeel).2 ((h.longest op j).1 hplaced)
    exact Nat.lt_of_le_of_lt hle (List.getElem?_eq_some_iff.1 hlevel).1

/-- A level of the layers, sorted, is a level of the plan. -/
theorem Placed.mergeSort_level (h : Placed order layers) (hpeel : peel order = some levels)
    (hnodup : (order.map (·.name)).Nodup) (hk : levels[k]? = some level) :
    level = (layers.levels[k]?.getD []).mergeSort sortsBefore := by
  obtain ⟨part, -, hsub, rfl⟩ := exists_sorted_of_mem hpeel (List.mem_of_getElem? hk)
  have hpart : part.Nodup := (hnodup.of_map).sublist hsub
  have hlevel : (layers.levels[k]?.getD []).Nodup := by
    have hentries : (layers.placed.map (·.1)).Nodup := h.once ▸ hnodup.of_map
    rw [h.level]
    exact hentries.sublist (List.filter_sublist.map _)
  have hperm : part.Perm (layers.levels[k]?.getD []) := by
    refine (List.perm_ext_iff_of_nodup hpart hlevel).2 fun op => ?_
    rw [h.mem_level_iff, ← Plan.mem_level_iff hpeel]
    simp [hk]
  exact mergeSort_eq_of_perm hperm (hnodup.sublist (hsub.map _))

/-- One pass gives the levels that peeling gives. -/
theorem peel_eq_inOnePass (h : ProducersFirst order) (hnodup : (order.map (·.name)).Nodup) :
    peel order = some (inOnePass order) := by
  obtain ⟨levels, hpeel⟩ := h.exists_peel_eq_some
  have hplaced := placed_foldl h
  have hlength := hplaced.length_levels hpeel
  have hlevels : levels = inOnePass order := by
    refine List.ext_getElem ?_ fun k hk hk' => ?_
    · rw [hlength, inOnePass, List.length_map]
    · have hlevel := hplaced.mergeSort_level hpeel hnodup (List.getElem?_eq_getElem hk)
      rw [hlength] at hk
      rw [hlevel, List.getElem?_eq_getElem hk, Option.getD_some]
      simp only [inOnePass, List.getElem_map]
  rw [hpeel, hlevels]

theorem producersFirst_flatten (h : peel left = some levels) : ProducersFirst levels.flatten := by
  have hlower : ∀ i j a b, LongestChain left i a → LongestChain left j b → i ≤ j →
      b.name ∉ a.reads := by
    intro i j a b ha hb hle hreads
    exact absurd (hb.lt_of_reads ha hreads) (Nat.not_lt.2 hle)
  have hchain : ∀ (i : Nat) (hi : i < levels.length), ∀ a ∈ levels[i], LongestChain left i a :=
    fun i hi a ha => (mem_level_iff h).1 ⟨levels[i], List.getElem?_eq_getElem hi, ha⟩
  refine ⟨List.pairwise_flatten.2 ⟨fun level hlevel => ?_, ?_⟩, fun op hop => ?_⟩
  · obtain ⟨i, hi, rfl⟩ := List.mem_iff_getElem.1 hlevel
    refine List.pairwise_of_forall_mem_list fun a ha b hb => ?_
    exact hlower i i a b (hchain i hi a ha) (hchain i hi b hb) (Nat.le_refl i)
  · refine List.pairwise_iff_getElem.2 fun i j hi hj hij a ha b hb => ?_
    exact hlower i j a b (hchain i hi a ha) (hchain j hj b hb) (Nat.le_of_lt hij)
  · obtain ⟨level, hlevel, hop⟩ := List.mem_flatten.1 hop
    obtain ⟨i, hi, rfl⟩ := List.mem_iff_getElem.1 hlevel
    exact hlower i i op op (hchain i hi op hop) (hchain i hi op hop) (Nat.le_refl i)

end ResourceGraph.Plan
