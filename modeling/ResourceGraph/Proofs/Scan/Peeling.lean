import Mathlib.Data.List.Nodup
import Mathlib.Data.List.Perm.Basic
import ResourceGraph.Scan.Plan

/-!
# Levels by peeling

Operations are peeled off in levels, each level holding those that read none of the operations still
left. The level of an operation is then the length of the longest chain of producers that leads to
it, and if nothing can be peeled off, everything that is left reads something that is left.
-/
namespace ResourceGraph

namespace PlannedOperation

/-- The order by service, then name. -/
def Precedes (a b : PlannedOperation) : Prop :=
  a.service < b.service ∨ a.service = b.service ∧ a.operation < b.operation

theorem precedes_iff {a b : PlannedOperation} :
    a.Precedes b ↔ [a.service, a.operation] < [b.service, b.operation] := by
  simp [Precedes, List.cons_lt_cons_iff]

theorem sortsBefore_iff {a b : PlannedOperation} :
    sortsBefore a b = true ↔ ¬ [b.service, b.operation] < [a.service, a.operation] := by
  rw [sortsBefore, Bool.not_eq_true', decide_eq_false_iff_not]

theorem sortsBefore_trans (a b c : PlannedOperation) (hab : sortsBefore a b)
    (hbc : sortsBefore b c) : sortsBefore a c :=
  sortsBefore_iff.2 (List.le_trans (sortsBefore_iff.1 hab) (sortsBefore_iff.1 hbc))

theorem sortsBefore_total (a b : PlannedOperation) : sortsBefore a b || sortsBefore b a := by
  rw [Bool.or_eq_true, sortsBefore_iff, sortsBefore_iff]
  exact List.le_total ..

theorem name_eq_of_sortsBefore {a b : PlannedOperation} (hab : sortsBefore a b)
    (hba : sortsBefore b a) : a.name = b.name := by
  have heq : [a.service, a.operation] = [b.service, b.operation] :=
    List.le_antisymm (sortsBefore_iff.1 hab) (sortsBefore_iff.1 hba)
  simpa [name] using heq

theorem precedes_of_sortsBefore {a b : PlannedOperation} (h : sortsBefore a b)
    (hne : a.name ≠ b.name) : a.Precedes b := by
  rw [precedes_iff]
  by_contra hnot
  exact hne (name_eq_of_sortsBefore h (sortsBefore_iff.2 hnot))

end PlannedOperation

namespace Plan

open PlannedOperation (sortsBefore Precedes)

variable {left ops level : List PlannedOperation} {levels : List (List PlannedOperation)}
  {op producer : PlannedOperation} {k n : Nat}

/-! ## Chains of producers -/

/-- A chain of so many producers leads to the operation, all of them in the list. -/
inductive Chain (ops : List PlannedOperation) : Nat → PlannedOperation → Prop
  | here {op : PlannedOperation} (hop : op ∈ ops) : Chain ops 0 op
  | after {n : Nat} {producer op : PlannedOperation} (h : Chain ops n producer) (hop : op ∈ ops)
      (hreads : producer.name ∈ op.reads) : Chain ops (n + 1) op

/-- The longest chain that leads to the operation has this many producers. -/
def LongestChain (ops : List PlannedOperation) (k : Nat) (op : PlannedOperation) : Prop :=
  Chain ops k op ∧ ∀ n, Chain ops n op → n ≤ k

theorem Chain.mem (h : Chain ops n op) : op ∈ ops := by
  cases h with
  | here hop => exact hop
  | after _ hop _ => exact hop

theorem Chain.mono (h : Chain left n op) (hsub : ∀ o ∈ left, o ∈ ops) : Chain ops n op := by
  induction h with
  | here hop => exact .here (hsub _ hop)
  | after _ hop hreads ih => exact ih.after (hsub _ hop) hreads

theorem LongestChain.unique {j : Nat} (hj : LongestChain ops j op) (hk : LongestChain ops k op) :
    j = k :=
  Nat.le_antisymm (hk.2 j hj.1) (hj.2 k hk.1)

theorem longestChain_congr (h : ∀ o, o ∈ left ↔ o ∈ ops) :
    LongestChain left k op ↔ LongestChain ops k op := by
  have hchain : ∀ n, Chain left n op ↔ Chain ops n op := fun n =>
    ⟨fun hn => hn.mono fun o => (h o).1, fun hn => hn.mono fun o => (h o).2⟩
  simp only [LongestChain, hchain]

/-- A producer has shorter chains. -/
theorem LongestChain.lt_of_reads {j : Nat} (hj : LongestChain ops j producer)
    (hk : LongestChain ops k op) (hreads : producer.name ∈ op.reads) : j < k :=
  hk.2 (j + 1) (hj.1.after hk.1.mem hreads)

/-! ## One level -/

/-- Whether the operation reads none of those that are left. -/
def isReady (left : List PlannedOperation) (op : PlannedOperation) : Bool :=
  op.reads.all fun name => !(left.map (·.name)).contains name

/-- The next level, before it is sorted. -/
def ready (left : List PlannedOperation) : List PlannedOperation := left.filter (isReady left)

/-- What is left after the next level. -/
def waiting (left : List PlannedOperation) : List PlannedOperation :=
  left.filter fun op => !isReady left op

theorem length_waiting_lt (h : ready left ≠ []) : (waiting left).length < left.length := by
  obtain ⟨op, hop⟩ := List.exists_mem_of_ne_nil _ h
  obtain ⟨hmem, hready⟩ := List.mem_filter.1 hop
  exact List.length_filter_lt_length_iff_exists.2 ⟨op, hmem, by simp [hready]⟩

theorem isReady_iff : isReady left op = true ↔ ∀ o ∈ left, o.name ∉ op.reads := by
  simp only [isReady, List.all_eq_true, Bool.not_eq_true', List.contains_eq_mem,
    decide_eq_false_iff_not, List.mem_map, not_exists, not_and]
  constructor
  · intro h o ho hreads
    exact h _ hreads o ho rfl
  · rintro h name hname o ho rfl
    exact h o ho hname

theorem mem_ready_iff : op ∈ ready left ↔ op ∈ left ∧ ∀ o ∈ left, o.name ∉ op.reads := by
  rw [ready, List.mem_filter, isReady_iff]

theorem mem_waiting_iff : op ∈ waiting left ↔ op ∈ left ∧ ∃ o ∈ left, o.name ∈ op.reads := by
  rw [waiting, List.mem_filter, Bool.not_eq_true', ← Bool.not_eq_true, isReady_iff]
  simp only [not_forall, Decidable.not_not, exists_prop]

/-- What waits has all its chains, each without the first producer. -/
theorem chain_waiting_iff : Chain (waiting left) n op ↔ Chain left (n + 1) op := by
  constructor
  · intro h
    induction h with
    | here hop =>
      obtain ⟨hleft, o, ho, hreads⟩ := mem_waiting_iff.1 hop
      exact (Chain.here ho).after hleft hreads
    | after _ hop hreads ih => exact ih.after (mem_waiting_iff.1 hop).1 hreads
  · intro h
    -- without the first producer, every member of the chain still reads one that is left
    induction n generalizing op with
    | zero =>
      cases h with
      | after hproducer hop hreads =>
        exact .here (mem_waiting_iff.2 ⟨hop, _, hproducer.mem, hreads⟩)
    | succ n ih =>
      cases h with
      | after hproducer hop hreads =>
        exact (ih hproducer).after (mem_waiting_iff.2 ⟨hop, _, hproducer.mem, hreads⟩) hreads

theorem longestChain_zero_iff : LongestChain left 0 op ↔ op ∈ ready left := by
  rw [mem_ready_iff]
  constructor
  · intro h
    refine ⟨h.1.mem, fun o ho hreads => ?_⟩
    exact absurd (h.2 1 ((Chain.here ho).after h.1.mem hreads)) (by decide)
  · intro h
    obtain ⟨hop, hready⟩ := h
    refine ⟨.here hop, fun n hn => ?_⟩
    cases hn with
    | here _ => exact Nat.le_refl _
    | after hproducer _ hreads => exact absurd hreads (hready _ hproducer.mem)

theorem longestChain_succ_iff :
    LongestChain left (k + 1) op ↔ LongestChain (waiting left) k op := by
  simp only [LongestChain, chain_waiting_iff]
  refine and_congr_right fun _ => ⟨fun h n hn => Nat.le_of_succ_le_succ (h (n + 1) hn), ?_⟩
  intro h n hn
  cases n with
  | zero => exact Nat.zero_le _
  | succ n => exact Nat.succ_le_succ (h n hn)

/-! ## All levels -/

/-- The levels of the operations that are left. -/
def peel (left : List PlannedOperation) : Option (List (List PlannedOperation)) :=
  if left.isEmpty then some []
  else if h : ready left = [] then none
  else
    have := length_waiting_lt h
    (peel (waiting left)).map ((ready left).mergeSort sortsBefore :: ·)
termination_by left.length

/-- Peeling ends with nothing left, or takes away what is ready and goes on with what waits. -/
theorem peel_eq_some_iff : peel left = some levels ↔
    (left = [] ∧ levels = []) ∨ (ready left ≠ [] ∧ ∃ rest, peel (waiting left) = some rest ∧
      levels = (ready left).mergeSort sortsBefore :: rest) := by
  rw [peel]
  split
  · next hempty =>
    rw [List.isEmpty_iff] at hempty
    simp [hempty, ready, eq_comm]
  · next hleft =>
    rw [List.isEmpty_iff] at hleft
    split
    · next hready => simp [hleft, hready]
    · next hready =>
      cases peel (waiting left) with
      | none => simp [hleft]
      | some rest => simp [hleft, hready, eq_comm]

theorem peel_eq_some_nil_iff : peel left = some [] ↔ left = [] := by
  constructor
  · intro h
    rcases peel_eq_some_iff.1 h with ⟨hleft, -⟩ | ⟨-, rest, -, hcons⟩
    · exact hleft
    · cases hcons
  · rintro rfl
    exact peel_eq_some_iff.2 (.inl ⟨rfl, rfl⟩)

theorem peel_eq_some_cons_iff : peel left = some (level :: levels) ↔
    ready left ≠ [] ∧ level = (ready left).mergeSort sortsBefore ∧
      peel (waiting left) = some levels := by
  rw [peel_eq_some_iff]
  constructor
  · rintro (⟨-, hnil⟩ | ⟨hready, rest, hrest, hcons⟩)
    · cases hnil
    · obtain ⟨rfl, rfl⟩ := List.cons.inj hcons
      exact ⟨hready, rfl, hrest⟩
  · rintro ⟨hready, rfl, hrest⟩
    exact .inr ⟨hready, levels, hrest, rfl⟩

/-- The level of an operation is the length of its longest chain. -/
theorem mem_level_iff (h : peel left = some levels) :
    (∃ level, levels[k]? = some level ∧ op ∈ level) ↔ LongestChain left k op := by
  induction levels generalizing left k with
  | nil =>
    obtain rfl := peel_eq_some_nil_iff.1 h
    have hnone : ¬ LongestChain [] k op := fun hchain => List.not_mem_nil hchain.1.mem
    simp [hnone]
  | cons level rest ih =>
    obtain ⟨-, rfl, hrest⟩ := peel_eq_some_cons_iff.1 h
    cases k with
    | zero => simp [longestChain_zero_iff]
    | succ k =>
      rw [longestChain_succ_iff, ← ih hrest]
      rfl

/-- The levels hold what was to be planned. -/
theorem perm_flatten (h : peel left = some levels) : levels.flatten.Perm left := by
  induction levels generalizing left with
  | nil =>
    obtain rfl := peel_eq_some_nil_iff.1 h
    exact .nil
  | cons level rest ih =>
    obtain ⟨-, rfl, hrest⟩ := peel_eq_some_cons_iff.1 h
    have hsplit : (ready left ++ waiting left).Perm left := List.filter_append_perm ..
    exact ((List.mergeSort_perm ..).append (ih hrest)).trans hsplit

/-- A level is a nonempty part of what was to be planned, in sorted order. -/
theorem exists_sorted_of_mem (h : peel left = some levels) (hlevel : level ∈ levels) :
    ∃ part, part ≠ [] ∧ part.Sublist left ∧ level = part.mergeSort sortsBefore := by
  induction levels generalizing left with
  | nil => exact absurd hlevel List.not_mem_nil
  | cons first rest ih =>
    obtain ⟨hready, rfl, hrest⟩ := peel_eq_some_cons_iff.1 h
    rcases List.mem_cons.1 hlevel with rfl | hlevel
    · exact ⟨ready left, hready, List.filter_sublist, rfl⟩
    · obtain ⟨part, hpart, hsub, rfl⟩ := ih hrest hlevel
      exact ⟨part, hpart, hsub.trans List.filter_sublist, rfl⟩

theorem level_ne_nil (h : peel left = some levels) (hlevel : level ∈ levels) : level ≠ [] := by
  obtain ⟨part, hpart, -, rfl⟩ := exists_sorted_of_mem h hlevel
  intro hnil
  have hlength := congrArg List.length hnil
  rw [List.length_mergeSort] at hlength
  exact hpart (List.length_eq_zero_iff.1 hlength)

theorem pairwise_sortsBefore_mergeSort (ops : List PlannedOperation) :
    (ops.mergeSort sortsBefore).Pairwise fun a b => sortsBefore a b :=
  List.pairwise_mergeSort PlannedOperation.sortsBefore_trans PlannedOperation.sortsBefore_total ops

/-- Sorting operations with distinct names puts them in strict order. -/
theorem pairwise_precedes_mergeSort (h : (ops.map (·.name)).Nodup) :
    (ops.mergeSort sortsBefore).Pairwise Precedes := by
  have hnodup : ((ops.mergeSort sortsBefore).map (·.name)).Nodup :=
    ((List.mergeSort_perm ..).map _).nodup_iff.2 h
  exact (pairwise_sortsBefore_mergeSort ops).imp₂
    (fun a b => PlannedOperation.precedes_of_sortsBefore) (List.pairwise_map.1 hnodup)

/-- Sorting does not look at the order before. -/
theorem mergeSort_eq_of_perm (hperm : left.Perm ops) (h : (left.map (·.name)).Nodup) :
    left.mergeSort sortsBefore = ops.mergeSort sortsBefore := by
  refine List.Perm.eq_of_pairwise (fun a b ha hb hab hba => ?_)
    (pairwise_sortsBefore_mergeSort left) (pairwise_sortsBefore_mergeSort ops)
    (((List.mergeSort_perm ..).trans hperm).trans (List.mergeSort_perm ..).symm)
  have hmem : b ∈ left := hperm.mem_iff.2 (List.mem_mergeSort.1 hb)
  exact List.inj_on_of_nodup_map h (List.mem_mergeSort.1 ha) hmem
    (PlannedOperation.name_eq_of_sortsBefore hab hba)

/-- Nor does planning. -/
theorem peel_eq_some_of_perm (hperm : left.Perm ops) (hnodup : (left.map (·.name)).Nodup)
    (h : peel left = some levels) : peel ops = some levels := by
  induction levels generalizing left ops with
  | nil =>
    obtain rfl := peel_eq_some_nil_iff.1 h
    exact peel_eq_some_nil_iff.2 (List.nil_perm.1 hperm)
  | cons level rest ih =>
    obtain ⟨hready, rfl, hrest⟩ := peel_eq_some_cons_iff.1 h
    have hsame : isReady left = isReady ops := by
      funext o
      rw [Bool.eq_iff_iff, isReady_iff, isReady_iff]
      simp only [hperm.mem_iff]
    have hreadyPerm : (ready left).Perm (ready ops) := by
      rw [ready, ready, hsame]
      exact hperm.filter _
    have hwaitingPerm : (waiting left).Perm (waiting ops) := by
      rw [waiting, waiting, hsame]
      exact hperm.filter _
    have hsub : ∀ p, ((left.filter p).map (·.name)).Nodup := fun p =>
      hnodup.sublist (List.filter_sublist.map _)
    refine peel_eq_some_cons_iff.2 ⟨fun hnil => ?_, ?_, ih hwaitingPerm (hsub _) hrest⟩
    · rw [hnil] at hreadyPerm
      exact hready (List.perm_nil.1 hreadyPerm)
    · exact mergeSort_eq_of_perm hreadyPerm (hsub _)

/-- Peeling fails on a part of what was to be planned in which nothing is ready. -/
theorem exists_stuck_of_peel_eq_none (h : peel left = none) :
    ∃ stuck, stuck ≠ [] ∧ ready stuck = [] ∧ stuck.Sublist left := by
  induction left using peel.induct with
  | case1 left hempty =>
    rw [peel, if_pos hempty] at h
    cases h
  | case2 left hleft hready => exact ⟨left, by simpa using hleft, hready, .refl left⟩
  | case3 left hleft hready _ ih =>
    rw [peel, if_neg hleft, dif_neg hready, Option.map_eq_none_iff] at h
    obtain ⟨stuck, hne, hstuck, hsub⟩ := ih h
    exact ⟨stuck, hne, hstuck, hsub.trans List.filter_sublist⟩

end Plan

end ResourceGraph
