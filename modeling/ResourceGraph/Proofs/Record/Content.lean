import Mathlib.Algebra.BigOperators.Group.List.Basic
import Mathlib.Algebra.GroupWithZero.Nat
import Mathlib.Data.List.Basic
import Mathlib.Data.List.Nodup
import Mathlib.Data.List.Perm.Basic
import ResourceGraph.Record.Source

/-!
# What a store holds

A write appends to the sequence under its key and leaves all others as they are. A store is told by
the sequences under its keys. Two stores may also be compared without the times on their records,
which depend on when a record was made.
-/
namespace ResourceGraph

namespace Ordered

variable {κ ν : Type} [LT κ] [DecidableEq κ] {key k : κ} {change : Option ν → ν}
  {entries others : List (κ × ν)}

theorem lookup_eq_none_of_lt [Std.Irrefl (· < · : κ → κ → Prop)]
    (h : ∀ e ∈ entries, key < e.1) : entries.lookup key = none := by
  rw [List.lookup_eq_none_iff]
  intro e he
  have hne : key ≠ e.1 := fun heq => Std.lt_irrefl (heq ▸ h e he)
  exact bne_iff_ne.2 hne

omit [LT κ] in
theorem lookup_map {μ : Type} (f : ν → μ) :
    (entries.map fun e => (e.1, f e.2)).lookup key = (entries.lookup key).map f := by
  induction entries with
  | nil => rfl
  | cons entry rest ih =>
    obtain ⟨x, v⟩ := entry
    by_cases h : key = x
    · simp [h]
    · simp [List.lookup_cons, beq_false_of_ne h, ih]

variable [DecidableLT κ]

/-- A change under one key is not seen under the others. -/
theorem lookup_adjust [Std.Irrefl (· < · : κ → κ → Prop)]
    [Trans (· < · : κ → κ → Prop) (· < ·) (· < ·)] (h : Ascending (entries.map (·.1))) :
    (adjust key change entries).lookup k =
      if k = key then some (change (entries.lookup key)) else entries.lookup k := by
  induction entries with
  | nil =>
    by_cases hk : k = key
    · simp [adjust, hk]
    · simp [adjust, List.lookup_cons, hk, beq_false_of_ne hk]
  | cons entry rest ih =>
    obtain ⟨x, v⟩ := entry
    unfold adjust
    split
    · next hx =>
      subst hx
      by_cases hk : k = key
      · simp [hk]
      · simp [List.lookup_cons, hk, beq_false_of_ne hk]
    · next hx =>
      split
      · next hlt =>
        -- the key comes before all others, so it was not there
        have hnone : ((x, v) :: rest).lookup key = none := lookup_eq_none_of_lt fun e he =>
          List.rel_of_pairwise_cons (h.cons_of_lt hlt) (List.mem_map_of_mem he)
        by_cases hk : k = key
        · simp [hk, hnone]
        · rw [List.lookup_cons, beq_false_of_ne hk, if_neg hk]
      · rw [List.lookup_cons, List.lookup_cons, ih h.tail]
        by_cases hk : k = x
        · simp [hk, Ne.symm hx]
        · simp [beq_false_of_ne hk, List.lookup_cons, beq_false_of_ne hx]

omit [LT κ] [DecidableLT κ] in
theorem lookup_of_mem {e : κ × ν} (h : (entries.map (·.1)).Nodup) (he : e ∈ entries) :
    entries.lookup e.1 = some e.2 := by
  obtain ⟨before, after, rfl⟩ := List.append_of_mem he
  refine List.lookup_eq_some_iff.2 ⟨before, after, rfl, fun p hp => ?_⟩
  rw [List.map_append, List.map_cons] at h
  have hnot := (List.nodup_append.1 h).2.2 p.1 (List.mem_map_of_mem hp) e.1 List.mem_cons_self
  exact bne_iff_ne.2 (Ne.symm hnot)

omit [DecidableLT κ] in
/-- Entries in ascending order are told by what is found under each key. -/
theorem eq_of_lookup_eq [Std.Irrefl (· < · : κ → κ → Prop)]
    [Trans (· < · : κ → κ → Prop) (· < ·) (· < ·)] (h : Ascending (entries.map (·.1)))
    (hothers : Ascending (others.map (·.1))) (heq : ∀ k, entries.lookup k = others.lookup k) :
    entries = others := by
  have hmem : ∀ {xs : List (κ × ν)}, (xs.map (·.1)).Nodup → ∀ e, e ∈ xs ↔
      xs.lookup e.1 = some e.2 :=
    fun hxs e => ⟨lookup_of_mem hxs, mem_of_lookup⟩
  have hperm : entries.Perm others := by
    refine (List.perm_ext_iff_of_nodup h.nodup.of_map hothers.nodup.of_map).2 fun e => ?_
    rw [hmem h.nodup, hmem hothers.nodup, heq]
  refine List.Perm.eq_of_pairwise (fun a b _ _ hab hba => ?_) (List.pairwise_map.1 h)
    (List.pairwise_map.1 hothers) hperm
  exact absurd (Std.lt_trans hab hba) Std.lt_irrefl

/-- A change that makes a value heavier by so much makes all of them together heavier by as much. -/
theorem sum_adjust {weight : ν → Nat} {n : Nat}
    (hchange : ∀ before, weight (change before) = before.elim 0 weight + n) :
    ((adjust key change entries).map fun e => weight e.2).sum =
      (entries.map fun e => weight e.2).sum + n := by
  induction entries with
  | nil => simp [adjust, hchange]
  | cons entry rest ih =>
    obtain ⟨x, v⟩ := entry
    unfold adjust
    split
    · simp only [List.map_cons, List.sum_cons, hchange, Option.elim_some]
      omega
    · split
      · simp only [List.map_cons, List.sum_cons, hchange, Option.elim_none]
        omega
      · simp only [List.map_cons, List.sum_cons, ih]
        omega

end Ordered

/-! ## Reading and writing -/

namespace Store

variable {s other : Store} {key k : Key} {records : List Record}

/-- The records under a key. -/
def read (s : Store) (key : Key) : List Record :=
  s.readScoped key.account key.region key.service key.operation

theorem read_eq_lookup : s.read key = (s.entries.lookup key).getD [] := rfl

/-- A write is seen under its own key. -/
theorem read_write :
    (s.write key records).read k = s.read k ++ if k = key then records else [] := by
  unfold write
  split
  · next h =>
    subst h
    simp
  · rw [read_eq_lookup, read_eq_lookup, Ordered.lookup_adjust s.ascending]
    by_cases hk : k = key
    · simp [hk]
    · simp [hk]

theorem recordCount_write :
    (s.write key records).recordCount = s.recordCount + records.length := by
  unfold write
  split
  · next h =>
    subst h
    simp
  · rw [recordCount, recordCount, List.length_flatMap, List.length_flatMap]
    refine Ordered.sum_adjust fun before => ?_
    cases before with
    | none => simp
    | some before => simp

/-- No entry is empty, so that a key without records is not there. -/
theorem lookup_eq_of_getD_eq {entries others : List (Key × List Record)}
    (h : ∀ e ∈ entries, e.2 ≠ []) (hothers : ∀ e ∈ others, e.2 ≠ [])
    (heq : (entries.lookup key).getD [] = (others.lookup key).getD []) :
    entries.lookup key = others.lookup key := by
  cases he : entries.lookup key with
  | none =>
    cases ho : others.lookup key with
    | none => rfl
    | some found =>
      rw [he, ho] at heq
      exact absurd heq.symm (hothers _ (Ordered.mem_of_lookup ho))
  | some found =>
    rw [he] at heq
    cases ho : others.lookup key with
    | none =>
      rw [ho] at heq
      exact absurd heq (h _ (Ordered.mem_of_lookup he))
    | some other =>
      rw [ho] at heq
      exact congrArg some heq

end Store

/-! ## The times on records -/

/-- A clock that stands still gives every record the same time. One that runs may give any. -/
inductive Clock where
  | still
  | running

namespace Clock

/-- The record as far as it does not depend on the clock. -/
def forget : Clock → Record → Record
  | .still, r => r
  | .running, r => { r with metadata := { r.metadata with timestamp := 0 } }

theorem map_forget_still (records : List Record) : records.map still.forget = records :=
  List.map_id records

end Clock

namespace Store

variable {s other : Store} {clock : Clock}

/-- The keys and their records as far as these do not depend on the clock. -/
def content (clock : Clock) (s : Store) : List (Key × List Record) :=
  s.entries.map fun e => (e.1, e.2.map clock.forget)

theorem getD_lookup_content {key : Key} :
    ((s.content clock).lookup key).getD [] = (s.read key).map clock.forget := by
  rw [content, Ordered.lookup_map, read_eq_lookup]
  cases s.entries.lookup key with
  | none => rfl
  | some records => rfl

/-- Stores have the same content if they have the same records under every key. -/
theorem content_eq_iff : s.content clock = other.content clock ↔
    ∀ key, (s.read key).map clock.forget = (other.read key).map clock.forget := by
  have hascending : ∀ t : Store, Ordered.Ascending ((t.content clock).map (·.1)) := by
    intro t
    rw [content, List.map_map]
    exact t.ascending
  have hwritten : ∀ t : Store, ∀ e ∈ t.content clock, e.2 ≠ [] := by
    intro t e he hnil
    obtain ⟨entry, hentry, rfl⟩ := List.mem_map.1 he
    exact t.written entry hentry (List.map_eq_nil_iff.1 hnil)
  constructor
  · intro h key
    rw [← getD_lookup_content, ← getD_lookup_content, h]
  · intro h
    refine Ordered.eq_of_lookup_eq (hascending s) (hascending other) fun key => ?_
    refine lookup_eq_of_getD_eq (hwritten s) (hwritten other) ?_
    rw [getD_lookup_content, getD_lookup_content, h]

end Store

end ResourceGraph
