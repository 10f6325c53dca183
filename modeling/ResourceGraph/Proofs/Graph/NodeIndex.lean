import Mathlib.Data.Finset.Card
import Mathlib.Data.Finset.Lattice.Lemmas
import ResourceGraph.Proofs.Graph.RoleEdges

/-!
# An index is the set of what was added

An index is built by insertions, and by merges of indexes that were built in the same way. It then
holds the pairs of a service and an id that were added at any point, and it is the same index
however they were added: their order, their repetitions and the nesting of the merges do not show.
No insertion and no merge leaves a service without ids, so the services it lists are those that have
one.
-/
namespace ResourceGraph

namespace Ordered

variable {κ : Type} [LT κ] {keys others : List κ}

/-- Elements in ascending order are told by which they are. -/
theorem Ascending.eq_of_mem_iff [Std.Irrefl (· < · : κ → κ → Prop)]
    [Trans (· < · : κ → κ → Prop) (· < ·) (· < ·)] (h : Ascending keys) (hothers : Ascending others)
    (heq : ∀ k, k ∈ keys ↔ k ∈ others) : keys = others := by
  have hperm : keys.Perm others := (List.perm_ext_iff_of_nodup h.nodup hothers.nodup).2 heq
  apply hperm.eq_of_pairwise ?_ h hothers
  intro a b _ _ hab hba
  exact absurd (Std.lt_trans hab hba) Std.lt_irrefl

end Ordered

namespace NodeIndex

variable {index other : NodeIndex} {service key id x : String} {ids : List String}
  {entries : List (String × List String)} {held more : Finset (String × String)}

/-! ## Ids and their services -/

theorem mem_idsOf_iff :
    id ∈ index.idsOf service ↔ ∃ e ∈ index.entries, e.1 = service ∧ id ∈ e.2 := by
  have hids : index.ids? service = index.entries.lookup service := rfl
  constructor
  · intro h
    cases hlookup : index.entries.lookup service with
    | none =>
      rw [idsOf, hids, hlookup] at h
      exact absurd h List.not_mem_nil
    | some ids =>
      rw [idsOf, hids, hlookup] at h
      exact ⟨_, Ordered.mem_of_lookup hlookup, rfl, h⟩
  · rintro ⟨e, he, rfl, h⟩
    rw [idsOf, hids, Ordered.lookup_of_mem index.ascending.nodup he]
    exact h

theorem contains_iff : index.contains service id = true ↔ id ∈ index.idsOf service := by
  rw [contains, idsOf]
  cases index.ids? service with
  | none => simp
  | some ids => simp

/-- Every id with its service. -/
def pairs (index : NodeIndex) : List (String × String) :=
  index.entries.flatMap fun e => e.2.map (e.1, ·)

theorem length_pairs (index : NodeIndex) : index.pairs.length = index.size := by
  simp [pairs, size, List.length_flatMap]

theorem mem_pairs_iff : (service, id) ∈ index.pairs ↔ id ∈ index.idsOf service := by
  rw [mem_idsOf_iff]
  simp [pairs, and_comm]

theorem nodup_pairs (index : NodeIndex) : index.pairs.Nodup := by
  apply List.nodup_flatMap.2
  constructor
  · intro e he
    exact (index.idsAscending e he).nodup.map fun a b h => (Prod.mk.inj h).2
  · -- pairs of different services are different
    have hkeys : index.entries.Pairwise (·.1 ≠ ·.1) := List.pairwise_map.1 index.ascending.nodup
    apply hkeys.imp
    intro e e' hne p hp hp'
    obtain ⟨_, -, rfl⟩ := List.mem_map.1 hp
    obtain ⟨_, -, heq⟩ := List.mem_map.1 hp'
    exact hne (Prod.mk.inj heq).1.symm

theorem isEmpty_iff_size : index.isEmpty = true ↔ index.size = 0 := by
  rw [size, List.length_eq_zero_iff, List.flatMap_eq_nil_iff]
  simp [isEmpty]

/-! ## What each step adds -/

/-- The index holds these pairs and no others, and no service without ids. -/
structure Holds (index : NodeIndex) (held : Finset (String × String)) : Prop where
  mem_iff : ∀ service id, id ∈ index.idsOf service ↔ (service, id) ∈ held
  full : ∀ e ∈ index.entries, e.2 ≠ []

theorem holds_empty : empty.Holds ∅ where
  mem_iff _ _ := iff_of_false List.not_mem_nil (Finset.notMem_empty _)
  full := nofun

/-- Ids are added to a service only if there are any, so it does not stay without. -/
theorem full_insertAll (h : ∀ e ∈ index.entries, e.2 ≠ []) (hids : ids ≠ []) :
    ∀ e ∈ (index.insertAll service ids).entries, e.2 ≠ [] := by
  apply Ordered.forall_adjust (P := (· ≠ [])) _ h
  intro before _
  obtain ⟨id, hid⟩ := List.exists_mem_of_ne_nil ids hids
  exact List.ne_nil_of_mem (Ordered.mem_insertAll.2 (.inl hid))

theorem Holds.insertNew (h : index.Holds held) (service id : String) :
    (index.insertNew service id).2.Holds (held ∪ {(service, id)}) where
  mem_iff key x := by
    show x ∈ (index.insert service id).idsOf key ↔ _
    rw [mem_idsOf_insert, h.mem_iff, Finset.mem_union, Finset.mem_singleton, Prod.mk.injEq, or_comm]
  full := full_insertAll h.full (List.cons_ne_nil id [])

/-- One entry of the other index is merged after the other. -/
theorem mem_idsOf_foldl_insertAll :
    id ∈ (entries.foldl (fun index (service, ids) => index.insertAll service ids) index).idsOf key ↔
      id ∈ index.idsOf key ∨ ∃ e ∈ entries, e.1 = key ∧ id ∈ e.2 := by
  induction entries generalizing index with
  | nil => simp
  | cons e entries ih =>
    rw [List.foldl_cons, ih, mem_idsOf_insertAll, List.exists_mem_cons_iff, eq_comm (a := key)]
    tauto

theorem full_foldl_insertAll (h : ∀ e ∈ index.entries, e.2 ≠ [])
    (hentries : ∀ e ∈ entries, e.2 ≠ []) :
    ∀ e ∈ (entries.foldl (fun index (service, ids) => index.insertAll service ids) index).entries,
      e.2 ≠ [] := by
  induction entries generalizing index with
  | nil => exact h
  | cons e entries ih =>
    obtain ⟨he, hentries⟩ := List.forall_mem_cons.1 hentries
    exact ih (full_insertAll h he) hentries

theorem Holds.merge (h : index.Holds held) (hother : other.Holds more) :
    (index.merge other).Holds (held ∪ more) where
  mem_iff service id := by
    rw [NodeIndex.merge, mem_idsOf_foldl_insertAll, ← mem_idsOf_iff, h.mem_iff, hother.mem_iff,
      Finset.mem_union]
  full := full_foldl_insertAll h.full hother.full

/-! ## What an index answers -/

/-- The answers of an index that holds these pairs. -/
structure Answers (index : NodeIndex) (held : Finset (String × String)) : Prop where
  contains : ∀ service id, index.contains service id = true ↔ (service, id) ∈ held
  ids : ∀ service ids, index.ids? service = some ids ↔
    ids ≠ [] ∧ Ordered.Ascending ids ∧ ∀ id, id ∈ ids ↔ (service, id) ∈ held
  noIds : ∀ service, index.ids? service = none ↔ ∀ id, (service, id) ∉ held
  ascendingServices : Ordered.Ascending index.services
  services : ∀ service, service ∈ index.services ↔ ∃ id, (service, id) ∈ held
  size : index.size = held.card
  isEmpty : index.isEmpty = true ↔ index.size = 0
  isNew : ∀ service id, (index.insertNew service id).1 = true ↔ (service, id) ∉ held

theorem Holds.ids?_eq_some_iff (h : index.Holds held) :
    index.ids? service = some ids ↔
      ids ≠ [] ∧ Ordered.Ascending ids ∧ ∀ id, id ∈ ids ↔ (service, id) ∈ held := by
  have hmem := h.mem_iff service
  constructor
  · intro hids
    have he := Ordered.mem_of_lookup hids
    rw [idsOf, hids] at hmem
    exact ⟨h.full _ he, index.idsAscending _ he, hmem⟩
  · rintro ⟨hne, hascending, hids⟩
    obtain ⟨id, hid⟩ := List.exists_mem_of_ne_nil ids hne
    cases hfound : index.ids? service with
    | none =>
      rw [idsOf, hfound] at hmem
      exact absurd ((hmem id).2 ((hids id).1 hid)) List.not_mem_nil
    | some found =>
      rw [idsOf, hfound] at hmem
      have hfound := index.idsAscending _ (Ordered.mem_of_lookup hfound)
      exact congrArg some (hfound.eq_of_mem_iff hascending fun x => (hmem x).trans (hids x).symm)

theorem Holds.ids?_eq_none_iff (h : index.Holds held) :
    index.ids? service = none ↔ ∀ id, (service, id) ∉ held := by
  cases hids : index.ids? service with
  | none =>
    refine iff_of_true rfl fun id hid => ?_
    rw [← h.mem_iff, idsOf, hids] at hid
    exact absurd hid List.not_mem_nil
  | some ids =>
    obtain ⟨hne, -, hmem⟩ := h.ids?_eq_some_iff.1 hids
    obtain ⟨id, hid⟩ := List.exists_mem_of_ne_nil ids hne
    exact iff_of_false (Option.some_ne_none ids) fun hnone => hnone id ((hmem id).1 hid)

theorem Holds.mem_services_iff (h : index.Holds held) :
    service ∈ index.services ↔ ∃ id, (service, id) ∈ held := by
  simp only [← h.mem_iff, mem_idsOf_iff]
  constructor
  · intro hservice
    obtain ⟨e, he, rfl⟩ := List.mem_map.1 hservice
    obtain ⟨id, hid⟩ := List.exists_mem_of_ne_nil e.2 (h.full e he)
    exact ⟨id, e, he, rfl, hid⟩
  · rintro ⟨id, e, he, rfl, -⟩
    exact List.mem_map_of_mem he

theorem Holds.size_eq_card (h : index.Holds held) : index.size = held.card := by
  have hheld : index.pairs.toFinset = held := by
    ext ⟨service, id⟩
    rw [List.mem_toFinset, mem_pairs_iff, h.mem_iff]
  rw [← index.length_pairs, ← hheld, List.toFinset_card_of_nodup index.nodup_pairs]

theorem Holds.answers (h : index.Holds held) : index.Answers held where
  contains service id := contains_iff.trans (h.mem_iff service id)
  ids service ids := h.ids?_eq_some_iff
  noIds service := h.ids?_eq_none_iff
  ascendingServices := index.ascending
  services service := h.mem_services_iff
  size := h.size_eq_card
  isEmpty := isEmpty_iff_size
  isNew service id := by
    show (!index.contains service id) = true ↔ _
    rw [Bool.not_eq_true', ← Bool.not_eq_true, contains_iff, h.mem_iff]

/-- Indexes that hold the same pairs are the same. -/
theorem Holds.eq_iff (h : index.Holds held) (hother : other.Holds more) :
    index = other ↔ held = more := by
  constructor
  · rintro rfl
    ext ⟨service, id⟩
    rw [← h.mem_iff, hother.mem_iff]
  · rintro rfl
    have hentries : index.entries = other.entries := by
      apply Ordered.eq_of_lookup_eq index.ascending other.ascending
      intro service
      apply Option.ext
      intro ids
      exact h.ids?_eq_some_iff.trans hother.ids?_eq_some_iff.symm
    cases index
    cases other
    cases hentries
    rfl

/-! ## Insertions and merges in any order -/

/-- Insertions one after the other, and merges of what was built in the same way. -/
inductive Build where
  | empty
  | insert (before : Build) (service id : String)
  | merge (before other : Build)

namespace Build

/-- The index that is built. -/
def result : Build → NodeIndex
  | empty => .empty
  | insert before service id => (before.result.insertNew service id).2
  | merge before other => before.result.merge other.result

/-- The pairs of a service and an id that are added on the way. -/
def added : Build → Finset (String × String)
  | empty => ∅
  | insert before service id => before.added ∪ {(service, id)}
  | merge before other => before.added ∪ other.added

theorem holds_added (b : Build) : b.result.Holds b.added := by
  induction b with
  | empty => exact holds_empty
  | insert before service id ih => exact ih.insertNew service id
  | merge before other ih ihOther => exact ih.merge ihOther

theorem result_eq_iff {a b : Build} : a.result = b.result ↔ a.added = b.added :=
  a.holds_added.eq_iff b.holds_added

end Build

/-- An index that was built answers as the set of pairs that were added, and it is no more than
that set: it is another index exactly if other pairs were added. So merging is associative and
commutative, and merging an index with itself changes nothing. -/
theorem index_answers_added :
    (∀ b : Build, b.result.Answers b.added) ∧
    (∀ a b : Build, a.result = b.result ↔ a.added = b.added) ∧
    (∀ a b c : Build,
      (a.result.merge b.result).merge c.result = a.result.merge (b.result.merge c.result)) ∧
    (∀ a b : Build, a.result.merge b.result = b.result.merge a.result) ∧
    ∀ a : Build, a.result.merge a.result = a.result := by
  refine ⟨fun b => b.holds_added.answers, fun a b => Build.result_eq_iff, fun a b c => ?_,
    fun a b => ?_, fun a => ?_⟩
  · show ((a.merge b).merge c).result = (a.merge (b.merge c)).result
    exact Build.result_eq_iff.2 (Finset.union_assoc _ _ _)
  · show (a.merge b).result = (b.merge a).result
    exact Build.result_eq_iff.2 (Finset.union_comm _ _)
  · show (a.merge a).result = a.result
    exact Build.result_eq_iff.2 (Finset.union_self _)

end NodeIndex

end ResourceGraph
