import Mathlib.Order.Nat
import ResourceGraph.Proofs.Service.FanOut

/-!
# Where a literal stands among the parameters

A literal goes to the objects that are there when it is taken in. After a selector those are as many
as can be complete, so it may stand anywhere behind the first selector. In front of all selectors
there is one object, and of the complete objects only the first is left. Where keys are distinct
nothing else depends on the places of the literals.
-/
namespace ResourceGraph.Parameter

def isSelector (p : Parameter) : Bool :=
  match p.source with
  | .selector _ => true
  | .value _ => false

/-- The same parameters with the literals in other places: the selectors keep their order. -/
structure Rearranges (parameters others : List Parameter) : Prop where
  perm : parameters.Perm others
  selectors : parameters.filter isSelector = others.filter isSelector

def LeadsWithLiteral (parameters : List Parameter) : Prop :=
  ∃ key v rest, parameters = ⟨key, .value v⟩ :: rest

/-- The objects are the same, up to the order of the fields in each. -/
def SameObjects (objects others : List Fields) : Prop := List.Forall₂ List.Perm objects others

namespace Supply

def LeadsWithLiteral (supplies : List Supply) : Prop :=
  ∃ key v rest, supplies = ⟨key, .all v⟩ :: rest

/-- Every selector has a value for position `i`. -/
def Available (supplies : List Supply) (i : Nat) : Prop :=
  supplies ≠ [] ∧ ∀ key values, ⟨key, .each values⟩ ∈ supplies → i < values.length

variable {supplies others : List Supply} {partials objects objects' : List Fields}
  {s : Supply} {i : Nat}

/-! ## Which positions are complete -/

theorem Aligned.lt_length_iff (h : Aligned supplies partials objects) :
    i < objects.length ↔ supplies ≠ [] ∧ ∀ s ∈ supplies, Reached supplies s.key i := by
  obtain ⟨m, hm, htake, hkept⟩ := h.survivors
  have hfilled : Filled supplies partials := h.made ▸ filled_gather supplies
  have hlength : objects.length = m := by
    rw [htake, List.length_take, Nat.min_eq_left hm]
  rw [hlength]
  constructor
  · intro hi
    have hlt : i < partials.length := Nat.lt_of_lt_of_le hi hm
    refine ⟨?_, fun s hs => (hfilled.mem_keys_iff hlt).1 ((hkept i hlt).2 hi s hs)⟩
    rintro rfl
    rw [h.made] at hlt
    exact Nat.not_lt_zero i hlt
  · intro hreached
    obtain ⟨hne, hall⟩ := hreached
    obtain ⟨s, hs⟩ := List.exists_mem_of_ne_nil supplies hne
    have hlt : i < partials.length := by
      rw [hfilled.count]
      exact (hall s hs).lt_extent
    exact (hkept i hlt).1 fun t ht => (hfilled.mem_keys_iff hlt).2 (hall t ht)

/-- What comes in front of a supply with values for a position has made an object for it. -/
theorem lt_extent_of_mem {values : List Json} {key : String} {before : List Supply}
    (hmem : ⟨key, .each values⟩ ∈ before) (hi : i < values.length) : i < extent before := by
  obtain ⟨pre, post, rfl⟩ := List.append_of_mem hmem
  exact Reached.lt_extent ⟨pre, _, post, rfl, rfl, hi⟩

/-- With distinct keys all keys reach what every selector has a value for, but a literal in front
reaches the first position only. -/
theorem reached_all_iff (hkeys : (supplies.map (·.key)).Nodup) :
    (supplies ≠ [] ∧ ∀ s ∈ supplies, Reached supplies s.key i) ↔
      Available supplies i ∧ (LeadsWithLiteral supplies → i = 0) := by
  constructor
  · intro h
    obtain ⟨hne, hall⟩ := h
    refine ⟨⟨hne, fun key values hmem => ?_⟩, ?_⟩
    · obtain ⟨before, t, after, hsplit, hkey, hlt⟩ := hall _ hmem
      have ht : t ∈ supplies := by simp [hsplit]
      obtain rfl := List.inj_on_of_nodup_map hkeys ht hmem hkey
      exact hlt
    · rintro ⟨key, v, rest, rfl⟩
      obtain ⟨before, t, after, hsplit, hkey, hlt⟩ := hall ⟨key, .all v⟩ List.mem_cons_self
      cases before with
      | nil =>
        obtain ⟨rfl, -⟩ := List.cons.inj hsplit
        have hone : i < max 0 1 := hlt
        omega
      | cons b before =>
        -- the key would stand twice
        obtain ⟨rfl, hrest⟩ := List.cons.inj hsplit
        have hnot : key ∉ rest.map (·.key) := (List.nodup_cons.1 hkeys).1
        exact absurd (List.mem_map.2 ⟨t, by simp [hrest], hkey⟩) hnot
  · intro h
    obtain ⟨⟨hne, havailable⟩, hlead⟩ := h
    refine ⟨hne, fun s hs => ?_⟩
    obtain ⟨before, after, hsplit⟩ := List.append_of_mem hs
    refine ⟨before, s, after, hsplit, rfl, ?_⟩
    obtain ⟨key, offer⟩ := s
    cases offer with
    | each values => exact havailable key values hs
    | all v =>
      cases before with
      | nil =>
        obtain rfl := hlead ⟨key, v, after, hsplit⟩
        exact Nat.lt_of_lt_of_le Nat.zero_lt_one (Nat.le_max_right ..)
      | cons b before =>
        obtain ⟨first, offer⟩ := b
        cases offer with
        | each values =>
          have hlt : i < values.length := havailable first values (by simp [hsplit])
          have hmade : i < extent (⟨first, .each values⟩ :: before) :=
            lt_extent_of_mem List.mem_cons_self hlt
          exact Nat.lt_of_lt_of_le hmade (Nat.le_max_left ..)
        | all w =>
          obtain rfl := hlead ⟨first, w, _, hsplit⟩
          exact Nat.lt_of_lt_of_le Nat.zero_lt_one (Nat.le_max_right ..)

theorem Aligned.lt_length_iff_available (h : Aligned supplies partials objects)
    (hkeys : (supplies.map (·.key)).Nodup) :
    i < objects.length ↔ Available supplies i ∧ (LeadsWithLiteral supplies → i = 0) := by
  rw [h.lt_length_iff, reached_all_iff hkeys]

/-! ## What a complete object holds -/

/-- With distinct keys a complete object holds what each supply has for its position. -/
theorem Aligned.get?_eq_some_iff (h : Aligned supplies partials objects)
    (hkeys : (supplies.map (·.key)).Nodup) {object : Fields} (hi : objects[i]? = some object)
    {k : String} {v : Json} :
    object.get? k = some v ↔ ∃ s ∈ supplies, s.key = k ∧ s.offer.value? i = some v := by
  have hgiven : ∀ w, object.get? k = some w →
      ∃ s ∈ supplies, s.key = k ∧ s.offer.value? i = some w := by
    intro w hw
    obtain ⟨before, s, after, hsplit, hgives, -⟩ := (h.values i object hi k w).1 hw
    exact ⟨s, by simp [hsplit], hgives.1, hgives.2.2⟩
  refine ⟨hgiven v, fun hs => ?_⟩
  obtain ⟨s, hs, hkey, hv⟩ := hs
  have hmem : k ∈ object.keys :=
    ((h.keys object (List.mem_of_getElem? hi)).2 k).2 (List.mem_map.2 ⟨s, hs, hkey⟩)
  obtain ⟨w, hw⟩ := Fields.mem_keys_iff.1 hmem
  obtain ⟨t, ht, htkey, htw⟩ := hgiven w hw
  obtain rfl := List.inj_on_of_nodup_map hkeys ht hs (htkey.trans hkey.symm)
  rw [hw, ← htw, hv]

/-- Reordered supplies with distinct keys give an object the same fields. -/
theorem Aligned.perm_of_perm (h : Aligned supplies partials objects) {partials' : List Fields}
    (h' : Aligned others partials' objects') (hkeys : (supplies.map (·.key)).Nodup)
    (hperm : supplies.Perm others) {x y : Fields} (hx : objects[i]? = some x)
    (hy : objects'[i]? = some y) : x.Perm y := by
  have hkeys' : (others.map (·.key)).Nodup := (hperm.map _).nodup_iff.1 hkeys
  refine Fields.perm_of_get?_eq (h.keys x (List.mem_of_getElem? hx)).1
    (h'.keys y (List.mem_of_getElem? hy)).1 fun k => Option.ext fun v => ?_
  rw [h.get?_eq_some_iff hkeys hx, h'.get?_eq_some_iff hkeys' hy]
  simp only [hperm.mem_iff]

theorem available_perm (hperm : supplies.Perm others) :
    Available supplies i ↔ Available others i := by
  simp only [Available, hperm.mem_iff, ne_eq, ← List.length_eq_zero_iff, hperm.length_eq]

end Supply

/-! ## Resolution in another order -/

variable {source : Source} {scope : Scope} {parameters others : List Parameter}

theorem leadsWithLiteral_map_supply :
    Supply.LeadsWithLiteral (parameters.map (supply source scope)) ↔
      LeadsWithLiteral parameters := by
  cases parameters with
  | nil => simp [Supply.LeadsWithLiteral, LeadsWithLiteral]
  | cons p parameters =>
    obtain ⟨key, origin⟩ := p
    cases origin with
    | selector s => simp [Supply.LeadsWithLiteral, LeadsWithLiteral, supply]
    | value v => simp [Supply.LeadsWithLiteral, LeadsWithLiteral, supply]

theorem map_key_supply :
    (parameters.map (supply source scope)).map (·.key) = parameters.map (·.key) := by
  simp [supply]

/-- Only selectors fail. -/
theorem findSome?_fault?_filter :
    (parameters.filter isSelector).findSome? (fault? source scope) =
      parameters.findSome? (fault? source scope) := by
  induction parameters with
  | nil => rfl
  | cons p parameters ih =>
    obtain ⟨key, origin⟩ := p
    cases origin with
    | selector s =>
      rw [List.filter_cons_of_pos rfl, List.findSome?_cons, List.findSome?_cons, ih]
    | value v =>
      rw [List.filter_cons_of_neg (by simp [isSelector]), List.findSome?_cons, ih]
      rfl

theorem Rearranges.resolve_eq_error_iff (h : Rearranges parameters others) {fault : EvalError} :
    resolve source scope parameters = .error fault ↔
      resolve source scope others = .error fault := by
  rw [← findSome?_fault?_eq_some_iff, ← findSome?_fault?_eq_some_iff,
    ← findSome?_fault?_filter, h.selectors, findSome?_fault?_filter]

/-- Lists that agree wherever both have an object are the same if they are equally long. -/
theorem sameObjects_iff_length_eq {xs ys : List Fields}
    (h : ∀ (i : Nat) (x y : Fields), xs[i]? = some x → ys[i]? = some y → x.Perm y) :
    SameObjects xs ys ↔ xs.length = ys.length := by
  refine ⟨List.Forall₂.length_eq, fun hlength => ?_⟩
  refine List.forall₂_iff_get.2 ⟨hlength, fun i hx hy => ?_⟩
  exact h i _ _ (List.getElem?_eq_getElem hx) (List.getElem?_eq_getElem hy)

/-- Of the same positions one list may have all, or only the first under a condition. -/
theorem length_eq_iff_of_lt_iff {P : Nat → Prop} {a b : Prop} {m n : Nat}
    (hm : ∀ i, i < m ↔ P i ∧ (a → i = 0)) (hn : ∀ i, i < n ↔ P i ∧ (b → i = 0)) :
    m = n ↔ (a ↔ b) ∨ m ≤ 1 ∧ n ≤ 1 := by
  have hle : ∀ {k : Nat} {c : Prop}, (∀ i, i < k ↔ P i ∧ (c → i = 0)) → c → k ≤ 1 := by
    intro k c hk hc
    by_contra hlt
    exact absurd (((hk 1).1 (Nat.lt_of_not_le hlt)).2 hc) Nat.one_ne_zero
  constructor
  · rintro rfl
    by_cases ha : a
    · exact .inr ⟨hle hm ha, hle hm ha⟩
    · by_cases hb : b
      · exact .inr ⟨hle hn hb, hle hn hb⟩
      · exact .inl (iff_of_false ha hb)
  · rintro (hab | ⟨hm1, hn1⟩)
    · refine eq_of_forall_lt_iff fun i => ?_
      rw [hm, hn, hab]
    · have hzero : 0 < m ↔ 0 < n := by
        rw [hm, hn]
        simp
      omega

/-- With distinct keys, the places of the literals matter in one way only: if a literal stands in
front of all selectors, then only the first of the complete objects is left. -/
theorem resolve_rearranged (hkeys : (parameters.map (·.key)).Nodup)
    (h : Rearranges parameters others) :
    (∀ fault, resolve source scope parameters = .error fault ↔
      resolve source scope others = .error fault) ∧
    ∀ xs ys, resolve source scope parameters = .ok xs → resolve source scope others = .ok ys →
      (SameObjects xs ys ↔ (LeadsWithLiteral parameters ↔ LeadsWithLiteral others) ∨
        xs.length ≤ 1 ∧ ys.length ≤ 1) ∧
      (LeadsWithLiteral others → ¬ LeadsWithLiteral parameters →
        SameObjects (xs.take 1) ys) := by
  refine ⟨fun fault => h.resolve_eq_error_iff, fun xs ys hxs hys => ?_⟩
  have hx := aligned_of_resolve_eq_ok hxs
  have hy := aligned_of_resolve_eq_ok hys
  have hperm := h.perm.map (supply source scope)
  have hxkeys : ((parameters.map (supply source scope)).map (·.key)).Nodup := by
    rwa [map_key_supply]
  have hykeys : ((others.map (supply source scope)).map (·.key)).Nodup := by
    rw [map_key_supply]
    exact (h.perm.map _).nodup_iff.1 hkeys
  have hagree : ∀ (i : Nat) (x y : Fields), xs[i]? = some x → ys[i]? = some y → x.Perm y :=
    fun i x y => hx.perm_of_perm hy hxkeys hperm
  have hltx : ∀ i, i < xs.length ↔ Supply.Available (parameters.map (supply source scope)) i ∧
      (LeadsWithLiteral parameters → i = 0) := fun i => by
    rw [hx.lt_length_iff_available hxkeys, leadsWithLiteral_map_supply]
  have hlty : ∀ i, i < ys.length ↔ Supply.Available (parameters.map (supply source scope)) i ∧
      (LeadsWithLiteral others → i = 0) := fun i => by
    rw [hy.lt_length_iff_available hykeys, leadsWithLiteral_map_supply,
      Supply.available_perm hperm]
  refine ⟨?_, fun hlead hfree => ?_⟩
  · rw [sameObjects_iff_length_eq hagree]
    exact length_eq_iff_of_lt_iff hltx hlty
  · refine (sameObjects_iff_length_eq fun i x y hx hy => ?_).2 ?_
    · rw [List.getElem?_take] at hx
      exact hagree i x y (Option.ite_none_right_eq_some.1 hx).2 hy
    · refine eq_of_forall_lt_iff fun i => ?_
      rw [List.length_take, Nat.lt_min, hltx, hlty]
      simp only [hfree, hlead, false_implies, true_implies, and_true, Nat.lt_one_iff]
      exact and_comm

/-! ## A literal in front -/

/-- Three names and two kinds, with the literal after the names. -/
def literalWithin : List Parameter := [
  ⟨"name", .selector (resultsOf "Names")⟩, ⟨"full", .value (.bool true)⟩,
  ⟨"kind", .selector (resultsOf "Kinds")⟩]

/-- The same with the literal in front. -/
def literalInFront : List Parameter := [
  ⟨"full", .value (.bool true)⟩, ⟨"name", .selector (resultsOf "Names")⟩,
  ⟨"kind", .selector (resultsOf "Kinds")⟩]

theorem rearranges_literalInFront : Rearranges literalWithin literalInFront where
  perm := List.Perm.swap ..
  selectors := rfl

theorem resolve_literalWithin :
    resolve catalogued (.place "1" "eu") literalWithin = .ok
      [[("name", .str "a"), ("full", .bool true), ("kind", .str "x")],
        [("name", .str "b"), ("full", .bool true), ("kind", .str "y")]] := by
  rfl

theorem resolve_literalInFront :
    resolve catalogued (.place "1" "eu") literalInFront = .ok
      [[("full", .bool true), ("name", .str "a"), ("kind", .str "x")]] := by
  rfl

theorem literalInFront_keeps_first :
    (literalWithin.map (·.key)).Nodup ∧ Rearranges literalWithin literalInFront ∧
      LeadsWithLiteral literalInFront ∧ ¬ LeadsWithLiteral literalWithin ∧
      SameObjects [[("name", .str "a"), ("full", .bool true), ("kind", .str "x")]]
        [[("full", .bool true), ("name", .str "a"), ("kind", .str "x")]] := by
  have hkeys : (literalWithin.map (·.key)).Nodup := by decide
  have hfront : LeadsWithLiteral literalInFront := ⟨_, _, _, rfl⟩
  have hwithin : ¬ LeadsWithLiteral literalWithin := by
    rintro ⟨key, v, rest, hcons⟩
    cases hcons
  refine ⟨hkeys, rearranges_literalInFront, hfront, hwithin, ?_⟩
  exact ((resolve_rearranged hkeys rearranges_literalInFront).2 _ _ resolve_literalWithin
    resolve_literalInFront).2 hfront hwithin

/-- Moving a literal to the front does not always leave the objects the same. -/
theorem literal_moved_to_front_drops_object :
    ¬ ∀ parameters others, (parameters.map (·.key)).Nodup → Rearranges parameters others →
      ∀ xs ys, resolve catalogued (.place "1" "eu") parameters = .ok xs →
        resolve catalogued (.place "1" "eu") others = .ok ys → SameObjects xs ys := by
  intro h
  have hsame := h literalWithin literalInFront (by decide) rearranges_literalInFront _ _
    resolve_literalWithin resolve_literalInFront
  exact absurd hsame.length_eq (by decide)

end ResourceGraph.Parameter
