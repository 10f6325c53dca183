import Mathlib.Data.List.Induction
import ResourceGraph.Proofs.Json.Fields
import ResourceGraph.Service.Parameter

/-!
# Fan-out of parameters

A selector reaches as many objects as it has values, a literal those that are there when it is taken
in, and one at least: each parameter reaches the objects before some position. So the complete
objects are those before some position as well, and each value in them is the one that the last
parameter of its key has for that position. A selector that fails makes the resolution fail, and
the first one that does is reported.
-/
namespace ResourceGraph.Parameter

/-! ## What a parameter supplies -/

/-- One value for each object from the first, or one for all objects there are. -/
inductive Offer where
  | each (values : List Json)
  | all (value : Json)

namespace Offer

/-- How many objects are reached where there are `n`. -/
def reach (n : Nat) : Offer → Nat
  | each values => values.length
  | all _ => max n 1

def value? (i : Nat) : Offer → Option Json
  | each values => values[i]?
  | all v => some v

/-- How many objects there are at least once the offer has been taken in. -/
def demand : Offer → Nat
  | each values => values.length
  | all _ => 1

theorem exists_value?_of_lt_reach {offer : Offer} {n i : Nat} (h : i < offer.reach n) :
    ∃ v, offer.value? i = some v := by
  cases offer with
  | each values => exact ⟨values[i], List.getElem?_eq_getElem h⟩
  | all v => exact ⟨v, rfl⟩

theorem reach_le_max {offer : Offer} {n : Nat} : offer.reach n ≤ max n offer.demand := by
  cases offer with
  | each values => exact Nat.le_max_right ..
  | all v => exact Nat.le_refl _

end Offer

structure Supply where
  key : String
  offer : Offer

/-- What the parameter supplies; nothing if it is a selector that fails. -/
def supply (source : Source) (scope : Scope) (p : Parameter) : Supply where
  key := p.key
  offer := match p.source with
    | .selector s => .each ((source.evaluate scope s).toOption.getD [])
    | .value v => .all v

/-- Why the parameter's selector fails. -/
def fault? (source : Source) (scope : Scope) (p : Parameter) : Option EvalError :=
  match p.source with
  | .selector s =>
    match source.evaluate scope s with
    | .ok _ => none
    | .error fault => some fault
  | .value _ => none

namespace Supply

/-- The objects with one more supply. -/
def addTo (objects : List Fields) (s : Supply) : List Fields :=
  match s.offer with
  | .each values => spread s.key values objects
  | .all v => broadcast s.key v objects

/-- The objects that the supplies make, one after the other. -/
def gather (supplies : List Supply) : List Fields := supplies.foldl addTo []

/-- How many objects the supplies make. -/
def extent (supplies : List Supply) : Nat := (gather supplies).length

/-- Taken in after others, the supply gives the object at position `i` this value under the key. -/
def Gives (before : List Supply) (s : Supply) (key : String) (i : Nat) (v : Json) : Prop :=
  s.key = key ∧ i < s.offer.reach (extent before) ∧ s.offer.value? i = some v

/-- The last supply that has the key and reaches position `i` gives it this value. -/
def LastGives (supplies : List Supply) (key : String) (i : Nat) (v : Json) : Prop :=
  ∃ before s after, supplies = before ++ s :: after ∧ Gives before s key i v ∧
    ∀ later t rest, after = later ++ t :: rest → ∀ w, ¬ Gives (before ++ s :: later) t key i w

/-- Some supply has the key and reaches position `i`. -/
def Reached (supplies : List Supply) (key : String) (i : Nat) : Prop :=
  ∃ before s after, supplies = before ++ s :: after ∧ s.key = key ∧
    i < s.offer.reach (extent before)

/-- The complete objects among the partial ones are those before some position. Each has exactly
the declared keys, and under a key what the last supply with the key that reaches its position has
for it. -/
structure Aligned (supplies : List Supply) (partials objects : List Fields) : Prop where
  made : partials = gather supplies
  survivors : ∃ m ≤ partials.length, objects = partials.take m ∧
    ∀ i (h : i < partials.length), (∀ s ∈ supplies, s.key ∈ partials[i].keys) ↔ i < m
  keys : ∀ object ∈ objects, object.keys.Nodup ∧
    ∀ k, k ∈ object.keys ↔ k ∈ supplies.map (·.key)
  values : ∀ i object, objects[i]? = some object →
    ∀ k v, object.get? k = some v ↔ LastGives supplies k i v

end Supply

/-! ## One more supply -/

section Step

variable {key : String} {values : List Json} {objects : List Fields} {i : Nat}

theorem length_spread :
    (spread key values objects).length = max objects.length values.length := by
  induction values generalizing objects with
  | nil => simp [spread]
  | cons v values ih =>
    cases objects with
    | nil => simp [spread, ih]
    | cons object objects =>
      simp only [spread, List.length_cons, ih]
      omega

/-- Below the number of values, each object takes in the value at its position. -/
theorem getElem?_spread :
    (spread key values objects)[i]? = match values[i]? with
      | some v => some ((objects[i]?.getD []).insert key v)
      | none => objects[i]? := by
  induction values generalizing objects i with
  | nil => simp [spread]
  | cons v values ih =>
    cases objects with
    | nil =>
      cases i with
      | zero => rfl
      | succ i =>
        rw [spread, List.getElem?_cons_succ, List.getElem?_cons_succ, ih]
        simp
    | cons object objects =>
      cases i with
      | zero => rfl
      | succ i =>
        rw [spread, List.getElem?_cons_succ, List.getElem?_cons_succ, ih]
        simp

theorem length_broadcast {v : Json} :
    (broadcast key v objects).length = max objects.length 1 := by
  cases objects with
  | nil => rfl
  | cons object objects => simp [broadcast]

theorem getElem?_broadcast {v : Json} (h : i < max objects.length 1) :
    (broadcast key v objects)[i]? = some ((objects[i]?.getD []).insert key v) := by
  cases objects with
  | nil =>
    obtain rfl : i = 0 := by simpa using h
    rfl
  | cons object objects =>
    have hlt : i < (object :: objects).length := by simpa using h
    rw [broadcast, List.getElem?_map, List.getElem?_eq_getElem hlt]
    · rfl
    · simp

namespace Supply

variable {s : Supply}

theorem length_addTo : (addTo objects s).length = max objects.length s.offer.demand := by
  unfold addTo
  cases s.offer with
  | each values => exact length_spread
  | all v => exact length_broadcast

/-- A position that is reached takes in the value. -/
theorem getElem?_addTo_of_lt {v : Json} (h : i < s.offer.reach objects.length)
    (hv : s.offer.value? i = some v) :
    (addTo objects s)[i]? = some ((objects[i]?.getD []).insert s.key v) := by
  unfold addTo
  cases hoffer : s.offer with
  | each values =>
    rw [hoffer] at hv
    have hvalue : values[i]? = some v := hv
    simp only [getElem?_spread, hvalue]
  | all w =>
    rw [hoffer] at h hv
    obtain rfl : w = v := Option.some.inj hv
    exact getElem?_broadcast h

/-- The others stay as they are. -/
theorem getElem?_addTo_of_le (h : s.offer.reach objects.length ≤ i) :
    (addTo objects s)[i]? = objects[i]? := by
  unfold addTo
  cases hoffer : s.offer with
  | each values =>
    rw [hoffer] at h
    have hvalue : values[i]? = none := List.getElem?_eq_none h
    simp only [getElem?_spread, hvalue]
  | all w =>
    rw [hoffer] at h
    have hle : max objects.length 1 ≤ i := h
    rw [List.getElem?_eq_none (by rw [length_broadcast]; exact hle),
      List.getElem?_eq_none (by omega)]

/-! ## The last supply of a key -/

variable {supplies : List Supply} {k : String} {v w : Json}

theorem gather_append_singleton : gather (supplies ++ [s]) = addTo (gather supplies) s :=
  List.foldl_append ..

theorem extent_append_singleton :
    extent (supplies ++ [s]) = max (extent supplies) s.offer.demand := by
  rw [extent, gather_append_singleton, length_addTo, extent]

theorem exists_gives_iff :
    (∃ v, Gives supplies s k i v) ↔ s.key = k ∧ i < s.offer.reach (extent supplies) := by
  constructor
  · intro h
    obtain ⟨v, hkey, hlt, -⟩ := h
    exact ⟨hkey, hlt⟩
  · intro h
    obtain ⟨hkey, hlt⟩ := h
    obtain ⟨v, hv⟩ := Offer.exists_value?_of_lt_reach hlt
    exact ⟨v, hkey, hlt, hv⟩

/-- A list that ends in `z` is split either at that `z` or before it. -/
theorem append_singleton_split {α : Type} {xs before after : List α} {x z : α}
    (h : xs ++ [z] = before ++ x :: after) :
    (after = [] ∧ before = xs ∧ x = z) ∨
      ∃ rest, after = rest ++ [z] ∧ xs = before ++ x :: rest := by
  rcases List.eq_nil_or_concat after with rfl | ⟨rest, y, rfl⟩
  · obtain ⟨rfl, hx⟩ := List.append_inj' h rfl
    exact .inl ⟨rfl, rfl, (List.singleton_inj.1 hx).symm⟩
  · have hsplit : xs ++ [z] = (before ++ x :: rest) ++ [y] := by simpa using h
    obtain ⟨rfl, hy⟩ := List.append_inj' hsplit rfl
    exact .inr ⟨rest, by rw [List.singleton_inj.1 hy, List.concat_eq_append], rfl⟩

theorem lastGives_append_of_gives (h : Gives supplies s k i w) :
    LastGives (supplies ++ [s]) k i v ↔ v = w := by
  constructor
  · intro hlast
    obtain ⟨before, t, after, hsplit, ht, hlater⟩ := hlast
    rcases append_singleton_split hsplit with ⟨-, rfl, rfl⟩ | ⟨rest, rfl, rfl⟩
    · exact Option.some.inj (ht.2.2.symm.trans h.2.2)
    · exact absurd h (hlater rest s [] rfl w)
  · rintro rfl
    exact ⟨supplies, s, [], rfl, h, by simp⟩

theorem lastGives_append_of_not_gives (h : ∀ w, ¬ Gives supplies s k i w) :
    LastGives (supplies ++ [s]) k i v ↔ LastGives supplies k i v := by
  constructor
  · intro hlast
    obtain ⟨before, t, after, hsplit, ht, hlater⟩ := hlast
    rcases append_singleton_split hsplit with ⟨-, rfl, rfl⟩ | ⟨rest, rfl, rfl⟩
    · exact absurd ht (h v)
    · refine ⟨before, t, rest, rfl, ht, fun later u rest' hrest => ?_⟩
      exact hlater later u (rest' ++ [s]) (by simp [hrest])
  · intro hlast
    obtain ⟨before, t, after, rfl, ht, hlater⟩ := hlast
    refine ⟨before, t, after ++ [s], by simp, ht, fun later u rest hrest => ?_⟩
    rcases append_singleton_split hrest with ⟨-, rfl, rfl⟩ | ⟨rest', -, hafter⟩
    · exact h
    · exact hlater later u rest' hafter

theorem reached_append_singleton :
    Reached (supplies ++ [s]) k i ↔ Reached supplies k i ∨ ∃ v, Gives supplies s k i v := by
  rw [exists_gives_iff]
  constructor
  · intro h
    obtain ⟨before, t, after, hsplit, ht⟩ := h
    rcases append_singleton_split hsplit with ⟨-, rfl, rfl⟩ | ⟨rest, rfl, rfl⟩
    · exact .inr ht
    · exact .inl ⟨before, t, rest, rfl, ht⟩
  · rintro (⟨before, t, after, rfl, ht⟩ | h)
    · exact ⟨before, t, after ++ [s], by simp, ht⟩
    · exact ⟨supplies, s, [], rfl, h⟩

/-- A key that reaches a position has a last supply there. -/
theorem exists_lastGives_iff : (∃ v, LastGives supplies k i v) ↔ Reached supplies k i := by
  induction supplies using List.reverseRecOn with
  | nil => simp [LastGives, Reached]
  | append_singleton supplies s ih =>
    rw [reached_append_singleton]
    by_cases h : ∃ w, Gives supplies s k i w
    · obtain ⟨w, hw⟩ := h
      simp only [lastGives_append_of_gives hw, exists_eq, true_iff]
      exact .inr ⟨w, hw⟩
    · rw [not_exists] at h
      simp only [lastGives_append_of_not_gives h, ih, h, exists_false, or_false]

/-- The positions that a key reaches are those before some position. -/
theorem Reached.of_le {j : Nat} (h : Reached supplies k i) (hji : j ≤ i) :
    Reached supplies k j := by
  obtain ⟨before, s, after, hsplit, hkey, hlt⟩ := h
  exact ⟨before, s, after, hsplit, hkey, Nat.lt_of_le_of_lt hji hlt⟩

/-! ## What all supplies make -/

/-- What holds of the objects after every supply. -/
structure Filled (supplies : List Supply) (objects : List Fields) : Prop where
  count : objects.length = extent supplies
  nodup : ∀ object ∈ objects, object.keys.Nodup
  values : ∀ i object, objects[i]? = some object →
    ∀ k v, object.get? k = some v ↔ LastGives supplies k i v

theorem Reached.lt_extent (h : Reached supplies k i) : i < extent supplies := by
  induction supplies using List.reverseRecOn with
  | nil => simp [Reached] at h
  | append_singleton supplies s ih =>
    rw [extent_append_singleton]
    rcases reached_append_singleton.1 h with h | h
    · exact Nat.lt_of_lt_of_le (ih h) (Nat.le_max_left ..)
    · exact Nat.lt_of_lt_of_le (exists_gives_iff.1 h).2 Offer.reach_le_max

/-- A position without an object is as one whose object has no field. -/
theorem Filled.get?_getD (h : Filled supplies objects) :
    (objects[i]?.getD []).get? k = some v ↔ LastGives supplies k i v := by
  by_cases hi : i < objects.length
  · rw [List.getElem?_eq_getElem hi]
    exact h.values i objects[i] (List.getElem?_eq_getElem hi) k v
  · have hnone : ¬ LastGives supplies k i v := by
      intro hlast
      have hlt : i < extent supplies := (exists_lastGives_iff.1 ⟨v, hlast⟩).lt_extent
      rw [← h.count] at hlt
      exact hi hlt
    rw [List.getElem?_eq_none (Nat.le_of_not_lt hi)]
    simp [hnone, Fields.get?]

theorem Filled.nodup_getD (h : Filled supplies objects) :
    Fields.keys (objects[i]?.getD []) |>.Nodup := by
  cases hobject : objects[i]? with
  | none => exact List.nodup_nil
  | some object => exact h.nodup object (List.mem_of_getElem? hobject)

theorem Filled.addTo (h : Filled supplies objects) :
    Filled (supplies ++ [s]) (addTo objects s) where
  count := by rw [length_addTo, extent_append_singleton, h.count]
  nodup := by
    intro object hobject
    obtain ⟨i, hi⟩ := List.mem_iff_getElem?.1 hobject
    by_cases hlt : i < s.offer.reach objects.length
    · obtain ⟨v, hv⟩ := Offer.exists_value?_of_lt_reach hlt
      rw [getElem?_addTo_of_lt hlt hv] at hi
      obtain rfl := Option.some.inj hi
      exact Fields.nodup_keys_insert h.nodup_getD
    · rw [getElem?_addTo_of_le (Nat.le_of_not_lt hlt)] at hi
      exact h.nodup object (List.mem_of_getElem? hi)
  values := by
    intro i object hi k v
    by_cases hlt : i < s.offer.reach objects.length
    · obtain ⟨w, hw⟩ := Offer.exists_value?_of_lt_reach hlt
      rw [getElem?_addTo_of_lt hlt hw] at hi
      obtain rfl := Option.some.inj hi
      rw [Fields.get?_insert]
      by_cases hk : k = s.key
      · have hgives : Gives supplies s k i w := ⟨hk.symm, h.count ▸ hlt, hw⟩
        rw [if_pos hk, lastGives_append_of_gives hgives, Option.some.injEq, eq_comm]
      · have hnot : ∀ u, ¬ Gives supplies s k i u := fun u hu => hk hu.1.symm
        rw [if_neg hk, lastGives_append_of_not_gives hnot, h.get?_getD]
    · have hnot : ∀ u, ¬ Gives supplies s k i u := fun u hu => hlt (h.count ▸ hu.2.1)
      rw [getElem?_addTo_of_le (Nat.le_of_not_lt hlt)] at hi
      rw [lastGives_append_of_not_gives hnot, h.values i object hi]

theorem filled_gather (supplies : List Supply) : Filled supplies (gather supplies) := by
  induction supplies using List.reverseRecOn with
  | nil => exact ⟨rfl, by simp [gather], by simp [gather]⟩
  | append_singleton supplies s ih =>
    rw [gather_append_singleton]
    exact ih.addTo

/-! ## The complete objects -/

/-- If an element is kept whenever a later one is, the kept ones are those before some position. -/
theorem exists_take_eq_filter {α : Type} {p : α → Bool} {xs : List α}
    (h : xs.Pairwise fun x y => p y → p x) :
    ∃ m ≤ xs.length, xs.filter p = xs.take m ∧ ∀ i (hi : i < xs.length), p xs[i] ↔ i < m := by
  induction xs with
  | nil => exact ⟨0, Nat.le_refl _, rfl, by simp⟩
  | cons x xs ih =>
    obtain ⟨hx, hxs⟩ := List.pairwise_cons.1 h
    by_cases hp : p x
    · obtain ⟨m, hm, hfilter, hkept⟩ := ih hxs
      refine ⟨m + 1, Nat.succ_le_succ hm, ?_, fun i hi => ?_⟩
      · rw [List.filter_cons_of_pos hp, hfilter, List.take_succ_cons]
      · cases i with
        | zero => simp [hp]
        | succ i => simpa using hkept i (Nat.lt_of_succ_lt_succ hi)
    · have hnone : ∀ y ∈ x :: xs, ¬ p y := by
        intro y hy
        rcases List.mem_cons.1 hy with rfl | hy
        · exact hp
        · exact fun hpy => hp (hx y hy hpy)
      refine ⟨0, Nat.zero_le _, List.filter_eq_nil_iff.2 hnone, fun i hi => ?_⟩
      exact iff_of_false (hnone _ (List.getElem_mem hi)) (Nat.not_lt_zero i)

theorem Filled.mem_keys_iff (h : Filled supplies objects) (hi : i < objects.length) :
    k ∈ objects[i].keys ↔ Reached supplies k i := by
  rw [Fields.mem_keys_iff, ← exists_lastGives_iff]
  exact exists_congr (h.values i objects[i] (List.getElem?_eq_getElem hi) k)

/-- Whether a supply has every key of the object. -/
def isComplete (supplies : List Supply) (object : Fields) : Bool :=
  supplies.all fun s => object.contains s.key

theorem isComplete_iff {object : Fields} :
    isComplete supplies object = true ↔ ∀ s ∈ supplies, s.key ∈ object.keys := by
  simp [isComplete, Fields.contains_iff]

theorem Filled.isComplete_iff (h : Filled supplies objects) (hi : i < objects.length) :
    isComplete supplies objects[i] = true ↔ ∀ s ∈ supplies, Reached supplies s.key i := by
  simp only [Supply.isComplete_iff, h.mem_keys_iff hi]

theorem aligned_gather (supplies : List Supply) :
    Aligned supplies (gather supplies) ((gather supplies).filter (isComplete supplies)) := by
  have hfilled : Filled supplies (gather supplies) := filled_gather supplies
  -- every key is there on the positions before some position, so all keys are
  have hprefix : (gather supplies).Pairwise fun x y =>
      isComplete supplies y → isComplete supplies x := by
    rw [List.pairwise_iff_getElem]
    intro i j hi hj hij hcomplete
    rw [hfilled.isComplete_iff hj] at hcomplete
    exact (hfilled.isComplete_iff hi).2 fun s hs => (hcomplete s hs).of_le (Nat.le_of_lt hij)
  obtain ⟨m, hm, hfilter, hkept⟩ := exists_take_eq_filter hprefix
  refine ⟨rfl, ⟨m, hm, hfilter, fun i hi => ?_⟩, fun object hobject => ?_, ?_⟩
  · rw [← isComplete_iff]
    exact hkept i hi
  · obtain ⟨hmem, hcomplete⟩ := List.mem_filter.1 hobject
    refine ⟨hfilled.nodup object hmem, fun k => ⟨fun hk => ?_, fun hk => ?_⟩⟩
    · obtain ⟨i, hi, rfl⟩ := List.mem_iff_getElem.1 hmem
      obtain ⟨before, s, after, hsplit, hkey, -⟩ := (hfilled.mem_keys_iff hi).1 hk
      exact List.mem_map.2 ⟨s, by simp [hsplit], hkey⟩
    · obtain ⟨s, hs, rfl⟩ := List.mem_map.1 hk
      exact isComplete_iff.1 hcomplete s hs
  · intro i object hobject
    rw [hfilter, List.getElem?_take] at hobject
    exact hfilled.values i object (Option.ite_none_right_eq_some.1 hobject).2

end Supply

end Step

/-! ## Resolution -/

variable {source : Source} {scope : Scope} {parameters : List Parameter}

theorem extend_eq (objects : List Fields) (p : Parameter) :
    extend source scope objects p = match p.fault? source scope with
      | some fault => .error fault
      | none => .ok (Supply.addTo objects (p.supply source scope)) := by
  obtain ⟨key, source'⟩ := p
  cases source' with
  | selector s =>
    cases h : source.evaluate scope s with
    | ok values => simp [extend, fault?, supply, Supply.addTo, h, Except.map, Except.toOption]
    | error fault => simp [extend, fault?, h, Except.map]
  | value v => rfl

theorem foldlM_extend (objects : List Fields) :
    parameters.foldlM (extend source scope) objects =
      match parameters.findSome? (fault? source scope) with
      | some fault => .error fault
      | none => .ok ((parameters.map (supply source scope)).foldl Supply.addTo objects) := by
  induction parameters generalizing objects with
  | nil => rfl
  | cons p parameters ih =>
    rw [List.foldlM_cons, extend_eq, List.findSome?_cons]
    cases p.fault? source scope with
    | some fault => rfl
    | none => exact ih _

theorem isComplete_map_supply (object : Fields) :
    isComplete parameters object =
      Supply.isComplete (parameters.map (supply source scope)) object := by
  rw [isComplete, Supply.isComplete, List.all_map]
  rfl

/-- A resolution fails with the first fault, and otherwise keeps the complete objects. -/
theorem resolve_eq :
    resolve source scope parameters =
      match parameters.findSome? (fault? source scope) with
      | some fault => .error fault
      | none => .ok ((Supply.gather (parameters.map (supply source scope))).filter
          (Supply.isComplete (parameters.map (supply source scope)))) := by
  rw [resolve, foldlM_extend]
  cases parameters.findSome? (fault? source scope) with
  | some fault => rfl
  | none =>
    simp only [Except.map]
    rw [Supply.gather]
    congr 1
    exact List.filter_congr fun object _ => isComplete_map_supply object

/-- The parameter is a literal, or a selector that gives values. -/
def Evaluates (source : Source) (scope : Scope) (p : Parameter) : Prop :=
  ∀ s, p.source = .selector s → ∃ values, source.evaluate scope s = .ok values

theorem fault?_eq_some_iff {p : Parameter} {fault : EvalError} :
    p.fault? source scope = some fault ↔
      ∃ s, p.source = .selector s ∧ source.evaluate scope s = .error fault := by
  obtain ⟨key, source'⟩ := p
  cases source' with
  | selector s =>
    cases h : source.evaluate scope s with
    | ok values => simp [fault?, h]
    | error e => simp [fault?, h]
  | value v => simp [fault?]

theorem fault?_eq_none_iff {p : Parameter} :
    p.fault? source scope = none ↔ p.Evaluates source scope := by
  obtain ⟨key, source'⟩ := p
  cases source' with
  | selector s =>
    cases h : source.evaluate scope s with
    | ok values => simp [fault?, Evaluates, h]
    | error e => simp [fault?, Evaluates, h]
  | value v => simp [fault?, Evaluates]

theorem findSome?_fault?_eq_some_iff {fault : EvalError} :
    parameters.findSome? (fault? source scope) = some fault ↔
      resolve source scope parameters = .error fault := by
  rw [resolve_eq]
  cases parameters.findSome? (fault? source scope) with
  | some e => simp
  | none => simp

theorem resolve_eq_error_iff {fault : EvalError} :
    resolve source scope parameters = .error fault ↔
      ∃ before p s after, parameters = before ++ p :: after ∧ p.source = .selector s ∧
        source.evaluate scope s = .error fault ∧ ∀ q ∈ before, q.Evaluates source scope := by
  rw [← findSome?_fault?_eq_some_iff, List.findSome?_eq_some_iff]
  simp only [fault?_eq_some_iff, fault?_eq_none_iff]
  constructor
  · intro h
    obtain ⟨before, p, after, hsplit, ⟨s, hs, hfault⟩, hbefore⟩ := h
    exact ⟨before, p, s, after, hsplit, hs, hfault, hbefore⟩
  · intro h
    obtain ⟨before, p, s, after, hsplit, hs, hfault, hbefore⟩ := h
    exact ⟨before, p, after, hsplit, ⟨s, hs, hfault⟩, hbefore⟩

theorem aligned_of_resolve_eq_ok {objects : List Fields}
    (h : resolve source scope parameters = .ok objects) :
    Supply.Aligned (parameters.map (supply source scope))
      (Supply.gather (parameters.map (supply source scope))) objects := by
  rw [resolve_eq] at h
  cases hfault : parameters.findSome? (fault? source scope) with
  | some fault => simp [hfault] at h
  | none =>
    rw [hfault] at h
    obtain rfl := Except.ok.inj h
    exact Supply.aligned_gather _

/-- The records that one operation left behind. -/
def listed (operation : String) (results : List Json) : Key × List Record :=
  (⟨"1", "eu", "Demo", operation⟩, results.map fun result => ⟨⟨"1", "eu", 0⟩, [], result⟩)

/-- The selector `Demo|operation|[*].result`. -/
def resultsOf (operation : String) : Selector where
  service := "Demo"
  operation := operation
  query := ⟨"[*].result", .project .current (.field "result")⟩

def catalogued : Source := .ofStore (Store.ofWrites [
  listed "Names" [.str "a", .str "b", .str "c"],
  listed "Kinds" [.str "x", .str "y"],
  listed "Renamed" [.str "z"]])

/-- Three names of which the first is given again, two kinds, and a literal between them. -/
def uneven : List Parameter := [
  ⟨"name", .selector (resultsOf "Names")⟩, ⟨"full", .value (.bool true)⟩,
  ⟨"kind", .selector (resultsOf "Kinds")⟩, ⟨"name", .selector (resultsOf "Renamed")⟩]

end ResourceGraph.Parameter
