import ResourceGraph.Json.Reader
import ResourceGraph.Proofs.Json.Sameness

/-!
# Keys that are there once

In a value no object has a key twice, and neither have its parts. This is so for everything that is
read from text: a field that comes again is written over.
-/
namespace ResourceGraph.Json

variable {v w : Json} {items : List Json} {fields : Fields} {key : String} {n depth : Nat}
  {cs rest : List Char}

/-! ## Parts of a value -/

/-- A value stands in a list or under a key of an object. -/
inductive PartOf : Json → Json → Prop where
  | item {v : Json} {items : List Json} : v ∈ items → PartOf v (.arr items)
  | member {v : Json} {fields : Fields} {key : String} : fields.get? key = some v →
      PartOf v (.obj fields)

theorem DistinctKeys.part (hw : w.DistinctKeys) (h : PartOf v w) : v.DistinctKeys := by
  cases h with
  | item hmem =>
    cases hw with
    | arr hitems => exact hitems v hmem
  | member hfound =>
    cases hw with
    | obj _ hfields => exact hfields _ (Ordered.mem_of_lookup hfound)

/-- What passes from the parts to the value holds of every value. -/
theorem DistinctKeys.part_induction {motive : Json → Prop} (hv : v.DistinctKeys)
    (step : ∀ w, w.DistinctKeys → (∀ a, PartOf a w → motive a) → motive w) : motive v := by
  induction hv with
  | null => exact step _ .null nofun
  | bool b => exact step _ (.bool b) nofun
  | num n => exact step _ (.num n) nofun
  | str s => exact step _ (.str s) nofun
  | arr hitems ih =>
    apply step _ (.arr hitems)
    intro a ha
    cases ha with
    | item hmem => exact ih a hmem
  | obj hkeys hfields ih =>
    apply step _ (.obj hkeys hfields)
    intro a ha
    cases ha with
    | member hfound => exact ih _ (Ordered.mem_of_lookup hfound)

theorem DistinctKeys.nodup_keys (h : DistinctKeys (.obj fields)) : fields.keys.Nodup := by
  cases h with
  | obj hkeys _ => exact hkeys

theorem DistinctKeys.insert (h : DistinctKeys (.obj fields)) (hv : v.DistinctKeys) :
    DistinctKeys (.obj (fields.insert key v)) := by
  have hkeys : (fields.insert key v).keys.Nodup := Fields.nodup_keys_insert h.nodup_keys
  refine .obj hkeys fun field hfield => ?_
  have hfound := (Fields.get?_eq_some_iff hkeys).2 hfield
  rw [Fields.get?_insert] at hfound
  split at hfound
  · obtain rfl := Option.some.inj hfound
    exact hv
  · exact h.part (.member hfound)

/-! ## Values that are read -/

/-- What is read with this bound has no key twice, nor have fields that are added to others. -/
structure ReadsDistinct (n : Nat) : Prop where
  value : ∀ {depth cs v rest}, scanValue? n depth cs = some (v, rest) → v.DistinctKeys
  items : ∀ {depth cs items rest}, scanItems? n depth cs = some (items, rest) →
    DistinctKeys (.arr items)
  fields : ∀ {depth fields cs fields' rest}, DistinctKeys (.obj fields) →
    scanFields? n depth fields cs = some (fields', rest) → DistinctKeys (.obj fields')

theorem ReadsDistinct.value_succ (h : ReadsDistinct n)
    (hscan : scanValue? (n + 1) depth cs = some (v, rest)) : v.DistinctKeys := by
  have hempty : DistinctKeys (.obj []) := .obj List.nodup_nil nofun
  rw [scanValue?] at hscan
  split at hscan
  · cases hscan
    exact .null
  · cases hscan
    exact .bool true
  · cases hscan
    exact .bool false
  · obtain ⟨_, -, heq⟩ := Option.map_eq_some_iff.1 hscan
    cases heq
    exact .str _
  · split at hscan
    · cases hscan
    split at hscan
    · cases hscan
      exact .arr nofun
    · obtain ⟨_, hitems, heq⟩ := Option.map_eq_some_iff.1 hscan
      cases heq
      exact h.items hitems
  · split at hscan
    · cases hscan
    split at hscan
    · cases hscan
      exact hempty
    · obtain ⟨_, hfields, heq⟩ := Option.map_eq_some_iff.1 hscan
      cases heq
      exact h.fields hempty hfields
  · obtain ⟨_, -, hvalue⟩ := Option.bind_eq_some_iff.1 hscan
    obtain ⟨m, -, heq⟩ := Option.bind_eq_some_iff.1 hvalue
    cases heq
    exact .num m

theorem ReadsDistinct.items_succ (h : ReadsDistinct n)
    (hscan : scanItems? (n + 1) depth cs = some (items, rest)) : DistinctKeys (.arr items) := by
  rw [scanItems?] at hscan
  obtain ⟨⟨item, cs⟩, hvalue, hscan⟩ := Option.bind_eq_some_iff.1 hscan
  have hitem := h.value hvalue
  simp only at hscan
  split at hscan
  · obtain ⟨⟨others, cs⟩, hothers, heq⟩ := Option.bind_eq_some_iff.1 hscan
    cases heq
    have hpart : ∀ other ∈ others, other.DistinctKeys :=
      fun other hmem => (h.items hothers).part (.item hmem)
    exact .arr (List.forall_mem_cons.2 ⟨hitem, hpart⟩)
  · cases hscan
    exact .arr (List.forall_mem_singleton.2 hitem)
  · cases hscan

theorem ReadsDistinct.fields_succ (h : ReadsDistinct n) {fields' : Fields}
    (hfields : DistinctKeys (.obj fields))
    (hscan : scanFields? (n + 1) depth fields cs = some (fields', rest)) :
    DistinctKeys (.obj fields') := by
  rw [scanFields?] at hscan
  split at hscan
  · obtain ⟨⟨key, cs⟩, -, hscan⟩ := Option.bind_eq_some_iff.1 hscan
    simp only at hscan
    split at hscan
    · obtain ⟨⟨value, cs⟩, hvalue, hscan⟩ := Option.bind_eq_some_iff.1 hscan
      have hadded : DistinctKeys (.obj (fields.insert key value)) :=
        hfields.insert (h.value hvalue)
      simp only at hscan
      split at hscan
      · exact h.fields hadded hscan
      · cases hscan
        exact hadded
      · cases hscan
    · cases hscan
  · cases hscan

theorem readsDistinct (n : Nat) : ReadsDistinct n := by
  induction n with
  | zero =>
    constructor
    · intro depth cs v rest h
      simp [scanValue?] at h
    · intro depth cs items rest h
      simp [scanItems?] at h
    · intro depth fields cs fields' rest _ h
      simp [scanFields?] at h
  | succ n ih => exact ⟨ih.value_succ, ih.items_succ, ih.fields_succ⟩

theorem distinctKeys_of_ofText? {text : String} (h : ofText? text = some v) : v.DistinctKeys := by
  rw [ofText?, ofChars?] at h
  obtain ⟨⟨value, rest⟩, hscan, h⟩ := Option.bind_eq_some_iff.1 h
  simp only at h
  split at h
  · cases h
    exact (readsDistinct _).value hscan
  · cases h

end ResourceGraph.Json
