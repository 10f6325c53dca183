import Mathlib.Data.List.Nodup
import ResourceGraph.Json.Basic

/-!
# Fields of an object

What is found under a key after a field, or one field after the other, has been written. Lists of
fields that have no key twice and give every key the same value are reorderings of each other.
-/
namespace ResourceGraph.Fields

variable {fields other : Fields} {key k : String} {v w : Json}

theorem get?_cons {rest : Fields} :
    get? ((key, v) :: rest) k = if k = key then some v else rest.get? k := by
  by_cases h : k = key
  · simp [get?, h]
  · have hbeq : (k == key) = false := beq_false_of_ne h
    simp [get?, List.lookup_cons, h, hbeq]

theorem get?_insert :
    (fields.insert key v).get? k = if k = key then some v else fields.get? k := by
  induction fields with
  | nil => exact get?_cons
  | cons field rest ih =>
    obtain ⟨k', w⟩ := field
    unfold insert
    split
    · next h =>
      subst h
      rw [get?_cons, get?_cons]
      by_cases hk : k = k'
      · rw [if_pos hk, if_pos hk]
      · rw [if_neg hk, if_neg hk, if_neg hk]
    · next hne =>
      rw [get?_cons, get?_cons, ih]
      by_cases hk : k = k'
      · rw [if_pos hk, if_pos hk, if_neg (hk ▸ hne)]
      · rw [if_neg hk, if_neg hk]

theorem mem_keys_iff : k ∈ fields.keys ↔ ∃ v, fields.get? k = some v := by
  induction fields with
  | nil => simp [keys, get?]
  | cons field rest ih =>
    rw [get?_cons]
    by_cases h : k = field.1
    · simp [keys, h]
    · rw [if_neg h, ← ih]
      simp [keys, h]

theorem contains_iff : fields.contains k = true ↔ k ∈ fields.keys := by
  simp [contains, keys]

theorem nodup_keys_insert (h : fields.keys.Nodup) : (fields.insert key v).keys.Nodup := by
  induction fields with
  | nil => exact List.nodup_singleton key
  | cons field rest ih =>
    obtain ⟨hfield, hrest⟩ := List.nodup_cons.1 h
    unfold insert
    split
    · exact h
    · next hne =>
      refine List.nodup_cons.2 ⟨fun hmem => hfield ?_, ih hrest⟩
      obtain ⟨w, hw⟩ := mem_keys_iff.1 hmem
      rw [get?_insert, if_neg hne] at hw
      exact mem_keys_iff.2 ⟨w, hw⟩

theorem get?_eq_some_iff (h : fields.keys.Nodup) :
    fields.get? k = some v ↔ (k, v) ∈ fields := by
  induction fields with
  | nil => simp [get?]
  | cons field rest ih =>
    obtain ⟨key, w⟩ := field
    obtain ⟨hfield, hrest⟩ := List.nodup_cons.1 h
    rw [get?_cons, List.mem_cons, ← ih hrest]
    by_cases hk : k = key
    · subst hk
      have habsent : ¬ get? rest k = some v := fun hv => hfield (mem_keys_iff.2 ⟨v, hv⟩)
      simp only [if_true, Option.some.injEq, Prod.mk.injEq, true_and, habsent, or_false, eq_comm]
    · simp [hk]

/-- Fields without a repeated key are told apart by the values under their keys, up to order. -/
theorem perm_of_get?_eq (h : fields.keys.Nodup) (hother : other.keys.Nodup)
    (heq : ∀ k, fields.get? k = other.get? k) : fields.Perm other := by
  refine (List.perm_ext_iff_of_nodup h.of_map hother.of_map).2 fun field => ?_
  rw [← get?_eq_some_iff h, ← get?_eq_some_iff hother, heq]

/-! ## Fields written one after the other -/

theorem insert_of_not_mem (h : key ∉ fields.keys) : fields.insert key v = fields ++ [(key, v)] := by
  induction fields with
  | nil => rfl
  | cons field rest ih =>
    obtain ⟨hfield, hrest⟩ := not_or.1 (mt List.mem_cons.2 h)
    rw [insert, if_neg (Ne.symm hfield), ih hrest, List.cons_append]

theorem get?_foldl_insert {entries : Fields} :
    (entries.foldl (fun fields (key, value) => fields.insert key value) fields).get? k =
      (entries.reverse.lookup k).or (fields.get? k) := by
  induction entries generalizing fields with
  | nil => rfl
  | cons entry rest ih =>
    obtain ⟨key, w⟩ := entry
    rw [List.foldl_cons, ih, get?_insert, List.reverse_cons, List.lookup_append, Option.or_assoc]
    by_cases h : k = key
    · simp [h]
    · simp [h, List.lookup_cons, beq_false_of_ne h]

/-- Of entries with one key the last counts. -/
theorem get?_ofList {entries : Fields} : (ofList entries).get? k = entries.reverse.lookup k := by
  rw [ofList, get?_foldl_insert]
  exact Option.or_none

theorem nodup_keys_ofList (entries : Fields) : (ofList entries).keys.Nodup := by
  suffices h : ∀ fields : Fields, fields.keys.Nodup →
      (entries.foldl (fun fields (key, value) => fields.insert key value) fields).keys.Nodup from
    h [] List.nodup_nil
  induction entries with
  | nil => exact fun fields h => h
  | cons entry rest ih => exact fun fields h => ih _ (nodup_keys_insert h)

/-- Where no key comes twice, nothing is written over. -/
theorem ofList_eq_self {entries : Fields} (h : entries.keys.Nodup) : ofList entries = entries := by
  suffices hfold : ∀ fields : Fields, (fields ++ entries).keys.Nodup →
      entries.foldl (fun fields (key, value) => fields.insert key value) fields =
        fields ++ entries from hfold [] h
  clear h
  induction entries with
  | nil => exact fun fields _ => (List.append_nil fields).symm
  | cons entry rest ih =>
    intro fields h
    obtain ⟨key, w⟩ := entry
    have hsplit : fields ++ (key, w) :: rest = (fields ++ [(key, w)]) ++ rest := by simp
    have hnew : key ∉ fields.keys := by
      rw [keys, List.map_append, List.map_cons] at h
      exact fun hmem => (List.nodup_append.1 h).2.2 _ hmem _ List.mem_cons_self rfl
    show rest.foldl _ (fields.insert key w) = _
    rw [insert_of_not_mem hnew, ih _ (hsplit ▸ h), hsplit]

end ResourceGraph.Fields

/-- The text of a field, which may be empty. -/
def ResourceGraph.Json.text? (item : Json) (name : String) : Option String :=
  (item.field? name).bind Json.str?
