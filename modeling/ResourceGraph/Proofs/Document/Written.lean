import ResourceGraph.Document.Basic
import ResourceGraph.Proofs.Json.Fields

/-!
# Reading what was written

What the readers of single values, of lists and of the parts of a structure give on what is written
for them, and what everything that they read has. A field that is left out when it holds nothing is
read as holding nothing; one that is always there, null for nothing, is too. Where null is itself
among the values of a field, it is read as nothing.
-/
namespace ResourceGraph

namespace Fields

variable {fields rest : Fields} {key k : String}

theorem get?_append : get? (fields ++ rest) k = (fields.get? k).or (rest.get? k) :=
  List.lookup_append

theorem get?_nil : get? [] k = none := rfl

/-- A field that is left out when there is nothing to write. -/
theorem get?_optional {α : Type} {o : Option α} {write : α → Json} :
    get? (o.map fun v => (key, write v)).toList k = if k = key then o.map write else none := by
  cases o with
  | none => simp [get?]
  | some v => exact get?_cons

theorem get?_optional_any {o : Option Json} :
    get? (o.map fun v => (key, v)).toList k = if k = key then o else none := by
  have h : get? (o.map fun v => (key, id v)).toList k = if k = key then o.map id else none :=
    get?_optional
  rwa [Option.map_id] at h

/-- A field of fields that is left out when there are none. -/
theorem get?_unlessEmpty :
    get? (if fields.isEmpty then [] else [(key, .obj fields)]) k =
      if k = key ∧ fields ≠ [] then some (.obj fields) else none := by
  cases fields with
  | nil => simp [get?]
  | cons field rest =>
    rw [List.isEmpty_cons, if_neg Bool.false_ne_true, get?_cons]
    simp [get?]

end Fields

namespace Document

variable {α β γ : Type}

/-! ## Single values and lists -/

theorem natural?_ofNat {limit n : Nat} (h : n < limit) :
    natural? limit (Json.ofNat n) = some n := by
  have hrange : (0 ≤ (n : Int) && (n : Int) < limit) = true := by simpa using h
  show (if (0 ≤ (n : Int) && (n : Int) < limit) = true then some (n : Int).toNat else none) = _
  rw [if_pos hrange, Int.toNat_natCast]

theorem lt_of_natural? {limit n : Nat} {d : Json} (h : natural? limit d = some n) : n < limit := by
  unfold natural? at h
  split at h
  · split at h
    · next i _ hrange =>
      cases h
      simp only [Bool.and_eq_true, decide_eq_true_eq] at hrange
      omega
    · cases h
  · cases h

/-- Items that are each read as some value are read as the list of these. -/
theorem list?_map {read : Json → Option γ} {write : β → Json} {f : β → γ} {items : List β}
    (h : ∀ x ∈ items, read (write x) = some (f x)) :
    list? read (.arr (items.map write)) = some (items.map f) := by
  show (items.map write).mapM read = _
  induction items with
  | nil => rfl
  | cons x items ih =>
    obtain ⟨hx, hitems⟩ := List.forall_mem_cons.1 h
    rw [List.map_cons, List.mapM_cons, hx, ih hitems]
    rfl

/-- The items of a list that is read have what every item that is read has. -/
theorem forall_of_list? {read : Json → Option β} {P : β → Prop}
    (h : ∀ d x, read d = some x → P x) {d : Json} {items : List β}
    (hitems : list? read d = some items) : ∀ x ∈ items, P x := by
  unfold list? at hitems
  split at hitems
  · next documents hshape =>
    clear hshape
    induction documents generalizing items with
    | nil =>
      cases hitems
      nofun
    | cons document documents ih =>
      rw [List.mapM_cons] at hitems
      obtain ⟨x, hx, hitems⟩ := Option.bind_eq_some_iff.1 hitems
      obtain ⟨rest, hrest, hitems⟩ := Option.bind_eq_some_iff.1 hitems
      cases hitems
      exact List.forall_mem_cons.2 ⟨h document x hx, ih hrest⟩
  · cases hitems

@[simp]
theorem list?_ofStrings (texts : List String) :
    list? text? (Json.ofStrings texts) = some texts := by
  have hread : list? text? (Json.ofStrings texts) = some (texts.map id) := list?_map fun _ _ => rfl
  rw [hread, List.map_id]

theorem fields?_obj {fields : Fields} (h : fields.keys.Nodup) :
    fields? (Json.obj fields) = some fields := by
  have hsame : fields? (Json.obj fields) = some (Fields.ofList fields) :=
    congrArg (fun fs => some (Fields.ofList fs)) (List.map_id fields)
  rw [hsame, Fields.ofList_eq_self h]

theorem nodup_keys_of_fields? {d : Json} {fields : Fields} (h : fields? d = some fields) :
    fields.keys.Nodup := by
  unfold fields? at h
  split at h
  · cases h
    exact Fields.nodup_keys_ofList _
  · cases h

theorem optional?_null {read : Json → Option β} : optional? read Json.null = some none := rfl

theorem optional?_of_ne_null {read : Json → Option β} {d : Json} (h : d ≠ .null) :
    optional? read d = (read d).map some := by
  cases d with
  | null => exact absurd rfl h
  | num n => cases n <;> rfl
  | _ => rfl

theorem forall_of_optional? {read : Json → Option β} {P : β → Prop}
    (h : ∀ d x, read d = some x → P x) {d : Json} {o : Option β} (ho : optional? read d = some o) :
    ∀ x ∈ o, P x := by
  by_cases hnull : d = .null
  · rw [hnull, optional?_null] at ho
    cases ho
    nofun
  · rw [optional?_of_ne_null hnull] at ho
    obtain ⟨x, hx, rfl⟩ := Option.map_eq_some_iff.1 ho
    intro y hy
    cases hy
    exact h d x hx

/-- No document of any form is read as a null. -/
theorem ne_null_of_optional? {d : Json} {o : Option Json}
    (h : optional? (fun v => some (toJson v)) d = some o) : o ≠ some .null := by
  by_cases hnull : d = .null
  · rw [hnull, optional?_null] at h
    cases h
    nofun
  · rw [optional?_of_ne_null hnull] at h
    cases h
    exact fun hd => hnull (Option.some.inj hd)

@[simp]
theorem optional?_ofStr? (o : Option String) : optional? text? (Json.ofStr? o) = some o := by
  cases o <;> rfl

theorem optional?_ofNat? {limit : Nat} {o : Option Nat} (h : ∀ n ∈ o, n < limit) :
    optional? (natural? limit) (Json.ofNat? o) = some o := by
  cases o with
  | none => rfl
  | some n =>
    have hne : Json.ofNat n ≠ .null := nofun
    exact (optional?_of_ne_null hne).trans (by rw [natural?_ofNat (h n rfl)]; rfl)

@[simp]
theorem optional?_ofFlag? (o : Option Bool) :
    optional? flag? (o.elim Json.null Json.bool) = some o := by
  cases o <;> rfl

/-! ## Parts of a structure -/

/-- The parts of an object are found by name. -/
theorem parts?_obj (size : Nat) (fields : Fields) :
    parts? size (Json.obj fields) = some ⟨fun _ name => fields.get? name⟩ := rfl

/-- One part of a structure is read, and then the rest of it. -/
theorem of_part {x : Option β} {rest : β → Option γ} {b : β} {c : γ} (hx : x = some b)
    (hrest : rest b = some c) : (x >>= rest) = some c := by
  rw [hx]
  exact hrest

namespace Parts

variable {parts : Parts Json} {i : Nat} {name : String} {read : Json → Option β} {d : Json} {b : β}

theorem required_eq_some (h : parts.find i name = some d) (hread : read d = some b) :
    parts.required i name read = some b := by
  rw [required, h]
  exact hread

theorem defaulted_eq_some {default : β} (h : parts.find i name = some d) (hread : read d = some b) :
    parts.defaulted i name default read = some b := by
  rw [defaulted, h]
  exact hread

theorem optional_eq_some {o : Option β} (h : parts.find i name = some d)
    (hread : optional? read d = some o) : parts.optional i name read = some o :=
  defaulted_eq_some h hread

/-- A part of any form that is left out when there is none: null is taken for none, too. -/
theorem optional_any {o : Option Json} (h : parts.find i name = o) :
    parts.optional i name (fun v => some (Document.toJson v)) =
      some (o.filter fun v => !v.isNull) := by
  rw [optional, defaulted, h]
  cases o with
  | none => rfl
  | some v =>
    cases v with
    | num n => cases n <;> rfl
    | _ => rfl

/-- A text that is left out when there is none. -/
theorem optional_text {o : Option String} (h : parts.find i name = o.map Json.str) :
    parts.optional i name text? = some o := by
  rw [optional, defaulted, h]
  cases o <;> rfl

/-- Fields that are left out when there are none. -/
theorem defaulted_fields {fields : Fields} (hkeys : fields.keys.Nodup)
    (h : parts.find i name = if fields ≠ [] then some (.obj fields) else none) :
    parts.defaulted i name [] fields? = some fields := by
  rw [defaulted, h]
  by_cases hempty : fields = []
  · rw [if_neg (not_not_intro hempty), hempty]
  · rw [if_pos hempty]
    exact fields?_obj hkeys

/-- What is read has a property that the default has and everything else that is read. -/
theorem prop_of_defaulted {P : β → Prop} {default : β}
    (h : parts.defaulted i name default read = some b) (hdefault : P default)
    (hread : ∀ d x, read d = some x → P x) : P b := by
  unfold defaulted at h
  split at h
  · exact hread _ _ h
  · cases h
    exact hdefault

theorem nodup_keys_of_defaulted {fields : Fields}
    (h : parts.defaulted i name [] fields? = some fields) : fields.keys.Nodup :=
  prop_of_defaulted (P := fun fields : Fields => fields.keys.Nodup) h List.nodup_nil
    fun _ _ => nodup_keys_of_fields?

theorem forall_of_defaulted_list {P : β → Prop} {items : List β}
    (h : parts.defaulted i name [] (list? read) = some items)
    (hread : ∀ d x, read d = some x → P x) : ∀ x ∈ items, P x :=
  prop_of_defaulted (P := fun items => ∀ x ∈ items, P x) h nofun fun _ _ => forall_of_list? hread

theorem forall_of_optional {P : β → Prop} {o : Option β}
    (h : parts.optional i name read = some o) (hread : ∀ d x, read d = some x → P x) :
    ∀ x ∈ o, P x :=
  prop_of_defaulted (P := fun o => ∀ x ∈ o, P x) h nofun fun _ _ => forall_of_optional? hread

theorem ne_null_of_optional_any {o : Option Json}
    (h : parts.optional i name (fun v => some (Document.toJson v)) = some o) : o ≠ some .null :=
  prop_of_defaulted (P := fun o => o ≠ some Json.null) h nofun fun _ _ => ne_null_of_optional?

end Parts

/-! ## There and back -/

/-- Values with the property `P` are read back as they were written. What is read has it, and is
read again from what is written of it. -/
structure Stable (toJson : α → Json) (read? : Json → Option α) (P : α → Prop) : Prop where
  restores : ∀ a, P a → read? (toJson a) = some a
  settles : ∀ d a, read? d = some a → P a ∧ read? (toJson a) = some a

theorem stable_of {toJson : α → Json} {read? : Json → Option α} {P : α → Prop}
    (hwritten : ∀ a, P a → read? (toJson a) = some a) (hread : ∀ d a, read? d = some a → P a) :
    Stable toJson read? P :=
  ⟨hwritten, fun d a h => ⟨hread d a h, hwritten a (hread d a h)⟩⟩

end Document

end ResourceGraph
