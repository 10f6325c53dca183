import Mathlib.Data.List.Forall2
import ResourceGraph.Ordered
import ResourceGraph.Proofs.Json.Fields

/-!
# Sameness of values

Lists are compared element by element and objects key by key. So values are told apart by what
stands in one place of both. If they differ in that place only, nothing else tells them apart, as
long as no object has a key twice.
-/
namespace ResourceGraph.Json

variable {items others : List Json} {fields entries : Fields} {v w x y : Json}

/-! ## Lists and objects -/

theorem sameItems_iff (hlength : items.length = others.length) :
    sameItems items others = true ↔ List.Forall₂ (fun a b => same a b = true) items others := by
  induction items generalizing others with
  | nil => simp [List.length_eq_zero_iff.1 hlength.symm, sameItems]
  | cons a items ih =>
    cases others with
    | nil => cases hlength
    | cons b others =>
      rw [sameItems, Bool.and_eq_true, ih (Nat.succ.inj hlength), List.forall₂_cons]

theorem same_arr_iff :
    same (.arr items) (.arr others) = true ↔
      List.Forall₂ (fun a b => same a b = true) items others := by
  rw [same, Bool.and_eq_true, beq_iff_eq]
  constructor
  · rintro ⟨hlength, hitems⟩
    exact (sameItems_iff hlength).1 hitems
  · intro h
    exact ⟨h.length_eq, (sameItems_iff h.length_eq).2 h⟩

theorem sameFields_iff :
    sameFields fields entries = true ↔
      ∀ field ∈ fields, ∃ b, Fields.get? entries field.1 = some b ∧ same field.2 b = true := by
  induction fields with
  | nil => simp [sameFields]
  | cons field fields ih =>
    obtain ⟨key, a⟩ := field
    rw [sameFields, Bool.and_eq_true, ih, List.forall_mem_cons]
    refine and_congr_left fun _ => ?_
    cases Fields.get? entries key with
    | none => simp
    | some b => simp

theorem same_obj_iff :
    same (.obj fields) (.obj entries) = true ↔
      fields.length = entries.length ∧
        ∀ field ∈ fields, ∃ b, Fields.get? entries field.1 = some b ∧ same field.2 b = true := by
  rw [same, Bool.and_eq_true, beq_iff_eq, sameFields_iff]

/-! ## Parts in the same place -/

/-- `x` stands in the first value where `y` stands in the second. -/
inductive Facing (x y : Json) : Json → Json → Prop where
  | here : Facing x y x y
  | item {items others : List Json} {i : Nat} {v w : Json} : items[i]? = some v →
      others[i]? = some w → Facing x y v w → Facing x y (.arr items) (.arr others)
  | member {fields entries : Fields} {key : String} {v w : Json} : fields.get? key = some v →
      entries.get? key = some w → Facing x y v w → Facing x y (.obj fields) (.obj entries)

theorem Facing.same_of_same (h : Facing x y v w) (hsame : same v w = true) : same x y = true := by
  induction h with
  | here => exact hsame
  | item hv hw _ ih =>
    obtain ⟨-, hitems⟩ := List.forall₂_iff_get.1 (same_arr_iff.1 hsame)
    obtain ⟨hi, rfl⟩ := List.getElem?_eq_some_iff.1 hv
    obtain ⟨hi', rfl⟩ := List.getElem?_eq_some_iff.1 hw
    exact ih (hitems _ hi hi')
  | member hv hw _ ih =>
    obtain ⟨-, hfields⟩ := same_obj_iff.1 hsame
    obtain ⟨b, hb, hsame⟩ := hfields _ (Ordered.mem_of_lookup hv)
    cases hw.symm.trans hb
    exact ih hsame

/-! ## One part replaced -/

/-- The second value is the first with `y` for one `x` in it. -/
inductive Replaced (x y : Json) : Json → Json → Prop where
  | here : Replaced x y x y
  | item (before after : List Json) {v w : Json} : Replaced x y v w →
      Replaced x y (.arr (before ++ v :: after)) (.arr (before ++ w :: after))
  | member (before after : Fields) (key : String) {v w : Json} : Replaced x y v w →
      Replaced x y (.obj (before ++ (key, v) :: after)) (.obj (before ++ (key, w) :: after))

/-- No object in the value has a key twice. -/
inductive DistinctKeys : Json → Prop where
  | null : DistinctKeys .null
  | bool (b : Bool) : DistinctKeys (.bool b)
  | num (n : Number) : DistinctKeys (.num n)
  | str (s : String) : DistinctKeys (.str s)
  | arr {items : List Json} : (∀ item ∈ items, DistinctKeys item) → DistinctKeys (.arr items)
  | obj {fields : Fields} : fields.keys.Nodup → (∀ field ∈ fields, DistinctKeys field.2) →
      DistinctKeys (.obj fields)

theorem DistinctKeys.same_self (h : DistinctKeys v) : same v v = true := by
  induction h with
  | null => rfl
  | bool b => simp [same]
  | num n => simp [same, Number.same]
  | str s => simp [same]
  | arr _ ih => exact same_arr_iff.2 (List.forall₂_same.2 ih)
  | obj hkeys _ ih =>
    exact same_obj_iff.2 ⟨rfl, fun field hfield =>
      ⟨field.2, (Fields.get?_eq_some_iff hkeys).2 hfield, ih field hfield⟩⟩

theorem keys_replaced {before after : Fields} {key : String} :
    Fields.keys (before ++ (key, w) :: after) = Fields.keys (before ++ (key, v) :: after) := by
  simp [Fields.keys]

theorem Replaced.facing (h : Replaced x y v w) (hdistinct : DistinctKeys v) : Facing x y v w := by
  induction h with
  | here => exact .here
  | item before after _ ih =>
    cases hdistinct with
    | arr hitems => exact .item (i := before.length) (by simp) (by simp) (ih (hitems _ (by simp)))
  | @member before after key v w _ ih =>
    cases hdistinct with
    | obj hkeys hfields =>
      have hv : Fields.get? (before ++ (key, v) :: after) key = some v :=
        (Fields.get?_eq_some_iff hkeys).2 (by simp)
      have hw : Fields.get? (before ++ (key, w) :: after) key = some w :=
        (Fields.get?_eq_some_iff (keys_replaced ▸ hkeys)).2 (by simp)
      exact .member hv hw (ih (hfields (key, v) (by simp)))

/-- A value with one part replaced is the same value if the part is the same. -/
theorem Replaced.same_of_same (h : Replaced x y v w) (hdistinct : DistinctKeys v)
    (hsame : same x y = true) : same v w = true := by
  induction h with
  | here => exact hsame
  | item before after _ ih =>
    cases hdistinct with
    | arr hitems =>
      obtain ⟨hbefore, hpart⟩ := List.forall_mem_append.1 hitems
      obtain ⟨hv, hafter⟩ := List.forall_mem_cons.1 hpart
      have hself : ∀ {items : List Json}, (∀ item ∈ items, DistinctKeys item) →
          List.Forall₂ (fun a b => same a b = true) items items :=
        fun hitems => List.forall₂_same.2 fun item hitem => (hitems item hitem).same_self
      exact same_arr_iff.2 (List.rel_append (hself hbefore) (.cons (ih hv) (hself hafter)))
  | @member before after key v w _ ih =>
    cases hdistinct with
    | obj hkeys hfields =>
      have hfind : ∀ field ∈ before ++ (key, w) :: after,
          Fields.get? (before ++ (key, w) :: after) field.1 = some field.2 :=
        fun field => (Fields.get?_eq_some_iff (keys_replaced ▸ hkeys)).2
      refine same_obj_iff.2 ⟨by simp, fun field hfield => ?_⟩
      have hself := (hfields field hfield).same_self
      rcases List.mem_append.1 hfield with hmem | hmem
      · exact ⟨field.2, hfind field (by simp [hmem]), hself⟩
      rcases List.mem_cons.1 hmem with rfl | hmem
      · exact ⟨w, hfind (key, w) (by simp), ih (hfields (key, v) (by simp))⟩
      · exact ⟨field.2, hfind field (by simp [hmem]), hself⟩

end ResourceGraph.Json
