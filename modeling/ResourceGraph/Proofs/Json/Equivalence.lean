import Mathlib.Data.List.Perm.Subperm
import ResourceGraph.Proofs.Json.DistinctKeys
import ResourceGraph.Query.Function

/-!
# Sameness is an equivalence

Values are the same if they are of one kind and the same part by part: lists at every position and
objects under every key. Objects are compared in one direction only, by their number of fields and
the keys of the first; as no key comes twice, the second then has no others. So sameness is an
equivalence that does not see the order of fields, and parts may be replaced by the same.

All that is assumed is that no object has a key twice, which holds of whatever is read from text.
-/
namespace ResourceGraph

section Positions

variable {α β γ : Type} {R : α → β → Prop} {S : β → γ → Prop} {o : Option α} {p : Option β}
  {q : Option γ}

theorem exists_iff_of_rel (h : Option.Rel R o p) : (∃ a, o = some a) ↔ ∃ b, p = some b := by
  cases h <;> simp

theorem exists_of_rel_some {a : α} (h : Option.Rel R (some a) p) : ∃ b, p = some b ∧ R a b := by
  cases h with
  | some hab => exact ⟨_, rfl, hab⟩

theorem rel_flip_of {T : β → α → Prop} (h : Option.Rel R o p)
    (himp : ∀ a ∈ o, ∀ b ∈ p, R a b → T b a) : Option.Rel T p o := by
  cases h with
  | none => exact .none
  | some hab => exact .some (himp _ rfl _ rfl hab)

theorem rel_comp_of {T : α → γ → Prop} (h : Option.Rel R o p) (h' : Option.Rel S p q)
    (himp : ∀ a ∈ o, ∀ b ∈ p, ∀ c ∈ q, R a b → S b c → T a c) : Option.Rel T o q := by
  cases h with
  | none =>
    cases h'
    exact .none
  | some hab =>
    cases h' with
    | some hbc => exact .some (himp _ rfl _ rfl _ rfl hab hbc)

theorem forall₂_iff_getElem? {xs : List α} {ys : List β} :
    List.Forall₂ R xs ys ↔ ∀ i : Nat, Option.Rel R xs[i]? ys[i]? := by
  constructor
  · intro h
    induction h with
    | nil => exact fun _ => .none
    | cons hab _ ih =>
      intro i
      cases i with
      | zero => exact .some hab
      | succ i => exact ih i
  · intro h
    induction xs generalizing ys with
    | nil =>
      cases ys with
      | nil => exact .nil
      | cons b ys => exact nomatch h 0
    | cons a xs ih =>
      cases ys with
      | nil => exact nomatch h 0
      | cons b ys =>
        have hhead : R a b := Option.rel_some_some.1 (h 0)
        exact .cons hhead (ih fun i => h (i + 1))

end Positions

namespace Json

variable {v w u x y : Json} {items others : List Json} {fields entries : Fields} {key : String}

/-! ## Part by part -/

theorem same_arr_iff_getElem? : same (.arr items) (.arr others) = true ↔
    ∀ i : Nat, Option.Rel (fun a b => same a b = true) items[i]? others[i]? :=
  same_arr_iff.trans forall₂_iff_getElem?

/-- As many keys, none twice and all of them among the others: then there are no others. -/
theorem perm_keys_of_same (hfields : fields.keys.Nodup)
    (h : same (.obj fields) (.obj entries) = true) : fields.keys.Perm entries.keys := by
  obtain ⟨hlength, hfound⟩ := same_obj_iff.1 h
  have hsubset : fields.keys ⊆ entries.keys := by
    intro key hkey
    obtain ⟨field, hfield, rfl⟩ := List.mem_map.1 hkey
    obtain ⟨b, hb, -⟩ := hfound field hfield
    exact Fields.mem_keys_iff.2 ⟨b, hb⟩
  apply (List.subperm_of_subset hfields hsubset).perm_of_length_le
  simp [Fields.keys, hlength]

theorem same_obj_iff_get? (hfields : fields.keys.Nodup) (hentries : entries.keys.Nodup) :
    same (.obj fields) (.obj entries) = true ↔
      ∀ key, Option.Rel (fun a b => same a b = true) (fields.get? key) (entries.get? key) := by
  constructor
  · intro h key
    have hkeys := (perm_keys_of_same hfields h).mem_iff (a := key)
    obtain ⟨-, hfound⟩ := same_obj_iff.1 h
    cases ha : fields.get? key with
    | none =>
      have habsent : ¬ ∃ b, entries.get? key = some b := by
        rw [← Fields.mem_keys_iff, ← hkeys, Fields.mem_keys_iff, ha]
        simp
      rw [Option.eq_none_iff_forall_ne_some.2 (not_exists.1 habsent)]
      exact .none
    | some a =>
      obtain ⟨b, hb, hsame⟩ := hfound _ (Ordered.mem_of_lookup ha)
      rw [hb]
      exact .some hsame
  · intro h
    have hkeys : fields.keys.Perm entries.keys := by
      apply (List.perm_ext_iff_of_nodup hfields hentries).2
      intro key
      rw [Fields.mem_keys_iff, Fields.mem_keys_iff]
      exact exists_iff_of_rel (h key)
    refine same_obj_iff.2 ⟨by simpa [Fields.keys] using hkeys.length_eq, fun field hfield => ?_⟩
    have hrel := h field.1
    rw [(Fields.get?_eq_some_iff hfields).2 hfield] at hrel
    exact exists_of_rel_some hrel

/-- The values are of one kind, and what makes them up is the same: numbers have one value, lists
have the same at every position, and objects under every key. -/
inductive Matches : Json → Json → Prop where
  | null : Matches .null .null
  | bool (b : Bool) : Matches (.bool b) (.bool b)
  | num {m n : Number} : m.units = n.units → Matches (.num m) (.num n)
  | str (s : String) : Matches (.str s) (.str s)
  | arr {items others : List Json} :
      (∀ i : Nat, Option.Rel (fun a b => same a b = true) items[i]? others[i]?) →
      Matches (.arr items) (.arr others)
  | obj {fields entries : Fields} :
      (∀ key, Option.Rel (fun a b => same a b = true) (fields.get? key) (entries.get? key)) →
      Matches (.obj fields) (.obj entries)

theorem same_iff_matches (hv : v.DistinctKeys) (hw : w.DistinctKeys) :
    same v w = true ↔ Matches v w := by
  constructor
  · intro h
    cases v <;> cases w <;> try exact absurd h Bool.false_ne_true
    case null.null => exact .null
    case bool.bool a b =>
      obtain rfl := beq_iff_eq.1 h
      exact .bool a
    case num.num m n => exact .num (beq_iff_eq.1 h)
    case str.str s t =>
      obtain rfl := beq_iff_eq.1 h
      exact .str s
    case arr.arr => exact .arr (same_arr_iff_getElem?.1 h)
    case obj.obj => exact .obj ((same_obj_iff_get? hv.nodup_keys hw.nodup_keys).1 h)
  · intro h
    cases h with
    | null => rfl
    | bool b => exact beq_self_eq_true b
    | num hunits => exact beq_iff_eq.2 hunits
    | str s => exact beq_self_eq_true s
    | arr hitems => exact same_arr_iff_getElem?.2 hitems
    | obj hfields => exact (same_obj_iff_get? hv.nodup_keys hw.nodup_keys).2 hfields

/-! ## Symmetry and transitivity -/

theorem Matches.flip (h : Matches v w)
    (hparts : ∀ a b, PartOf a v → PartOf b w → same a b = true → same b a = true) :
    Matches w v := by
  cases h with
  | null => exact .null
  | bool b => exact .bool b
  | num hunits => exact .num hunits.symm
  | str s => exact .str s
  | arr hitems =>
    refine .arr fun i => rel_flip_of (hitems i) fun a ha b hb => ?_
    exact hparts a b (.item (List.mem_of_getElem? ha)) (.item (List.mem_of_getElem? hb))
  | obj hfields =>
    refine .obj fun key => rel_flip_of (hfields key) fun a ha b hb => ?_
    exact hparts a b (.member ha) (.member hb)

theorem Matches.comp (h : Matches v w) (h' : Matches w u)
    (hparts : ∀ a b c, PartOf a v → PartOf b w → PartOf c u → same a b = true →
      same b c = true → same a c = true) : Matches v u := by
  cases h with
  | null =>
    cases h'
    exact .null
  | bool b =>
    cases h'
    exact .bool b
  | num hunits =>
    cases h' with
    | num hunits' => exact .num (hunits.trans hunits')
  | str s =>
    cases h'
    exact .str s
  | arr hitems =>
    cases h' with
    | arr hitems' =>
      refine .arr fun i => rel_comp_of (hitems i) (hitems' i) fun a ha b hb c hc => ?_
      exact hparts a b c (.item (List.mem_of_getElem? ha)) (.item (List.mem_of_getElem? hb))
        (.item (List.mem_of_getElem? hc))
  | obj hfields =>
    cases h' with
    | obj hfields' =>
      refine .obj fun key => rel_comp_of (hfields key) (hfields' key) fun a ha b hb c hc => ?_
      exact hparts a b c (.member ha) (.member hb) (.member hc)

theorem DistinctKeys.same_symm (hv : v.DistinctKeys) :
    ∀ w : Json, w.DistinctKeys → same v w = true → same w v = true := by
  apply hv.part_induction
  intro v hv ih w hw h
  have hmatches := (same_iff_matches hv hw).1 h
  apply (same_iff_matches hw hv).2
  exact hmatches.flip fun a b ha hb => ih a ha b (hw.part hb)

theorem DistinctKeys.same_trans (hv : v.DistinctKeys) :
    ∀ w u : Json, w.DistinctKeys → u.DistinctKeys → same v w = true → same w u = true →
      same v u = true := by
  apply hv.part_induction
  intro v hv ih w u hw hu h h'
  have hmatches := (same_iff_matches hv hw).1 h
  have hmatches' := (same_iff_matches hw hu).1 h'
  apply (same_iff_matches hv hu).2
  exact hmatches.comp hmatches' fun a b c ha hb hc => ih a ha b c (hw.part hb) (hu.part hc)

/-- A value as documents have it: no object in it has a key twice. -/
abbrev Value := {v : Json // v.DistinctKeys}

def Value.Same (v w : Value) : Prop := same v.1 w.1 = true

theorem equivalence_same : Equivalence Value.Same where
  refl v := v.2.same_self
  symm {v w} := v.2.same_symm w.1 w.2
  trans {v w u} := v.2.same_trans w.1 u.1 w.2 u.2

theorem Value.Same.congr {v w x y : Value} (h : v.Same w) (hxy : x.Same y) :
    same v.1 x.1 = same w.1 y.1 := by
  rw [Bool.eq_iff_iff]
  constructor
  · intro hvx
    exact equivalence_same.trans (equivalence_same.symm h) (equivalence_same.trans hvx hxy)
  · intro hwy
    exact equivalence_same.trans h (equivalence_same.trans hwy (equivalence_same.symm hxy))

/-! ## The order of fields -/

theorem DistinctKeys.same_of_perm (h : DistinctKeys (.obj fields)) (hperm : fields.Perm entries) :
    same (.obj fields) (.obj entries) = true := by
  have hkeys : fields.keys.Perm entries.keys := hperm.map Prod.fst
  have hentries : entries.keys.Nodup := hkeys.nodup_iff.1 h.nodup_keys
  refine same_obj_iff.2 ⟨hperm.length_eq, fun field hfield => ⟨field.2, ?_, ?_⟩⟩
  · exact (Fields.get?_eq_some_iff hentries).2 (hperm.mem_iff.1 hfield)
  · exact (h.part (.member ((Fields.get?_eq_some_iff h.nodup_keys).2 hfield))).same_self

theorem Replaced.distinctKeys (h : Replaced x y v w) (hv : v.DistinctKeys) : x.DistinctKeys := by
  induction h with
  | here => exact hv
  | item before after _ ih => exact ih (hv.part (.item (by simp)))
  | member before after key _ ih =>
    cases hv with
    | obj _ hfields => exact ih (hfields (key, _) (by simp))

/-! ## Searching a list -/

theorem any_eq_of_forall₂ {α : Type} {R : α → α → Prop} {xs ys : List α} {p q : α → Bool}
    (h : List.Forall₂ R xs ys) (himp : ∀ a ∈ xs, ∀ b ∈ ys, R a b → p a = q b) :
    xs.any p = ys.any q := by
  induction h with
  | nil => rfl
  | @cons a b xs ys hab _ ih =>
    have hhead : p a = q b := himp a List.mem_cons_self b List.mem_cons_self hab
    have htail : xs.any p = ys.any q :=
      ih fun a ha b hb => himp a (List.mem_cons_of_mem _ ha) b (List.mem_cons_of_mem _ hb)
    rw [List.any_cons, List.any_cons, hhead, htail]

/-- Searching for the same in the same finds as much, or fails in the same way. -/
theorem contains_congr {v w x y : Value} (h : v.Same w) (hxy : x.Same y) :
    Query.contains (.value v.1) x.1 = Query.contains (.value w.1) y.1 := by
  obtain ⟨v, hv⟩ := v
  obtain ⟨w, hw⟩ := w
  cases (same_iff_matches hv hw).1 h with
  | null => rfl
  | bool b => rfl
  | num _ => rfl
  | obj _ => rfl
  | str s =>
    -- only a text is found in a text, and texts are the same if they are equal
    obtain ⟨x, hx⟩ := x
    obtain ⟨y, hy⟩ := y
    cases (same_iff_matches hx hy).1 hxy <;> rfl
  | @arr items others _ =>
    have hany : items.any (·.same x.1) = others.any (·.same y.1) := by
      apply any_eq_of_forall₂ (same_arr_iff.1 h)
      intro a ha b hb hab
      exact Value.Same.congr (v := ⟨a, hv.part (.item ha)⟩) (w := ⟨b, hw.part (.item hb)⟩) hab hxy
    exact congrArg (fun found => Except.ok (Json.bool found)) hany

/-- Sameness is an equivalence: values are the same if they are of one kind and the same part by
part. The order of fields, however deep, makes no difference to what a value is the same as. A
value in which a part is replaced by the same is the same, and a search does not tell the same
values apart. Values that are read from text are of the kind this holds of. -/
theorem same_equivalence :
    Equivalence Value.Same ∧
    (∀ v w : Value, v.Same w ↔ Matches v.1 w.1) ∧
    (∀ fields others : Fields, fields.Perm others → ∀ v w : Value,
      Replaced (.obj fields) (.obj others) v.1 w.1 →
      ∀ u : Value, (v.Same u ↔ w.Same u) ∧ (u.Same v ↔ u.Same w)) ∧
    (∀ x y v w : Value, Replaced x.1 y.1 v.1 w.1 → x.Same y → v.Same w) ∧
    (∀ v w x y : Value, v.Same w → x.Same y →
      Query.contains (.value v.1) x.1 = Query.contains (.value w.1) y.1) ∧
    ∀ text v, ofText? text = some v → v.DistinctKeys := by
  refine ⟨equivalence_same, fun v w => same_iff_matches v.2 w.2,
    fun fields others hperm v w hreplaced u => ?_,
    fun x y v w hreplaced hxy => hreplaced.same_of_same v.2 hxy,
    fun v w x y => contains_congr, fun text v => distinctKeys_of_ofText?⟩
  have hfields : same (.obj fields) (.obj others) = true :=
    (hreplaced.distinctKeys v.2).same_of_perm hperm
  have hvw : v.Same w := hreplaced.same_of_same v.2 hfields
  have huu : u.Same u := equivalence_same.refl u
  have hleft : same v.1 u.1 = same w.1 u.1 := hvw.congr huu
  have hright : same u.1 v.1 = same u.1 w.1 := huu.congr hvw
  exact ⟨Bool.eq_iff_iff.1 hleft, Bool.eq_iff_iff.1 hright⟩

/-- A barge with the berth it is for and what it carries. -/
def laden (load : Number) : Fields := [("berth", .str "north"), ("load", .num load)]

/-- The same fields, in the other order. -/
def turned (load : Number) : Fields := [("load", .num load), ("berth", .str "north")]

theorem perm_turned (load : Number) : (laden load).Perm (turned load) := .swap _ _ _

theorem distinctKeys_laden (load : Number) : DistinctKeys (.obj (laden load)) := by
  have hkeys : ["berth", "load"].Nodup := by decide
  exact .obj hkeys (List.forall_mem_cons.2 ⟨.str _, List.forall_mem_singleton.2 (.num _)⟩)

theorem distinctKeys_turned (load : Number) : DistinctKeys (.obj (turned load)) := by
  have hkeys : ["load", "berth"].Nodup := by decide
  exact .obj hkeys (List.forall_mem_cons.2 ⟨.num _, List.forall_mem_singleton.2 (.str _)⟩)

/-- A list of one barge. -/
def moored (load : Number) : Value :=
  ⟨.arr [.obj (laden load)], .arr (List.forall_mem_singleton.2 (distinctKeys_laden load))⟩

def mooredTurned (load : Number) : Value :=
  ⟨.arr [.obj (turned load)], .arr (List.forall_mem_singleton.2 (distinctKeys_turned load))⟩

/-- The number one, as a double. -/
def doubleOne : Number.Double := ⟨false, ⟨Nat.pow 2 52, 1022⟩, by decide⟩

/-- A load of one, as a whole number and as a double, its field in either place. -/
theorem same_equivalence_barges :
    (moored (.int 1)).Same (mooredTurned (.int 1)) ∧
    (moored (.int 1)).Same (moored (.double doubleOne)) ∧
    Query.contains (.value (moored (.int 1)).1) (.num (.int 1)) =
      Query.contains (.value (mooredTurned (.int 1)).1) (.num (.double doubleOne)) ∧
    ofText? "\x7b\"berth\":\"north\",\"berth\":\"south\"\x7d" =
      some (.obj [("berth", .str "south")]) ∧
    DistinctKeys (.obj [("berth", .str "south")]) := by
  obtain ⟨hequivalence, -, horder, hreplace, hcontains, hread⟩ := same_equivalence
  have hturned : (moored (.int 1)).Same (mooredTurned (.int 1)) := by
    have hsame := horder _ _ (perm_turned (.int 1)) (moored (.int 1)) (mooredTurned (.int 1))
      (.item [] [] .here) (mooredTurned (.int 1))
    exact hsame.1.2 (hequivalence.refl _)
  have hone : Value.Same ⟨.num (.int 1), .num _⟩ ⟨.num (.double doubleOne), .num _⟩ := by
    show same (.num (.int 1)) (.num (.double doubleOne)) = true
    decide +kernel
  have htext : ofText? "\x7b\"berth\":\"north\",\"berth\":\"south\"\x7d" =
      some (.obj [("berth", .str "south")]) := by cbv
  refine ⟨hturned, ?_, hcontains _ _ _ _ hturned hone, htext, hread _ _ htext⟩
  exact hreplace _ _ (moored (.int 1)) (moored (.double doubleOne))
    (.item [] [] (.member [("berth", .str "north")] [] "load" .here)) hone

end Json

end ResourceGraph
