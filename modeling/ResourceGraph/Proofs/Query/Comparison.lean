import ResourceGraph.Proofs.Json.Sameness
import ResourceGraph.Proofs.Number.WholeDouble
import ResourceGraph.Proofs.Query.Lexing
import ResourceGraph.Proofs.Query.Sorting

/-!
# Comparing whole numbers

Two whole numbers are compared as the doubles nearest to them. This agrees with the numbers unless
they are different and have the same double: then they pass for one number, and the lists and
objects they stand in for one value. No number of at most 53 binary digits passes for another.
-/
namespace ResourceGraph.Query

open Number (nearestDouble)

variable {left right list needle : Expr} {data v w : Json} {front back : List Json}
  {a b x y : Int}

/-! ## The order of two numbers -/

/-- What the comparison says of two whole numbers. -/
def Comparator.holds : Comparator → Int → Int → Bool
  | .eq, a, b => a == b
  | .ne, a, b => a != b
  | .lt, a, b => decide (a < b)
  | .le, a, b => decide (a ≤ b)
  | .gt, a, b => decide (a > b)
  | .ge, a, b => decide (a ≥ b)

/-- Numbers in the same order are compared alike. -/
theorem Comparator.holds_congr (op : Comparator) (hlt : x < y ↔ a < b) (hgt : y < x ↔ b < a) :
    op.holds x y = op.holds a b := by
  cases op with
  | eq => exact Bool.eq_iff_iff.2 (by simp only [holds, beq_iff_eq]; omega)
  | ne => exact Bool.eq_iff_iff.2 (by simp only [holds, bne_iff_ne]; omega)
  | lt => exact decide_eq_decide.2 hlt
  | le => exact decide_eq_decide.2 (by omega)
  | gt => exact decide_eq_decide.2 hgt
  | ge => exact decide_eq_decide.2 (by omega)

theorem holds_nearestDouble_iff :
    (∀ op : Comparator, op.holds (nearestDouble a) (nearestDouble b) = op.holds a b) ↔
      a = b ∨ nearestDouble a ≠ nearestDouble b := by
  constructor
  · intro h
    refine Decidable.or_iff_not_imp_right.2 fun hsame => ?_
    have heq := h .eq
    simpa [Comparator.holds, Decidable.not_not.1 hsame] using heq.symm
  · rintro (rfl | hne) op
    · exact op.holds_congr (by simp) (by simp)
    · have hle := Number.nearestDouble_mono (i := a) (j := b)
      have hge := Number.nearestDouble_mono (i := b) (j := a)
      exact op.holds_congr (by omega) (by omega)

theorem compareValues_int (op : Comparator) (a b : Int) :
    compareValues op (.ofInt a) (.ofInt b) =
      .bool (op.holds (nearestDouble a) (nearestDouble b)) := by
  have hsame : (Json.ofInt a).same (.ofInt b) = (nearestDouble a == nearestDouble b) :=
    Number.same_int a b
  have horder := Number.order_int a b
  cases op with
  | eq => exact congrArg Json.bool hsame
  | ne => exact congrArg (fun e => Json.bool !e) hsame
  | lt =>
    refine congrArg Json.bool (Bool.eq_iff_iff.2 ?_)
    rw [horder, beq_iff_eq, compare_lt_iff_lt, Comparator.holds, decide_eq_true_iff]
  | le =>
    refine congrArg Json.bool (Bool.eq_iff_iff.2 ?_)
    rw [horder, bne_iff_ne, compare_le_iff_le, Comparator.holds, decide_eq_true_iff]
  | gt =>
    refine congrArg Json.bool (Bool.eq_iff_iff.2 ?_)
    rw [horder, beq_iff_eq, compare_gt_iff_gt, Comparator.holds, decide_eq_true_iff]
  | ge =>
    refine congrArg Json.bool (Bool.eq_iff_iff.2 ?_)
    rw [horder, bne_iff_ne, compare_ge_iff_ge, Comparator.holds, decide_eq_true_iff]

/-! ## What the operators and the search in a list say -/

theorem eval_compare (op : Comparator) (hleft : eval left data = .ok v)
    (hright : eval right data = .ok w) :
    eval (.compare op left right) data = .ok (compareValues op v w) := by
  rw [eval, hleft, hright]
  rfl

theorem eval_contains {items : List Json} (hlist : eval list data = .ok (.arr items))
    (hneedle : eval needle data = .ok w) (hw : w ≠ .null) :
    eval (.call "contains" [list, needle]) data = .ok (.bool (items.any (·.same w))) := by
  rw [eval, evalArgs_cons_of_ok hlist (by simp), evalArgs_cons_of_ok hneedle hw, evalArgs]
  rfl

/-- The values differ for the operators, and one is found in a list with the other only if it is
found without it. -/
structure ToldApart (v w : Json) : Prop where
  eq : ∀ {left right : Expr} {data : Json}, eval left data = .ok v → eval right data = .ok w →
    eval (.compare .eq left right) data = .ok (.bool false)
  ne : ∀ {left right : Expr} {data : Json}, eval left data = .ok v → eval right data = .ok w →
    eval (.compare .ne left right) data = .ok (.bool true)
  contains : ∀ {list needle : Expr} {data : Json} {front back : List Json},
    eval list data = .ok (.arr (front ++ v :: back)) → eval needle data = .ok w →
    eval (.call "contains" [list, needle]) data = .ok (.bool ((front ++ back).any (·.same w)))

/-- The values are equal for the operators, and one is found in a list with the other. -/
structure PassForOne (v w : Json) : Prop where
  eq : ∀ {left right : Expr} {data : Json}, eval left data = .ok v → eval right data = .ok w →
    eval (.compare .eq left right) data = .ok (.bool true)
  ne : ∀ {left right : Expr} {data : Json}, eval left data = .ok v → eval right data = .ok w →
    eval (.compare .ne left right) data = .ok (.bool false)
  contains : ∀ {list needle : Expr} {data : Json} {front back : List Json},
    eval list data = .ok (.arr (front ++ v :: back)) → eval needle data = .ok w →
    eval (.call "contains" [list, needle]) data = .ok (.bool true)

theorem toldApart_of_not_same (hsame : v.same w = false) (hw : w ≠ .null) : ToldApart v w where
  eq hleft hright := by rw [eval_compare _ hleft hright, compareValues, hsame]
  ne hleft hright := by rw [eval_compare _ hleft hright, compareValues, hsame]; rfl
  contains hlist hneedle := by
    rw [eval_contains hlist hneedle hw]
    simp [hsame]

theorem passForOne_of_same (hsame : v.same w = true) (hw : w ≠ .null) : PassForOne v w where
  eq hleft hright := by rw [eval_compare _ hleft hright, compareValues, hsame]
  ne hleft hright := by rw [eval_compare _ hleft hright, compareValues, hsame]; rfl
  contains hlist hneedle := by
    rw [eval_contains hlist hneedle hw]
    simp [hsame]

/-! ## Whole numbers and what they stand in -/

theorem same_ofInt_iff :
    (Json.ofInt a).same (.ofInt b) = true ↔ nearestDouble a = nearestDouble b := by
  rw [show (Json.ofInt a).same (.ofInt b) = _ from Number.same_int a b, decide_eq_true_iff]

theorem ne_null_of_facing (h : Json.Facing (.ofInt a) (.ofInt b) v w) : w ≠ .null := by
  cases h <;> simp [Json.ofInt]

/-- Whole numbers are compared as their nearest doubles, which agrees with the numbers exactly if
they are equal or their doubles are not. The doubles of different numbers are different if one of
the numbers has at most 53 binary digits. Values that have two numbers of different doubles in the
same place are told apart. Values that differ in nothing but two numbers of one double pass for
one. No double is nearer to a number than the one that it is compared as. -/
theorem integers_compared (a b : Int) :
    (∀ {left right : Expr} {data : Json}, eval left data = .ok (.ofInt a) →
      eval right data = .ok (.ofInt b) → ∀ op, eval (.compare op left right) data =
        .ok (.bool (op.holds (nearestDouble a) (nearestDouble b)))) ∧
    ((∀ op : Comparator, op.holds (nearestDouble a) (nearestDouble b) = op.holds a b) ↔
      a = b ∨ nearestDouble a ≠ nearestDouble b) ∧
    (a ≠ b → a.natAbs < 2 ^ 53 ∨ b.natAbs < 2 ^ 53 → nearestDouble a ≠ nearestDouble b) ∧
    (nearestDouble a ≠ nearestDouble b → ∀ {v w : Json},
      Json.Facing (.ofInt a) (.ofInt b) v w → ToldApart v w) ∧
    (nearestDouble a = nearestDouble b → ∀ {v w : Json}, v.DistinctKeys →
      Json.Replaced (.ofInt a) (.ofInt b) v w → PassForOne v w) ∧
    Number.IsDouble (nearestDouble a).natAbs ∧
    ∀ d : Int, Number.IsDouble d.natAbs → (nearestDouble a - a).natAbs ≤ (d - a).natAbs := by
  refine ⟨fun hleft hright op => ?_, holds_nearestDouble_iff, fun hne hsmall hsame => ?_,
    fun hne v w hfacing => ?_, fun hsame v w hdistinct hreplaced => ?_,
    Number.isDouble_nearestDouble a, fun d hd => Number.nearestDouble_nearest hd a⟩
  · rw [eval_compare op hleft hright, compareValues_int]
  · rcases hsmall with ha | hb
    · exact hne (Number.nearestDouble_inj ha hsame)
    · exact hne (Number.nearestDouble_inj hb hsame.symm).symm
  · refine toldApart_of_not_same (Bool.eq_false_iff.2 fun hsame => ?_) (ne_null_of_facing hfacing)
    exact hne (same_ofInt_iff.1 (hfacing.same_of_same hsame))
  · exact passForOne_of_same (hreplaced.same_of_same hdistinct (same_ofInt_iff.2 hsame))
      (ne_null_of_facing (hreplaced.facing hdistinct))

/-- A barge with the berth it is for and what it carries. -/
def barge (load : Int) : Json :=
  .arr [.str "barge", .obj [("berth", .str "north"), ("load", .ofInt load)]]

theorem barge_distinctKeys (load : Int) : (barge load).DistinctKeys := by
  have hfields : Json.DistinctKeys (.obj [("berth", .str "north"), ("load", .ofInt load)]) := by
    refine .obj (by simp [Fields.keys]) (List.forall_mem_cons.2 ⟨.str _, ?_⟩)
    exact List.forall_mem_cons.2 ⟨.num _, List.forall_mem_nil _⟩
  refine .arr (List.forall_mem_cons.2 ⟨.str _, ?_⟩)
  exact List.forall_mem_cons.2 ⟨hfields, List.forall_mem_nil _⟩

theorem barge_replaced (a b : Int) : Json.Replaced (.ofInt a) (.ofInt b) (barge a) (barge b) :=
  .item [.str "barge"] [] (.member [("berth", .str "north")] [] "load" .here)

theorem integers_compared_barge :
    (∀ op, eval (.compare op (.field "load") (.literal (.ofInt 9007199254740992)))
        (.obj [("load", .ofInt 9007199254740991)]) =
      .ok (.bool (op.holds 9007199254740991 9007199254740992))) ∧
    ToldApart (barge 9007199254740991) (barge 9007199254740992) ∧
    PassForOne (barge 9007199254740992) (barge 9007199254740993) := by
  obtain ⟨hcompare, hiff, hsmall, happart, -⟩ :=
    integers_compared 9007199254740991 9007199254740992
  have hne := hsmall (by decide) (.inl (by decide))
  refine ⟨fun op => ?_, happart hne ((barge_replaced _ _).facing (barge_distinctKeys _)), ?_⟩
  · rw [hcompare (by rw [eval]; rfl) (by rw [eval]) op, hiff.2 (.inr hne)]
  · obtain ⟨-, -, -, -, hone, -⟩ := integers_compared 9007199254740992 9007199254740993
    exact hone (by decide) (barge_distinctKeys _) (barge_replaced _ _)

/-- A load and the limit above it, alone and in lists. -/
def scales : Json :=
  .obj [("load", .ofInt 9007199254740992), ("limit", .ofInt 9007199254740993),
    ("loads", .arr [.ofInt 9007199254740992]), ("limits", .arr [.ofInt 9007199254740993])]

/-- Both numbers fit 64 bits and are kept exactly, but not told apart. -/
theorem limit_passes_for_load :
    Number.InRange 9007199254740992 ∧ Number.InRange 9007199254740993 ∧
    (ofText "load == limit").bind (·.search scales) = .ok (.bool true) ∧
    (ofText "load < limit").bind (·.search scales) = .ok (.bool false) ∧
    (ofText "loads == limits").bind (·.search scales) = .ok (.bool true) ∧
    (ofText "contains(loads, limit)").bind (·.search scales) = .ok (.bool true) := by
  have hsame : (Json.ofInt 9007199254740992).same (.ofInt 9007199254740993) = true :=
    same_ofInt_iff.2 (by decide)
  have hone := passForOne_of_same hsame (by simp [Json.ofInt])
  have hlists := passForOne_of_same (Json.same_arr_iff.2 (.cons hsame .nil)) (by simp)
  have hload : eval (.field "load") scales = .ok (.ofInt 9007199254740992) := by
    rw [eval]
    rfl
  have hlimit : eval (.field "limit") scales = .ok (.ofInt 9007199254740993) := by
    rw [eval]
    rfl
  have hloads : eval (.field "loads") scales =
      .ok (.arr ([] ++ .ofInt 9007199254740992 :: [])) := by
    rw [eval]
    rfl
  have hlimits : eval (.field "limits") scales = .ok (.arr [.ofInt 9007199254740993]) := by
    rw [eval]
    rfl
  refine ⟨by decide, by decide, ?_, ?_, ?_, ?_⟩
  · have hread : ofText "load == limit" =
        .ok ⟨"load == limit", .compare .eq (.field "load") (.field "limit")⟩ :=
      ofText_eq_ok_of_tokens [.identifier "load", .eq, .identifier "limit"] rfl rfl rfl
    rw [hread]
    exact hone.eq hload hlimit
  · have hread : ofText "load < limit" =
        .ok ⟨"load < limit", .compare .lt (.field "load") (.field "limit")⟩ :=
      ofText_eq_ok_of_tokens [.identifier "load", .lt, .identifier "limit"] rfl rfl rfl
    rw [hread]
    refine (eval_compare .lt hload hlimit).trans ?_
    rw [compareValues_int, show Comparator.holds _ _ _ = false by decide]
  · have hread : ofText "loads == limits" =
        .ok ⟨"loads == limits", .compare .eq (.field "loads") (.field "limits")⟩ :=
      ofText_eq_ok_of_tokens [.identifier "loads", .eq, .identifier "limits"] rfl rfl rfl
    rw [hread]
    exact hlists.eq hloads hlimits
  · have hread : ofText "contains(loads, limit)" =
        .ok ⟨"contains(loads, limit)", .call "contains" [.field "loads", .field "limit"]⟩ :=
      ofText_eq_ok_of_tokens [.identifier "contains", .lparen, .identifier "loads", .comma,
        .identifier "limit", .rparen] rfl rfl rfl
    rw [hread]
    exact hone.contains hloads hlimit

end ResourceGraph.Query
