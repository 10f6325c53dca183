import Mathlib.Data.String.Basic
import ResourceGraph.Query.Eval

/-!
# Sorting

A list is sorted by what an expression gives for each of its elements, its keys. These must be all
numbers or all texts; then the elements are rearranged so that the keys never decrease, and those
with equal keys stay in their order. Numbers are compared by their doubles, and so keys that are
written differently may be equal. Nothing is said about keys that cannot be evaluated.
-/
namespace ResourceGraph.Query

/-! ## Keys -/

/-- All keys are numbers, or all are texts. -/
def Sortable (keys : List Json) : Prop :=
  (∀ k ∈ keys, ∃ n, k = .num n) ∨ ∀ k ∈ keys, ∃ s, k = .str s

/-- Numbers are in the order of their doubles, texts in that of their code points. -/
inductive NoLater : Json → Json → Prop where
  | number {m n : Number} (h : m.units ≤ n.units) : NoLater (.num m) (.num n)
  | text {s t : String} (h : s.toList ≤ t.toList) : NoLater (.str s) (.str t)

def Tied (k l : Json) : Prop := NoLater k l ∧ NoLater l k

/-- The items in the order of their keys, those with equal keys in their own. -/
structure SortedBy (key : Json → Json) (items sorted : List Json) : Prop where
  perm : sorted.Perm items
  nondecreasing : sorted.Pairwise fun x y => NoLater (key x) (key y)
  /-- Items with equal keys are found in the sorted list in the order in which they were. -/
  stable : ∀ run : List Json, run.Sublist items →
    (run.Pairwise fun x y => Tied (key x) (key y)) → run.Sublist sorted

variable {keys items sorted : List Json} {key : Json → Json}

theorem sortable_iff :
    (keys.all isNumber || keys.all isText) = true ↔ Sortable keys := by
  have hnumber : ∀ k, isNumber k = true ↔ ∃ n, k = .num n := by
    intro k
    cases k <;> simp [isNumber]
  have htext : ∀ k, isText k = true ↔ ∃ s, k = .str s := by
    intro k
    cases k <;> simp [isText]
  simp [Sortable, hnumber, htext]

theorem sortsBefore_text {s t : String} :
    sortsBefore (.str s) (.str t) = decide (s ≤ t) := by
  rw [sortsBefore, ← decide_not]
  exact decide_eq_decide.2 not_lt

theorem sortsBefore_of_noLater {k l : Json} (h : NoLater k l) : sortsBefore k l = true := by
  cases h with
  | number h => exact decide_eq_true h
  | text h =>
    rw [sortsBefore_text]
    exact decide_eq_true (String.le_iff_toList_le.2 h)

/-! ## The order of the elements -/

section Rank

variable {κ : Type} [LinearOrder κ]

/-- Sorting is stable where the keys are compared by ranks in a linear order. Keys of different
kinds have none, so the ranks agree with the comparison for the keys of the items only. -/
theorem sortedBy_of_rank (rank : Json → κ)
    (hsorts : ∀ x ∈ items, ∀ y ∈ items,
      sortsBefore (key x) (key y) = decide (rank (key x) ≤ rank (key y)))
    (hrank : ∀ x ∈ items, ∀ y ∈ items,
      NoLater (key x) (key y) ↔ rank (key x) ≤ rank (key y)) :
    SortedBy key items (items.mergeSort fun x y => sortsBefore (key x) (key y)) := by
  have hranked : (items.mergeSort fun x y => sortsBefore (key x) (key y)) =
      items.mergeSort fun x y => decide (rank (key x) ≤ rank (key y)) := by
    simpa using List.map_mergeSort (f := id) hsorts
  have htrans : ∀ x y z : Json, decide (rank (key x) ≤ rank (key y)) = true →
      decide (rank (key y) ≤ rank (key z)) = true →
      decide (rank (key x) ≤ rank (key z)) = true := by
    intro x y z hxy hyz
    exact decide_eq_true (le_trans (of_decide_eq_true hxy) (of_decide_eq_true hyz))
  have htotal : ∀ x y : Json,
      (decide (rank (key x) ≤ rank (key y)) || decide (rank (key y) ≤ rank (key x))) = true := by
    intro x y
    rw [Bool.or_eq_true, decide_eq_true_iff, decide_eq_true_iff]
    exact le_total _ _
  rw [hranked]
  refine ⟨List.mergeSort_perm .., ?_, fun run hrun htied => ?_⟩
  · refine (List.pairwise_mergeSort htrans htotal items).imp_of_mem fun hx hy hle => ?_
    exact (hrank _ (List.mem_mergeSort.1 hx) _ (List.mem_mergeSort.1 hy)).2 (of_decide_eq_true hle)
  · refine List.sublist_mergeSort htrans htotal ?_ hrun
    refine htied.imp_of_mem fun hx hy htie => ?_
    exact decide_eq_true ((hrank _ (hrun.subset hx) _ (hrun.subset hy)).1 htie.1)

end Rank

/-- The double of a number; texts have none. -/
def numberRank : Json → Int
  | .num n => n.units
  | _ => 0

/-- A text itself; numbers are none. -/
def textRank : Json → String
  | .str s => s
  | _ => ""

theorem sortedBy_mergeSort (h : Sortable (items.map key)) :
    SortedBy key items (items.mergeSort fun x y => sortsBefore (key x) (key y)) := by
  rw [Sortable, List.forall_mem_map, List.forall_mem_map] at h
  rcases h with hnumbers | htexts
  · refine sortedBy_of_rank numberRank (fun x hx y hy => ?_) fun x hx y hy => ?_
    · obtain ⟨m, hm⟩ := hnumbers x hx
      obtain ⟨n, hn⟩ := hnumbers y hy
      rw [hm, hn]
      rfl
    · obtain ⟨m, hm⟩ := hnumbers x hx
      obtain ⟨n, hn⟩ := hnumbers y hy
      rw [hm, hn]
      exact ⟨fun | .number h => h, .number⟩
  · refine sortedBy_of_rank textRank (fun x hx y hy => ?_) fun x hx y hy => ?_
    · obtain ⟨s, hs⟩ := htexts x hx
      obtain ⟨t, ht⟩ := htexts y hy
      rw [hs, ht]
      exact sortsBefore_text
    · obtain ⟨s, hs⟩ := htexts x hx
      obtain ⟨t, ht⟩ := htexts y hy
      rw [hs, ht]
      exact ⟨fun | .text h => String.le_iff_toList_le.2 h,
        fun h => .text (String.le_iff_toList_le.1 h)⟩

/-- A list that is in order stays as it is. -/
theorem SortedBy.mergeSort_eq (h : SortedBy key items sorted) :
    (sorted.mergeSort fun x y => sortsBefore (key x) (key y)) = sorted :=
  List.mergeSort_of_pairwise (h.nondecreasing.imp sortsBefore_of_noLater)

theorem SortedBy.sortable (h : SortedBy key items sorted) (hkeys : Sortable (items.map key)) :
    Sortable (sorted.map key) := by
  have hmem : ∀ k, k ∈ sorted.map key ↔ k ∈ items.map key := fun k => (h.perm.map key).mem_iff
  simpa only [Sortable, hmem] using hkeys

/-! ## The two functions -/

theorem sortByKeys?_of_sortable (h : Sortable (items.map key)) :
    sortByKeys? (items.map key) items =
      some (items.mergeSort fun x y => sortsBefore (key x) (key y)) := by
  have hsort : (((items.map key).zip items).mergeSort fun a b => sortsBefore a.1 b.1).map (·.2) =
      (((items.map key).zip items).map (·.2)).mergeSort
        fun x y => sortsBefore (key x) (key y) := by
    refine List.map_mergeSort fun a ha b hb => ?_
    rw [← List.map_prod_right_eq_zip] at ha hb
    obtain ⟨x, -, rfl⟩ := List.mem_map.1 ha
    obtain ⟨y, -, rfl⟩ := List.mem_map.1 hb
    rfl
  have hitems : ((items.map key).zip items).map (·.2) = items :=
    List.map_snd_zip (Nat.le_of_eq (List.length_map ..).symm)
  rw [sortByKeys?, if_pos (sortable_iff.2 h), hsort, hitems]

theorem sortByKeys?_of_not_sortable (h : ¬ Sortable keys) : sortByKeys? keys items = none :=
  if_neg (mt sortable_iff.1 h)

theorem mapM_eq_ok {body : Body} (h : ∀ item ∈ items, body item = .ok (key item)) :
    items.mapM body = .ok (items.map key) := by
  induction items with
  | nil => rfl
  | cons item items ih =>
    obtain ⟨hitem, hrest⟩ := List.forall_mem_cons.1 h
    rw [List.mapM_cons, hitem, ih hrest]
    rfl

section Functions

variable {body : Body}

theorem sortBy_arr : sortBy (.value (.arr items)) (.reference body) =
    items.mapM body >>= fun keys => match sortByKeys? keys items with
      | some sorted => .ok (.arr sorted)
      | none => .error (.wrongType "sort_by" .sortable .reference) :=
  rfl

theorem sort_arr : sort (.value (.arr items)) = match sortByKeys? items items with
    | some sorted => .ok (.arr sorted)
    | none => .error (.wrongType "sort" .sortable .array) :=
  rfl

theorem sortBy_of_sortable (hbody : ∀ item ∈ items, body item = .ok (key item))
    (h : Sortable (items.map key)) :
    sortBy (.value (.arr items)) (.reference body) =
      .ok (.arr (items.mergeSort fun x y => sortsBefore (key x) (key y))) := by
  rw [sortBy_arr, mapM_eq_ok hbody]
  simp only [bind, Except.bind, sortByKeys?_of_sortable h]

theorem sortBy_of_not_sortable (hbody : ∀ item ∈ items, body item = .ok (key item))
    (h : ¬ Sortable (items.map key)) :
    sortBy (.value (.arr items)) (.reference body) =
      .error (.wrongType "sort_by" .sortable .reference) := by
  rw [sortBy_arr, mapM_eq_ok hbody]
  simp only [bind, Except.bind, sortByKeys?_of_not_sortable h]

/-- The elements are their own keys. -/
theorem sort_of_sortable (h : Sortable items) :
    sort (.value (.arr items)) =
      .ok (.arr (items.mergeSort fun x y => sortsBefore (id x) (id y))) := by
  have hkeys : Sortable (items.map id) := by rwa [List.map_id]
  have hsort := sortByKeys?_of_sortable hkeys
  rw [List.map_id] at hsort
  rw [sort_arr, hsort]

theorem sort_of_not_sortable (h : ¬ Sortable items) :
    sort (.value (.arr items)) = .error (.wrongType "sort" .sortable .array) := by
  rw [sort_arr, sortByKeys?_of_not_sortable h]

end Functions

/-! ## Calls -/

section Calls

variable {source each : Expr} {data v : Json} {es : List Expr} {fault : QueryError}

/-- A reference has the value null, so what gives another value is handed over as that value. -/
theorem evalArgs_cons_of_ok (h : eval source data = .ok v) (hv : v ≠ .null) :
    evalArgs (source :: es) data = (evalArgs es data).map (.value v :: ·) := by
  have hne : ∀ e, source = .reference e → False := by
    rintro e rfl
    rw [eval] at h
    exact hv (Except.ok.inj h).symm
  rw [evalArgs.eq_3 _ _ _ hne, h]
  rfl

theorem evalArgs_cons_of_error (h : eval source data = .error fault) :
    evalArgs (source :: es) data = .error fault := by
  have hne : ∀ e, source = .reference e → False := by
    rintro e rfl
    rw [eval] at h
    cases h
  rw [evalArgs.eq_3 _ _ _ hne, h]
  rfl

theorem eval_call_of_error {name : String} (h : eval source data = .error fault) :
    eval (.call name (source :: es)) data = .error fault := by
  rw [eval, evalArgs_cons_of_error h]
  rfl

theorem eval_sort (h : eval source data = .ok (.arr items)) :
    eval (.call "sort" [source]) data = sort (.value (.arr items)) := by
  rw [eval, evalArgs_cons_of_ok h (by simp), evalArgs]
  rfl

theorem eval_sort_by (h : eval source data = .ok (.arr items)) :
    eval (.call "sort_by" [source, .reference each]) data =
      sortBy (.value (.arr items)) (.reference (eval each)) := by
  rw [eval, evalArgs_cons_of_ok h (by simp), evalArgs, evalArgs]
  rfl

theorem eval_sort_by_sorted (h : eval source data = .ok (.arr items))
    (heach : ∀ item ∈ items, eval each item = .ok (key item))
    (hkeys : Sortable (items.map key)) :
    ∃ sorted, eval (.call "sort_by" [source, .reference each]) data = .ok (.arr sorted) ∧
      SortedBy key items sorted :=
  ⟨_, (eval_sort_by h).trans (sortBy_of_sortable heach hkeys), sortedBy_mergeSort hkeys⟩

theorem eval_sort_by_refused (h : eval source data = .ok (.arr items))
    (heach : ∀ item ∈ items, eval each item = .ok (key item))
    (hkeys : ¬ Sortable (items.map key)) :
    eval (.call "sort_by" [source, .reference each]) data =
      .error (.wrongType "sort_by" .sortable .reference) :=
  (eval_sort_by h).trans (sortBy_of_not_sortable heach hkeys)

/-- Sorting what is sorted changes nothing. -/
theorem eval_sort_by_twice (h : eval source data = .ok (.arr items))
    (heach : ∀ item ∈ items, eval each item = .ok (key item)) :
    eval (.call "sort_by" [.call "sort_by" [source, .reference each], .reference each]) data =
      eval (.call "sort_by" [source, .reference each]) data := by
  by_cases hkeys : Sortable (items.map key)
  · obtain ⟨sorted, hsorted, hby⟩ := eval_sort_by_sorted h heach hkeys
    have hagain : ∀ item ∈ sorted, eval each item = .ok (key item) :=
      fun item hitem => heach item (hby.perm.mem_iff.1 hitem)
    rw [eval_sort_by hsorted, sortBy_of_sortable hagain (hby.sortable hkeys), hby.mergeSort_eq,
      hsorted]
  · have hrefused := eval_sort_by_refused h heach hkeys
    rw [hrefused, eval_call_of_error hrefused]

theorem eval_current : ∀ item ∈ items, eval .current item = .ok (id item) :=
  fun item _ => by rw [eval, id]

/-- Where the elements can be sorted, both functions give the same list; where they cannot, both
fail. -/
theorem eval_sort_eq_ok_iff (h : eval source data = .ok (.arr items)) :
    eval (.call "sort" [source]) data = .ok v ↔
      eval (.call "sort_by" [source, .reference .current]) data = .ok v := by
  rw [eval_sort h, eval_sort_by h]
  by_cases hitems : Sortable items
  · have hkeys : Sortable (items.map id) := by rwa [List.map_id]
    rw [sort_of_sortable hitems, sortBy_of_sortable eval_current hkeys]
  · have hkeys : ¬ Sortable (items.map id) := by rwa [List.map_id]
    rw [sort_of_not_sortable hitems, sortBy_of_not_sortable eval_current hkeys]
    exact ⟨nofun, nofun⟩

theorem eval_sort_twice (h : eval source data = .ok (.arr items)) :
    eval (.call "sort" [.call "sort" [source]]) data = eval (.call "sort" [source]) data := by
  by_cases hitems : Sortable items
  · have hkeys : Sortable (items.map id) := by rwa [List.map_id]
    have hby := sortedBy_mergeSort hkeys
    have hagain := hby.sortable hkeys
    have hsorted := (eval_sort h).trans (sort_of_sortable hitems)
    rw [List.map_id] at hagain
    rw [eval_sort hsorted, sort_of_sortable hagain, hby.mergeSort_eq, hsorted]
  · have hrefused := (eval_sort h).trans (sort_of_not_sortable hitems)
    rw [hrefused, eval_call_of_error hrefused]

/-- A list whose elements have keys can be sorted exactly if the keys are all numbers or all texts,
and else its keys are refused. What comes out are its elements in the order of their keys, those
with equal keys in their own. To sort it a second time changes nothing. Sorting without an
expression takes the elements themselves as keys, and refuses the list. -/
theorem eval_sort_by_iff (h : eval source data = .ok (.arr items))
    (heach : ∀ item ∈ items, eval each item = .ok (key item)) :
    ((∃ v, eval (.call "sort_by" [source, .reference each]) data = .ok v) ↔
      Sortable (items.map key)) ∧
    (∀ v, eval (.call "sort_by" [source, .reference each]) data = .ok v →
      ∃ sorted, v = .arr sorted ∧ SortedBy key items sorted) ∧
    (¬ Sortable (items.map key) → eval (.call "sort_by" [source, .reference each]) data =
      .error (.wrongType "sort_by" .sortable .reference)) ∧
    eval (.call "sort_by" [.call "sort_by" [source, .reference each], .reference each]) data =
      eval (.call "sort_by" [source, .reference each]) data ∧
    (∀ v, eval (.call "sort" [source]) data = .ok v ↔
      eval (.call "sort_by" [source, .reference .current]) data = .ok v) ∧
    (¬ Sortable items → eval (.call "sort" [source]) data =
      .error (.wrongType "sort" .sortable .array)) ∧
    eval (.call "sort" [.call "sort" [source]]) data = eval (.call "sort" [source]) data := by
  have hrefused := eval_sort_by_refused h heach
  refine ⟨⟨fun hok => ?_, fun hkeys => ?_⟩, fun v hv => ?_, hrefused, eval_sort_by_twice h heach,
    fun v => eval_sort_eq_ok_iff h, fun hitems => (eval_sort h).trans (sort_of_not_sortable hitems),
    eval_sort_twice h⟩
  · obtain ⟨v, hv⟩ := hok
    by_contra hkeys
    rw [hrefused hkeys] at hv
    cases hv
  · obtain ⟨sorted, hsorted, -⟩ := eval_sort_by_sorted h heach hkeys
    exact ⟨_, hsorted⟩
  · by_cases hkeys : Sortable (items.map key)
    · obtain ⟨sorted, hsorted, hby⟩ := eval_sort_by_sorted h heach hkeys
      rw [hsorted] at hv
      exact ⟨sorted, (Except.ok.inj hv).symm, hby⟩
    · rw [hrefused hkeys] at hv
      cases hv

end Calls

/-! ## Equal keys -/

/-- The name of a ship and how much it carries. -/
def ship (name : String) (load : Int) : Json :=
  .obj [("name", .str name), ("load", .num (.int load))]

/-- The first two loads have one double. -/
def ships : List Json := [ship "b" 9007199254740993, ship "a" 9007199254740992, ship "c" 7]

def loadOf (item : Json) : Json := (item.field? "load").getD .null

theorem mergeSort_ships :
    (ships.mergeSort fun x y => sortsBefore (loadOf x) (loadOf y)) =
      [ship "c" 7, ship "b" 9007199254740993, ship "a" 9007199254740992] := by
  have htied : sortsBefore (loadOf (ship "b" 9007199254740993))
      (loadOf (ship "a" 9007199254740992)) = true := by decide +kernel
  have hlight : sortsBefore (loadOf (ship "b" 9007199254740993)) (loadOf (ship "c" 7)) = false := by
    decide +kernel
  simp [ships, List.mergeSort, htied, hlight]

/-- The light ship comes first, and the other two as they were. -/
theorem eval_sort_by_load :
    (∀ item ∈ ships, eval (.field "load") item = .ok (loadOf item)) ∧
      Sortable (ships.map loadOf) ∧
      eval (.call "sort_by" [.current, .reference (.field "load")]) (.arr ships) =
        .ok (.arr [ship "c" 7, ship "b" 9007199254740993, ship "a" 9007199254740992]) ∧
      SortedBy loadOf ships
        [ship "c" 7, ship "b" 9007199254740993, ship "a" 9007199254740992] := by
  have hsource : eval .current (.arr ships) = .ok (.arr ships) := by rw [eval]
  have heach : ∀ item ∈ ships, eval (.field "load") item = .ok (loadOf item) :=
    fun item _ => by rw [eval, loadOf]
  have hkeys : Sortable (ships.map loadOf) := sortable_iff.1 (by decide)
  have hsorted : eval (.call "sort_by" [.current, .reference (.field "load")]) (.arr ships) =
      .ok (.arr [ship "c" 7, ship "b" 9007199254740993, ship "a" 9007199254740992]) := by
    rw [eval_sort_by hsource, sortBy_of_sortable heach hkeys, mergeSort_ships]
  obtain ⟨-, hby, -⟩ := eval_sort_by_iff hsource heach
  obtain ⟨sorted, heq, hby⟩ := hby _ hsorted
  cases heq
  exact ⟨heach, hkeys, hsorted, hby⟩

end ResourceGraph.Query
