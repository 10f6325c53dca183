import ResourceGraph.Query.Eval
import ResourceGraph.Proofs.Query.Bracket

/-!
# The elements that indexes and slices take

The parts of a slice that is read from a query are words of 64 bits with a sign, and its step is
not zero. On such slices the loop over a list ends, stays inside the list and within words, and
takes the elements that stand whole numbers of steps after the first one, up to the last that comes
before the end of the slice. Where words matter, the length of the list is one.
-/
namespace ResourceGraph.Query

/-! ## Words -/

/-- A number of 64 bits, one of them for the sign. -/
def IsWord (n : Int) : Prop := -Int.pow 2 63 ≤ n ∧ n < Int.pow 2 63

theorem isWord_iff {n : Int} : IsWord n ↔ -9223372036854775808 ≤ n ∧ n < 9223372036854775808 := by
  have hpow : Int.pow 2 63 = 9223372036854775808 := by decide
  rw [IsWord, hpow]

instance (n : Int) : Decidable (IsWord n) := inferInstanceAs (Decidable (_ ∧ _))

/-- The sum, if it is a word. -/
def addWord? (a b : Int) : Option Int := if IsWord (a + b) then some (a + b) else none

/-! ## The loop -/

/-- Whether the place `i` comes before `stop` where places are passed by `step`. -/
def Before (step i stop : Int) : Prop := if 0 < step then i < stop else stop < i

instance (step i stop : Int) : Decidable (Before step i stop) :=
  inferInstanceAs (Decidable (ite _ _ _))

/-- The elements that the loop collects from the place `i` on. It ends at `stop`, or if the next
place is no word; there is no rule for a place outside the list. -/
inductive Collects (items : List Json) (stop step : Int) : Int → List Json → Prop
  | done {i : Int} : ¬ Before step i stop → Collects items stop step i []
  | leave {i : Int} {item : Json} : Before step i stop → 0 ≤ i → items[i.toNat]? = some item →
      addWord? i step = none → Collects items stop step i [item]
  | next {i i' : Int} {item : Json} {out : List Json} : Before step i stop → 0 ≤ i →
      items[i.toNat]? = some item → addWord? i step = some i' → Collects items stop step i' out →
      Collects items stop step i (item :: out)

theorem Collects.unique {items : List Json} {stop step i : Int} {out out' : List Json}
    (h : Collects items stop step i out) (h' : Collects items stop step i out') : out' = out := by
  induction h generalizing out' with
  | done hdone =>
    cases h' with
    | done => rfl
    | leave hbefore => exact absurd hbefore hdone
    | next hbefore => exact absurd hbefore hdone
  | leave hbefore _ hitem hnone =>
    cases h' with
    | done hdone => exact absurd hbefore hdone
    | leave _ _ hitem' => rw [hitem] at hitem'; cases hitem'; rfl
    | next _ _ _ hsome => rw [hnone] at hsome; exact nomatch hsome
  | next hbefore _ hitem hsome _ ih =>
    cases h' with
    | done hdone => exact absurd hbefore hdone
    | leave _ _ _ hnone => rw [hsome] at hnone; exact nomatch hnone
    | next _ _ hitem' hsome' hrest =>
      rw [hitem] at hitem'
      rw [hsome] at hsome'
      cases hitem'
      cases hsome'
      rw [ih hrest]

/-- With step zero the loop does not end once it is entered. -/
theorem not_collects_of_step_zero {items out : List Json} {stop i : Int} (hi : IsWord i)
    (hbefore : stop < i) : ¬ Collects items stop 0 i out := by
  intro h
  generalize hstep : (0 : Int) = step at h
  induction h with
  | done hdone =>
    subst hstep
    exact hdone hbefore
  | leave _ _ _ hnone =>
    subst hstep
    rw [addWord?, Int.add_zero, if_pos hi] at hnone
    exact nomatch hnone
  | next _ _ _ hsome _ ih =>
    subst hstep
    rw [addWord?, Int.add_zero, if_pos hi] at hsome
    cases hsome
    exact ih hi hbefore

/-! ## Where the loop starts and ends -/

namespace Slice

/-- A bound within two limits, by words. Negative bounds count from the end. -/
def clampWord? (bound length low high : Int) : Option Int := do
  let b ← if bound < 0 then addWord? bound length else some bound
  if low ≤ high then some (max low (min high b)) else none

def stride (s : Slice) : Int := s.step.getD 1

/-- The place where the loop starts and the one at which it stops, by words. -/
def ends? (s : Slice) (length : Int) : Option (Int × Int) :=
  if 0 < s.stride then do
    let start ← s.start.elim (some 0) (clampWord? · length 0 length)
    let stop ← s.stop.elim (some length) (clampWord? · length 0 length)
    return (start, stop)
  else do
    let last ← addWord? length (-1)
    let start ← s.start.elim (some last) (clampWord? · length (-1) last)
    let stop ← s.stop.elim (some (-1)) (clampWord? · length (-1) last)
    return (start, stop)

/-- The loop takes the elements `out`, and no operation on words leaves them. -/
def Takes (s : Slice) (items out : List Json) : Prop :=
  ∃ start stop, s.ends? items.length = some (start, stop) ∧
    Collects items stop s.stride start out

/-! ## The ends of a slice -/

/-- A negative bound counts from the end of the list. -/
def fromStart (bound : Int) (length : Nat) : Int := if bound < 0 then bound + length else bound

/-- A bound that is outside the list counts as the nearest end of it. Backwards the list ends one
place before its first element, and starts with its last. -/
def settle (step bound : Int) (length : Nat) : Int :=
  if 0 < step then
    if fromStart bound length < 0 then 0
    else if length < fromStart bound length then length else fromStart bound length
  else
    if fromStart bound length < 0 then -1
    else if length ≤ fromStart bound length then length - 1 else fromStart bound length

def entry (s : Slice) (length : Nat) : Int :=
  match s.start with
  | some bound => settle s.stride bound length
  | none => if 0 < s.stride then 0 else length - 1

def exit (s : Slice) (length : Nat) : Int :=
  match s.stop with
  | some bound => settle s.stride bound length
  | none => if 0 < s.stride then length else -1

variable {s : Slice} {length : Nat} {step bound : Int}

theorem settle_of_pos (hstep : 0 < step) :
    settle step bound length = clampBound bound length 0 length := by
  change _ = max 0 (min (length : Int) (fromStart bound length))
  rw [settle, if_pos hstep]
  split <;> omega

theorem settle_of_not_pos (hstep : ¬ 0 < step) :
    settle step bound length = clampBound bound length (-1) (length - 1) := by
  change _ = max (-1) (min ((length : Int) - 1) (fromStart bound length))
  rw [settle, if_neg hstep]
  split <;> omega

/-- The places between which a loop with this step runs. -/
def Spans (step : Int) (length : Nat) (i : Int) : Prop :=
  if 0 < step then 0 ≤ i ∧ i ≤ length else -1 ≤ i ∧ i < length

theorem spans_settle (step bound : Int) (length : Nat) :
    Spans step length (settle step bound length) := by
  unfold Spans settle
  split <;> split <;> omega

theorem spans_entry (s : Slice) (length : Nat) : Spans s.stride length (s.entry length) := by
  unfold entry
  split
  · exact spans_settle _ _ _
  · unfold Spans
    split <;> omega

theorem spans_exit (s : Slice) (length : Nat) : Spans s.stride length (s.exit length) := by
  unfold exit
  split
  · exact spans_settle _ _ _
  · unfold Spans
    split <;> omega

theorem positions_eq_walk (s : Slice) (length : Nat) :
    s.positions length = walk (s.exit length) s.stride (s.entry length) length := by
  unfold positions entry exit
  change (if 0 < s.stride then walk _ s.stride _ _ else walk _ s.stride _ _) = _
  split
  · next hpos =>
    cases s.start <;> cases s.stop <;> simp only [Option.elim, settle_of_pos hpos]
  · next hneg =>
    cases s.start <;> cases s.stop <;> simp only [Option.elim, settle_of_not_pos hneg]

theorem clampWord?_eq {low high : Int} (hbound : IsWord bound) (hlength : IsWord length)
    (hle : low ≤ high) :
    clampWord? bound length low high = some (clampBound bound length low high) := by
  rw [isWord_iff] at hbound hlength
  by_cases hneg : bound < 0
  · have hsum : IsWord (bound + length) := isWord_iff.2 (by omega)
    simp [clampWord?, clampBound, addWord?, hneg, hsum, hle]
  · simp [clampWord?, clampBound, hneg, hle]

/-- No operation on the bounds of a slice leaves the words. -/
theorem ends?_eq (hstart : ∀ n ∈ s.start, IsWord n) (hstop : ∀ n ∈ s.stop, IsWord n)
    (hlength : IsWord length) : s.ends? length = some (s.entry length, s.exit length) := by
  have hlast : addWord? length (-1) = some ((length : Int) - 1) :=
    if_pos (isWord_iff.2 (by rw [isWord_iff] at hlength; omega))
  have hforward {n : Int} (hn : IsWord n) := clampWord?_eq hn hlength (Int.natCast_nonneg length)
  have hbackward {n : Int} (hn : IsWord n) :=
    clampWord?_eq hn hlength (show (-1 : Int) ≤ length - 1 by omega)
  unfold ends? entry exit
  split
  · next hpos =>
    cases hs : s.start <;> cases ht : s.stop <;> simp_all [settle_of_pos hpos]
  · next hneg =>
    cases hs : s.start <;> cases ht : s.stop <;> simp_all [settle_of_not_pos]

end Slice

/-! ## Places before a stop -/

/-- How many multiples of the step, from zero on, are less than the distance. -/
def stepsWithin (distance step : Int) : Nat := ((distance + step - 1) / step).toNat

/-- How many of the places `start + n * step` come before `stop`. -/
def countBefore (start stop step : Int) : Nat :=
  if 0 < step then stepsWithin (stop - start) step else stepsWithin (start - stop) (-step)

/-- The places `start + n * step` that come before `stop`, in order. -/
def placesBefore (start stop step : Int) : List Int :=
  (List.range (countBefore start stop step)).map fun n : Nat => start + n * step

section Count

variable {distance start stop step : Int}

theorem stepsWithin_of_nonpos (hstep : 0 < step) (h : distance ≤ 0) :
    stepsWithin distance step = 0 := by
  have hquotient : (distance + step - 1) / step < 1 :=
    Int.ediv_lt_of_lt_mul hstep (by omega)
  rw [stepsWithin, Int.toNat_eq_zero]
  omega

theorem stepsWithin_of_pos (hstep : 0 < step) (h : 0 < distance) :
    stepsWithin distance step = stepsWithin (distance - step) step + 1 := by
  have hmore : (distance + step - 1) / step = (distance - 1) / step + 1 := by
    rw [← Int.add_mul_ediv_right _ 1 (Int.ne_of_gt hstep)]
    congr 1
    omega
  have hless : distance - step + step - 1 = distance - 1 := by omega
  have hnonneg : 0 ≤ (distance - 1) / step := Int.ediv_nonneg (by omega) (Int.le_of_lt hstep)
  rw [stepsWithin, stepsWithin, hmore, hless]
  omega

theorem stepsWithin_le (hstep : 0 < step) : stepsWithin distance step ≤ distance.toNat := by
  by_cases h : distance ≤ 0
  · rw [stepsWithin_of_nonpos hstep h]
    exact Nat.zero_le _
  · have hquotient : (distance + step - 1) / step ≤ distance :=
      Int.ediv_le_of_le_mul hstep (by
        have hproduct := Int.mul_nonneg (show 0 ≤ distance - 1 by omega) (Int.sub_nonneg.2 hstep)
        rw [Int.sub_mul, Int.mul_sub, Int.mul_sub] at hproduct
        omega)
    rw [stepsWithin]
    omega

theorem countBefore_of_not_before (hstep : step ≠ 0) (h : ¬ Before step start stop) :
    countBefore start stop step = 0 := by
  rw [Before] at h
  rw [countBefore]
  split at h
  · next hpos => rw [if_pos hpos, stepsWithin_of_nonpos hpos (by omega)]
  · next hneg => rw [if_neg hneg, stepsWithin_of_nonpos (by omega) (by omega)]

theorem countBefore_of_before (hstep : step ≠ 0) (h : Before step start stop) :
    countBefore start stop step = countBefore (start + step) stop step + 1 := by
  rw [Before] at h
  rw [countBefore, countBefore]
  split at h
  · next hpos =>
    rw [if_pos hpos, if_pos hpos, stepsWithin_of_pos hpos (by omega), Int.sub_sub]
  · next hneg =>
    rw [if_neg hneg, if_neg hneg, stepsWithin_of_pos (by omega) (by omega)]
    congr 2
    omega

theorem placesBefore_of_not_before (hstep : step ≠ 0) (h : ¬ Before step start stop) :
    placesBefore start stop step = [] := by
  rw [placesBefore, countBefore_of_not_before hstep h]
  rfl

theorem placesBefore_of_before (hstep : step ≠ 0) (h : Before step start stop) :
    placesBefore start stop step = start :: placesBefore (start + step) stop step := by
  rw [placesBefore, countBefore_of_before hstep h, List.range_succ_eq_map, List.map_cons,
    List.map_map]
  refine congr_arg₂ _ (by simp) (List.map_congr_left fun n _ => ?_)
  change start + (n.succ : Int) * step = start + step + n * step
  rw [Int.natCast_succ, Int.add_mul, Int.one_mul]
  omega

/-- From any place, finitely many steps lead to the stop. -/
theorem step_induction {motive : Int → Prop} (stop : Int) (hstep : step ≠ 0)
    (done : ∀ i, ¬ Before step i stop → motive i)
    (next : ∀ i, Before step i stop → motive (i + step) → motive i) (start : Int) :
    motive start := by
  induction hcount : countBefore start stop step generalizing start with
  | zero =>
    refine done start fun h => ?_
    rw [countBefore_of_before hstep h] at hcount
    exact nomatch hcount
  | succ n ih =>
    by_cases h : Before step start stop
    · rw [countBefore_of_before hstep h] at hcount
      exact next start h (ih _ (Nat.succ.inj hcount))
    · exact done start h

/-- The count leaves out no place before the stop, and counts none that is not. -/
theorem mem_placesBefore_iff (hstep : step ≠ 0) {p : Int} :
    p ∈ placesBefore start stop step ↔ ∃ n : Nat, p = start + n * step ∧ Before step p stop := by
  induction start using step_induction stop hstep with
  | done i h =>
    rw [placesBefore_of_not_before hstep h, List.mem_nil_iff, false_iff]
    rintro ⟨n, rfl, hbefore⟩
    unfold Before at h hbefore
    split at h
    · next hpos =>
      have hproduct := Int.mul_nonneg (Int.natCast_nonneg n) (Int.le_of_lt hpos)
      rw [if_pos hpos] at hbefore
      omega
    · next hneg =>
      have hproduct := Int.mul_nonneg (Int.natCast_nonneg n) (show 0 ≤ -step by omega)
      rw [if_neg hneg] at hbefore
      rw [Int.mul_neg] at hproduct
      omega
  | next i h ih =>
    rw [placesBefore_of_before hstep h, List.mem_cons, ih]
    have hsucc (n : Nat) : i + step + n * step = i + (n + 1 : Nat) * step := by
      rw [Int.natCast_succ, Int.add_mul, Int.one_mul]
      omega
    constructor
    · rintro (rfl | ⟨n, rfl, hbefore⟩)
      · exact ⟨0, by simp, h⟩
      · exact ⟨n + 1, hsucc n, hbefore⟩
    · rintro ⟨_ | n, rfl, hbefore⟩
      · exact .inl (by simp)
      · exact .inr ⟨n, (hsucc n).symm, hbefore⟩

theorem walk_eq_map {n : Nat} (hstep : step ≠ 0) (hn : countBefore start stop step ≤ n) :
    walk stop step start n = (placesBefore start stop step).map Int.toNat := by
  induction n generalizing start with
  | zero => rw [placesBefore, Nat.le_zero.1 hn]; rfl
  | succ n ih =>
    have hgo : ((0 < step && start < stop) || (step < 0 && stop < start)) = true ↔
        Before step start stop := by
      simp only [Before, Bool.or_eq_true, Bool.and_eq_true, decide_eq_true_eq]
      split <;> omega
    rw [walk]
    by_cases h : Before step start stop
    · rw [countBefore_of_before hstep h] at hn
      rw [if_pos (hgo.2 h), ih (Nat.le_of_succ_le_succ hn), placesBefore_of_before hstep h]
      rfl
    · rw [if_neg (hgo.not.2 h), placesBefore_of_not_before hstep h]
      rfl

theorem countBefore_le {length : Nat} (hstep : step ≠ 0) (hstart : Slice.Spans step length start)
    (hstop : Slice.Spans step length stop) : countBefore start stop step ≤ length := by
  unfold Slice.Spans at hstart hstop
  rw [countBefore]
  split at hstart
  · next hpos =>
    rw [if_pos hpos] at hstop ⊢
    have hcount : stepsWithin (stop - start) step ≤ _ := stepsWithin_le hpos
    omega
  · next hneg =>
    rw [if_neg hneg] at hstop ⊢
    have hcount : stepsWithin (start - stop) (-step) ≤ _ := stepsWithin_le (by omega)
    omega

end Count

/-! ## The loop takes the places of the slice -/

section Loop

variable {items : List Json} {start stop step : Int}

/-- Before the stop, steps do not leave the list. -/
theorem inside_of_mem_placesBefore (hstep : step ≠ 0) (hstop : Slice.Spans step items.length stop)
    (hstart : Before step start stop → 0 ≤ start ∧ start < items.length) :
    ∀ p ∈ placesBefore start stop step, 0 ≤ p ∧ p < items.length := by
  induction start using step_induction stop hstep with
  | done i h =>
    rw [placesBefore_of_not_before hstep h]
    exact nofun
  | next i h ih =>
    rw [placesBefore_of_before hstep h, List.forall_mem_cons]
    refine ⟨hstart h, ih fun hnext => ?_⟩
    have hi := hstart h
    unfold Before at hnext
    unfold Slice.Spans at hstop
    split at hnext <;> simp_all <;> omega

/-- The loop ends, and it has collected the elements at the places before the stop. -/
theorem exists_collects (hlength : IsWord items.length) (hstep : step ≠ 0)
    (hplaces : ∀ p ∈ placesBefore start stop step, 0 ≤ p ∧ p < items.length) :
    ∃ out, Collects items stop step start out ∧
      out.map some = (placesBefore start stop step).map fun p => items[p.toNat]? := by
  induction start using step_induction stop hstep with
  | done i h =>
    rw [placesBefore_of_not_before hstep h]
    exact ⟨[], .done h, rfl⟩
  | next i h ih =>
    rw [placesBefore_of_before hstep h] at hplaces ⊢
    rw [List.forall_mem_cons] at hplaces
    obtain ⟨⟨hnonneg, hlt⟩, hplaces⟩ := hplaces
    obtain ⟨item, hitem⟩ : ∃ item, items[i.toNat]? = some item :=
      ⟨_, List.getElem?_eq_getElem (by omega)⟩
    rw [List.map_cons, hitem]
    cases hsum : addWord? i step with
    | none =>
      -- the next place would be in the list and so a word, if it came before the stop
      have hlast : ¬ Before step (i + step) stop := by
        intro hnext
        rw [placesBefore_of_before hstep hnext, List.forall_mem_cons] at hplaces
        have hword : IsWord (i + step) := isWord_iff.2 (by rw [isWord_iff] at hlength; omega)
        rw [addWord?, if_pos hword] at hsum
        exact nomatch hsum
      rw [placesBefore_of_not_before hstep hlast]
      exact ⟨[item], .leave h hnonneg hitem hsum, rfl⟩
    | some i' =>
      obtain ⟨out, hcollects, hout⟩ := ih hplaces
      obtain ⟨-, rfl⟩ := Option.ite_none_right_eq_some.1 hsum |>.imp_right Option.some.inj
      exact ⟨item :: out, .next h hnonneg hitem hsum hcollects, by rw [List.map_cons, hout]⟩

end Loop

namespace Slice

variable {s : Slice} {items : List Json}

/-- The places that a slice takes from a list of the given length. -/
def places (s : Slice) (length : Nat) : List Int :=
  placesBefore (s.entry length) (s.exit length) s.stride

theorem stride_ne_zero (h : s.step ≠ some 0) : s.stride ≠ 0 := by
  rw [stride]
  cases hs : s.step with
  | none => decide
  | some step => exact fun hzero => h (hs ▸ congrArg some hzero)

theorem inside_of_mem_places (h : s.step ≠ some 0) :
    ∀ p ∈ s.places items.length, 0 ≤ p ∧ p < items.length := by
  refine inside_of_mem_placesBefore (stride_ne_zero h) (spans_exit s _) fun hbefore => ?_
  have hentry := spans_entry s items.length
  have hexit := spans_exit s items.length
  unfold Before at hbefore
  unfold Spans at hentry hexit
  split at hbefore <;> simp_all <;> omega

/-- A slice gives the elements that stand at its places. -/
theorem map_some_apply (h : s.step ≠ some 0) :
    (s.apply items).map some = (s.places items.length).map fun p => items[p.toNat]? := by
  have hpositions : s.positions items.length = (s.places items.length).map Int.toNat := by
    rw [positions_eq_walk]
    exact walk_eq_map (stride_ne_zero h) (countBefore_le (stride_ne_zero h) (spans_entry s _)
      (spans_exit s _))
  rw [apply, hpositions, List.filterMap_map, List.map_filterMap_some_eq_filter_map_isSome]
  refine List.filter_eq_self.2 fun item hitem => ?_
  obtain ⟨p, hp, rfl⟩ := List.mem_map.1 hitem
  have hmem := inside_of_mem_places h p hp
  exact Option.isSome_iff_exists.2 ⟨_, List.getElem?_eq_getElem (by omega)⟩

/-- What a slice gives is what its loop collects. -/
theorem takes_apply (h : s.step ≠ some 0) (hstart : ∀ n ∈ s.start, IsWord n)
    (hstop : ∀ n ∈ s.stop, IsWord n) (hlength : IsWord items.length) :
    s.Takes items (s.apply items) := by
  obtain ⟨out, hcollects, hout⟩ :=
    exists_collects hlength (stride_ne_zero h) (inside_of_mem_places h)
  obtain rfl : out = s.apply items :=
    List.map_injective_iff.2 (fun _ _ => Option.some.inj) (hout.trans (map_some_apply h).symm)
  exact ⟨_, _, ends?_eq hstart hstop hlength, hcollects⟩

theorem Takes.unique {out out' : List Json} (h : s.Takes items out) (h' : s.Takes items out') :
    out' = out := by
  obtain ⟨start, stop, hends, hcollects⟩ := h
  obtain ⟨start', stop', hends', hcollects'⟩ := h'
  rw [hends] at hends'
  cases hends'
  exact hcollects.unique hcollects'

end Slice

/-! ## The slices and indexes of a query -/

/-- The numbers of an index or a slice. -/
def Bracket.numbers : Bracket → List Int
  | .index i => [i]
  | .slice s => s.start.toList ++ s.stop.toList ++ s.step.toList

theorem keepLast_subset (ts : List Token) : keepLast ts ⊆ ts := by
  induction ts with
  | nil => exact fun _ h => h
  | cons t ts ih =>
    rw [keepLast]
    split
    · exact fun _ h => List.mem_cons_of_mem _ (ih h)
    · exact List.cons_subset_cons t ih

theorem Spells.number_mem {inner : List Token} {b : Bracket} (h : Spells inner b) :
    ∀ n ∈ b.numbers, .number n ∈ inner := by
  cases h with
  | index i => simp [Bracket.numbers]
  | span start stop => simp [Bracket.numbers, optional]
  | stride start stop step => simp [Bracket.numbers, optional]

theorem Spells.step_ne_zero {inner : List Token} {s : Slice} (h : Spells inner (.slice s)) :
    s.step ≠ some 0 := by
  cases h with
  | span => exact nofun
  | stride _ _ _ hstep => exact hstep

theorem Brackets.exists_spells {ts : List Token} {bs : List Bracket} (h : Brackets ts bs) :
    ∀ b ∈ bs, ∃ inner, Spells inner b ∧ inner ⊆ ts := by
  have hcons {t : Token} {ts : List Token} {b : Bracket}
      (h : ∃ inner, Spells inner b ∧ inner ⊆ ts) : ∃ inner, Spells inner b ∧ inner ⊆ t :: ts :=
    h.imp fun _ h => ⟨h.1, List.subset_cons_of_subset t h.2⟩
  induction h with
  | nil => exact nofun
  | other _ _ ih => exact fun b hb => hcons (ih b hb)
  | list _ _ ih => exact fun b hb => hcons (ih b hb)
  | places _ hencloses _ ih =>
    obtain ⟨inner, rfl, hspells⟩ := hencloses
    refine List.forall_mem_cons.2 ⟨hcons ⟨_, hspells, ?_⟩, fun b hb => hcons ?_⟩
    · exact List.subset_append_of_subset_left _ (keepLast_subset inner)
    · obtain ⟨inner', hspells', hsubset⟩ := ih b hb
      exact ⟨inner', hspells', List.subset_append_of_subset_right _
        (List.subset_cons_of_subset _ hsubset)⟩

/-- A slice with words for its parts and a step other than zero. -/
structure Slice.Sound (s : Slice) : Prop where
  start : ∀ n ∈ s.start, IsWord n
  stop : ∀ n ∈ s.stop, IsWord n
  step : ∀ n ∈ s.step, IsWord n
  step_ne_zero : s.step ≠ some 0

/-- The numbers in the brackets of a query are words, and no step is zero. -/
theorem sound_of_parse {query : String} {e : Expr} (h : parse query = .ok e) :
    (∀ s, .slice s ∈ e.brackets → s.Sound) ∧ ∀ i, .index i ∈ e.brackets → IsWord i := by
  obtain ⟨ts, hlexes, -⟩ := parse_eq_ok_iff.1 h
  have hbrackets := brackets_of_parse hlexes h
  have hword {inner : List Token} {b : Bracket} (hspells : Spells inner b) (hinner : inner ⊆ ts) :
      ∀ n ∈ b.numbers, IsWord n := fun n hn =>
    hlexes.written _ (hinner (hspells.number_mem n hn))
  constructor
  · intro s hs
    obtain ⟨inner, hspells, hinner⟩ := hbrackets.exists_spells _ hs
    have hnumbers := hword hspells hinner
    simp only [Bracket.numbers, List.mem_append, Option.mem_toList] at hnumbers
    exact ⟨fun n hn => hnumbers n (.inl (.inl hn)), fun n hn => hnumbers n (.inl (.inr hn)),
      fun n hn => hnumbers n (.inr hn), hspells.step_ne_zero⟩
  · intro i hi
    obtain ⟨inner, hspells, hinner⟩ := hbrackets.exists_spells _ hi
    exact hword hspells hinner i List.mem_cons_self

/-! ## Indexes -/

theorem position?_eq (i : Int) (length : Nat) : position? i length =
    if 0 ≤ Slice.fromStart i length ∧ Slice.fromStart i length < length then
      some (Slice.fromStart i length).toNat
    else none := by
  simp only [position?, Bool.and_eq_true, decide_eq_true_eq]
  rfl

theorem eval_index_of_eq {items : List Json} {i : Int} {p : Nat} (hp : p < items.length)
    (h : i = p ∨ i = p - items.length) : eval (.index i) (.arr items) = .ok items[p] := by
  have hplace : Slice.fromStart i items.length = p := by
    unfold Slice.fromStart
    split <;> omega
  simp [eval, position?_eq, hplace, hp]

theorem eval_index_of_outside {items : List Json} {i : Int}
    (h : i < -items.length ∨ items.length ≤ i) : eval (.index i) (.arr items) = .ok .null := by
  have hplace : ¬ (0 ≤ Slice.fromStart i items.length ∧
      Slice.fromStart i items.length < items.length) := by
    unfold Slice.fromStart
    split <;> omega
  rw [eval, position?_eq, if_neg hplace]
  rfl

/-! ## Whole queries -/

/-- A slice with words for its parts and a step other than zero gives the elements at its places,
which are all in the list; its loop ends with these elements and nothing else. -/
theorem eval_slice {s : Slice} (hs : s.Sound) (items : List Json) :
    ∃ out, eval (.slice s) (.arr items) = .ok (.arr out) ∧
      (∀ p ∈ s.places items.length, 0 ≤ p ∧ p < items.length) ∧
      out.map some = (s.places items.length).map (fun p => items[p.toNat]?) ∧
      (IsWord items.length → ∀ out', s.Takes items out' ↔ out' = out) := by
  refine ⟨s.apply items, by rw [eval], Slice.inside_of_mem_places hs.step_ne_zero,
    Slice.map_some_apply hs.step_ne_zero, fun hlength out' => ?_⟩
  have htakes : s.Takes items (s.apply items) :=
    Slice.takes_apply hs.step_ne_zero hs.start hs.stop hlength
  exact ⟨htakes.unique, fun h => h ▸ htakes⟩

/-- Slices and indexes of queries. A slice has words for its parts and a step other than zero. With
such parts its loop over a list ends, with no place outside the list and no sum that is no word, and
the slice gives the elements at its places in order: those before its exit that are whole numbers of
steps after its entry. An index counts from the end if it is negative, and gives null outside the
list. With step zero the loop would not end. -/
theorem eval_brackets {query : String} {e : Expr} (hparse : parse query = .ok e) :
    (∀ s, .slice s ∈ e.brackets → s.Sound) ∧
    (∀ (s : Slice) (items : List Json), s.Sound →
      (∀ p, p ∈ s.places items.length ↔ ∃ n : Nat,
        p = s.entry items.length + n * s.stride ∧ Before s.stride p (s.exit items.length)) ∧
      ∃ out, eval (.slice s) (.arr items) = .ok (.arr out) ∧
        (∀ p ∈ s.places items.length, 0 ≤ p ∧ p < items.length) ∧
        out.map some = (s.places items.length).map (fun p => items[p.toNat]?) ∧
        (IsWord items.length → ∀ out', s.Takes items out' ↔ out' = out)) ∧
    (∀ i, .index i ∈ e.brackets → IsWord i) ∧
    (∀ (i : Int) (items : List Json),
      (∀ p (hp : p < items.length), i = p ∨ i = p - items.length →
        eval (.index i) (.arr items) = .ok items[p]) ∧
      (i < -items.length ∨ items.length ≤ i → eval (.index i) (.arr items) = .ok .null) ∧
      (IsWord i → IsWord items.length → i < 0 →
        addWord? i items.length = some (i + items.length))) ∧
    ∀ (items out : List Json) (start stop : Int), IsWord start → stop < start →
      ¬ Collects items stop 0 start out := by
  obtain ⟨hslices, hindexes⟩ := sound_of_parse hparse
  have hindex (i : Int) (items : List Json) (hi : IsWord i) (hlength : IsWord items.length)
      (hneg : i < 0) : addWord? i items.length = some (i + items.length) := by
    rw [isWord_iff] at hi hlength
    exact if_pos (isWord_iff.2 (by omega))
  have hplaces (s : Slice) (items : List Json) (hs : s.Sound) (p : Int) :
      p ∈ s.places items.length ↔ ∃ n : Nat,
        p = s.entry items.length + n * s.stride ∧ Before s.stride p (s.exit items.length) :=
    mem_placesBefore_iff (Slice.stride_ne_zero hs.step_ne_zero)
  exact ⟨hslices, fun s items hs => ⟨hplaces s items hs, eval_slice hs items⟩, hindexes,
    fun i items => ⟨fun p => eval_index_of_eq, eval_index_of_outside, hindex i items⟩,
    fun _ _ _ _ => not_collects_of_step_zero⟩

/-- The least word as the step. -/
theorem eval_brackets_least_step :
    parse "[::-9223372036854775808]" = .ok
      (.project (.chain .current (.slice ⟨none, none, some (-9223372036854775808)⟩)) .current) ∧
    Slice.Sound ⟨none, none, some (-9223372036854775808)⟩ ∧
    eval (.slice ⟨none, none, some (-9223372036854775808)⟩) (.arr [.null, .bool true]) =
      .ok (.arr [.bool true]) := by
  have hparse : parse "[::-9223372036854775808]" = .ok
      (.project (.chain .current (.slice ⟨none, none, some (-9223372036854775808)⟩)) .current) :=
    parse_eq_ok_of_tokens [.lbracket, .colon, .colon, .number (-9223372036854775808), .rbracket]
      rfl rfl
  obtain ⟨hslices, hall, -⟩ := eval_brackets hparse
  have hsound := hslices ⟨none, none, some (-9223372036854775808)⟩ (by simp [Expr.brackets])
  obtain ⟨-, out, heval, -, hout, -⟩ := hall _ [.null, .bool true] hsound
  have hplaces : Slice.places ⟨none, none, some (-9223372036854775808)⟩ 2 = [1] := by decide
  have hlast : out.map some = [some (.bool true)] := by
    rw [hout, List.length_cons, List.length_singleton, hplaces]
    rfl
  obtain ⟨item, rest, rfl, hitem, hrest⟩ := List.map_eq_cons_iff.1 hlast
  obtain rfl := Option.some.inj hitem
  obtain rfl := List.map_eq_nil_iff.1 hrest
  exact ⟨hparse, hsound, heval⟩

end ResourceGraph.Query
