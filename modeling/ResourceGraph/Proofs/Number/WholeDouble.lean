import Mathlib.Algebra.Group.Nat.Defs
import Mathlib.Algebra.Order.Ring.Nat
import ResourceGraph.Number.Basic

/-!
# The double nearest to a whole number

A double has 53 binary digits, so a whole number of more digits is rounded to a multiple of its
step, a power of two. No double is nearer. Rounding keeps the order, and a number of at most 53
binary digits is taken for no other. Whole numbers are compared as the doubles nearest to them. The
results are on unbounded numbers; below `2^64` no double overflows.
-/
namespace ResourceGraph.Number

variable {m n d k : Nat}

/-! ## Rounding a quotient -/

theorem roundHalfEven_cases (n d : Nat) :
    roundHalfEven n d = n / d ∧ 2 * (n % d) ≤ d ∨
      roundHalfEven n d = n / d + 1 ∧ d ≤ 2 * (n % d) := by
  unfold roundHalfEven
  simp only [Bool.or_eq_true, decide_eq_true_eq, Bool.and_eq_true, beq_iff_eq]
  split
  · exact .inr ⟨rfl, by omega⟩
  · exact .inl ⟨rfl, by omega⟩

theorem roundHalfEven_mul (hk : 0 < k) : roundHalfEven (n * k) (d * k) = roundHalfEven n d := by
  have hdouble : 2 * (n * k % (d * k)) = 2 * (n % d) * k := by
    rw [Nat.mul_mod_mul_right, Nat.mul_assoc]
  unfold roundHalfEven
  simp only [hdouble, Nat.mul_div_mul_right n d hk, gt_iff_lt, Nat.mul_lt_mul_right hk, beq_iff_eq,
    Nat.mul_left_inj (Nat.pos_iff_ne_zero.1 hk), Bool.or_eq_true, Bool.and_eq_true,
    decide_eq_true_eq]

theorem roundHalfEven_mul_self (hd : 0 < d) : roundHalfEven (m * d) d = m := by
  have hquotient := Nat.mul_div_cancel m hd
  have hrest := Nat.mul_mod_left m d
  rcases roundHalfEven_cases (m * d) d with ⟨heq, -⟩ | ⟨-, hle⟩
  · rw [heq, hquotient]
  · omega

theorem roundHalfEven_mono (h : m ≤ n) : roundHalfEven m d ≤ roundHalfEven n d := by
  have hm := roundHalfEven_cases m d
  have hn := roundHalfEven_cases n d
  rcases Nat.lt_or_eq_of_le (Nat.div_le_div_right (c := d) h) with hlt | heq
  · omega
  -- in one interval the rest decides, and it is no less for the larger number
  have hrest : m % d ≤ n % d := by
    have hm' := Nat.div_add_mod m d
    have hn' := Nat.div_add_mod n d
    rw [heq] at hm'
    omega
  unfold roundHalfEven
  simp only [heq, Bool.or_eq_true, decide_eq_true_eq, Bool.and_eq_true, beq_iff_eq]
  split <;> split <;> omega

/-- No multiple is nearer than the rounded quotient. -/
theorem roundHalfEven_nearest (hd : 0 < d) (k : Nat) :
    ((roundHalfEven n d * d : Nat) - n : Int).natAbs ≤ ((k * d : Nat) - n : Int).natAbs := by
  have hsplit := Nat.div_add_mod' n d
  have hlt := Nat.mod_lt n hd
  have hside : k * d ≤ n / d * d ∨ n / d * d + d ≤ k * d := by
    rcases Nat.lt_or_ge (n / d) k with h | h
    · exact .inr (Nat.succ_mul (n / d) d ▸ Nat.mul_le_mul_right d h)
    · exact .inl (Nat.mul_le_mul_right d h)
  rcases roundHalfEven_cases n d with ⟨heq, hle⟩ | ⟨heq, hle⟩
  · rw [heq]
    omega
  · rw [heq, Nat.succ_mul]
    omega

/-! ## Magnitudes -/

/-- The magnitudes of whole doubles. -/
def IsDouble (w : Nat) : Prop := ∃ mantissa shift, mantissa < 2 ^ 53 ∧ w = mantissa * 2 ^ shift

/-- How far the doubles around the number are apart. -/
def step (n : Nat) : Nat := 2 ^ (n.log2 - 52)

/-- The multiple of its step that is nearest to the number, of two the one with the even factor. -/
def nearestNat (n : Nat) : Nat := roundHalfEven n (step n) * step n

theorem step_pos (n : Nat) : 0 < step n := Nat.two_pow_pos _

theorem nearestNat_of_lt (h : n < 2 ^ 53) : nearestNat n = n := by
  have hlog : n.log2 ≤ 52 := by
    rcases Nat.eq_zero_or_pos n with rfl | hpos
    · exact Nat.zero_le _
    · exact Nat.le_of_lt_succ ((Nat.log2_lt (Nat.pos_iff_ne_zero.1 hpos)).2 h)
  have hstep : step n = 1 := by rw [step, Nat.sub_eq_zero_of_le hlog, Nat.pow_zero]
  have hround : roundHalfEven n 1 = n := by
    simpa using roundHalfEven_mul_self (m := n) (Nat.one_pos)
  rw [nearestNat, hstep, hround, Nat.mul_one]

/-- A number of more digits lies among the doubles that are its step apart. -/
theorem step_bounds (h : 2 ^ 53 ≤ n) : 2 ^ 52 * step n ≤ n ∧ n < 2 ^ 53 * step n := by
  have hne : n ≠ 0 := Nat.pos_iff_ne_zero.1 (Nat.lt_of_lt_of_le (Nat.two_pow_pos 53) h)
  have hlog : 53 ≤ n.log2 := (Nat.le_log2 hne).2 h
  have hlow := Nat.log2_self_le hne
  have hhigh := Nat.lt_log2_self (n := n)
  rw [step, ← Nat.pow_add, ← Nat.pow_add]
  rw [show 52 + (n.log2 - 52) = n.log2 by omega, show 53 + (n.log2 - 52) = n.log2 + 1 by omega]
  exact ⟨hlow, hhigh⟩

/-- A double is a multiple of the step, or below all numbers that have this step. -/
theorem IsDouble.multiple_or_lt {w : Nat} (hw : IsDouble w) (n : Nat) :
    (∃ k, w = k * step n) ∨ w < 2 ^ 52 * step n := by
  obtain ⟨mantissa, shift, hmantissa, rfl⟩ := hw
  rw [step]
  rcases Nat.lt_or_ge shift (n.log2 - 52) with hlt | hge
  · refine .inr ?_
    calc mantissa * 2 ^ shift < 2 ^ 53 * 2 ^ shift :=
          Nat.mul_lt_mul_of_pos_right hmantissa (Nat.two_pow_pos _)
      _ = 2 ^ 52 * 2 ^ (shift + 1) := by rw [Nat.pow_succ 2 shift]; omega
      _ ≤ 2 ^ 52 * 2 ^ (n.log2 - 52) :=
          Nat.mul_le_mul_left _ (Nat.pow_le_pow_right (by decide) hlt)
  · refine .inl ⟨mantissa * 2 ^ (shift - (n.log2 - 52)), ?_⟩
    rw [Nat.mul_assoc, ← Nat.pow_add, Nat.sub_add_cancel hge]

theorem isDouble_of_lt {w : Nat} (h : w < 2 ^ 53) : IsDouble w :=
  ⟨w, 0, h, by rw [Nat.pow_zero, Nat.mul_one]⟩

theorem isDouble_two_pow (k : Nat) : IsDouble (2 ^ k) := ⟨1, k, by decide, (Nat.one_mul _).symm⟩

/-- Rounding does not pass a double. -/
theorem IsDouble.le_nearestNat {w : Nat} (hw : IsDouble w) (h : w ≤ n) : w ≤ nearestNat n := by
  rcases Nat.lt_or_ge n (2 ^ 53) with hn | hn
  · rwa [nearestNat_of_lt hn]
  have hmultiple : ∀ k, k * step n ≤ n → k * step n ≤ nearestNat n := by
    intro k hk
    have hround := roundHalfEven_mono (d := step n) hk
    rw [roundHalfEven_mul_self (step_pos n)] at hround
    exact Nat.mul_le_mul_right _ hround
  rcases hw.multiple_or_lt n with ⟨k, rfl⟩ | hlt
  · exact hmultiple k h
  · exact Nat.le_trans (Nat.le_of_lt hlt) (hmultiple _ (step_bounds hn).1)

theorem IsDouble.nearestNat_le {w : Nat} (hw : IsDouble w) (h : n ≤ w) : nearestNat n ≤ w := by
  rcases Nat.lt_or_ge n (2 ^ 53) with hn | hn
  · rwa [nearestNat_of_lt hn]
  rcases hw.multiple_or_lt n with ⟨k, rfl⟩ | hlt
  · have hround := roundHalfEven_mono (d := step n) h
    rw [roundHalfEven_mul_self (step_pos n)] at hround
    exact Nat.mul_le_mul_right _ hround
  · have hbounds := step_bounds hn
    omega

theorem isDouble_nearestNat (n : Nat) : IsDouble (nearestNat n) := by
  rcases Nat.lt_or_ge n (2 ^ 53) with hn | hn
  · rw [nearestNat_of_lt hn]
    exact isDouble_of_lt hn
  have hround := roundHalfEven_mono (d := step n) (Nat.le_of_lt (step_bounds hn).2)
  rw [roundHalfEven_mul_self (step_pos n)] at hround
  rcases Nat.lt_or_eq_of_le hround with hlt | heq
  · exact ⟨_, _, hlt, rfl⟩
  · rw [nearestNat, heq, step, ← Nat.pow_add]
    exact isDouble_two_pow _

/-- Of all doubles none is nearer. -/
theorem nearestNat_nearest {w : Nat} (hw : IsDouble w) (n : Nat) :
    ((nearestNat n : Int) - n).natAbs ≤ ((w : Int) - n).natAbs := by
  rcases Nat.lt_or_ge n (2 ^ 53) with hn | hn
  · rw [nearestNat_of_lt hn]
    omega
  have hnearest := roundHalfEven_nearest (n := n) (step_pos n)
  rcases hw.multiple_or_lt n with ⟨k, rfl⟩ | hlt
  · exact hnearest k
  · have hlow := (step_bounds hn).1
    have hstep := hnearest (2 ^ 52)
    rw [nearestNat]
    omega

theorem nearestNat_mono (h : m ≤ n) : nearestNat m ≤ nearestNat n := by
  by_cases hsame : m.log2 = n.log2
  · have hstep : step m = step n := by rw [step, hsame, step]
    rw [nearestNat, nearestNat, hstep]
    exact Nat.mul_le_mul_right _ (roundHalfEven_mono h)
  -- a power of two stands between them
  have hne : n ≠ 0 := by
    rintro rfl
    exact hsame (congrArg Nat.log2 (Nat.le_zero.1 h))
  have hlog : m.log2 < n.log2 := by
    refine Nat.lt_of_le_of_ne ?_ hsame
    by_cases hm : m = 0
    · rw [hm]
      exact Nat.zero_le _
    · exact (Nat.le_log2 hne).2 (Nat.le_trans (Nat.log2_self_le hm) h)
  have hpow := isDouble_two_pow n.log2
  have hm : m ≤ 2 ^ n.log2 := Nat.le_of_lt
    (Nat.lt_of_lt_of_le Nat.lt_log2_self (Nat.pow_le_pow_right (by decide) hlog))
  exact Nat.le_trans (hpow.nearestNat_le hm) (hpow.le_nearestNat (Nat.log2_self_le hne))

/-! ## In units -/

theorem Scaled.units_carry (x : Scaled) : x.carry.units = x.units := by
  obtain ⟨mantissa, shift⟩ := x
  unfold carry
  split
  · next h =>
    have hfull : mantissa = 2 ^ 53 := h
    simp only [units, hfull, Nat.pow_eq]
    rw [Nat.pow_succ 2 shift]
    omega
  · rfl

theorem log2_mul_two_pow (hn : 0 < n) (u : Nat) : (n * 2 ^ u).log2 = n.log2 + u := by
  have hne := Nat.pos_iff_ne_zero.1 hn
  rw [Nat.log2_eq_iff (Nat.pos_iff_ne_zero.1 (Nat.mul_pos hn (Nat.two_pow_pos u)))]
  constructor
  · rw [Nat.pow_add]
    exact Nat.mul_le_mul_right _ (Nat.log2_self_le hne)
  · rw [show n.log2 + u + 1 = n.log2 + 1 + u by omega, Nat.pow_add]
    exact Nat.mul_lt_mul_of_pos_right Nat.lt_log2_self (Nat.two_pow_pos u)

/-- With units fine enough every whole number is rounded as if it were counted in ones. -/
theorem units_nearest_mul_two_pow {u : Nat} (hu : 53 ≤ u) (n : Nat) :
    (Scaled.nearest (n * 2 ^ u) 1).units = nearestNat n * 2 ^ u := by
  rcases Nat.eq_zero_or_pos n with rfl | hn
  · rw [Scaled.nearest, Scaled.units_carry]
    simp [Scaled.units, roundHalfEven, nearestNat]
  have hlarge : ¬ n * 2 ^ u < 2 ^ 53 := by
    have hpow := Nat.pow_le_pow_right (n := 2) (by decide) hu
    have hmul := Nat.le_mul_of_pos_left (2 ^ u) hn
    omega
  have hunits : (Scaled.nearest (n * 2 ^ u) 1).units =
      roundHalfEven (n * 2 ^ u) (2 ^ (n.log2 + u - 52)) * 2 ^ (n.log2 + u - 52) := by
    rw [Scaled.nearest, Scaled.units_carry]
    simp only [Nat.div_one, Nat.pow_eq, hlarge, if_false, log2_mul_two_pow hn, Nat.one_mul,
      Scaled.units]
  rw [hunits]
  rcases Nat.lt_or_ge n (2 ^ 53) with hsmall | hbig
  · have hlog : n.log2 < 53 := (Nat.log2_lt (Nat.pos_iff_ne_zero.1 hn)).2 hsmall
    have hsplit : n * 2 ^ u = n * 2 ^ (52 - n.log2) * 2 ^ (n.log2 + u - 52) := by
      rw [Nat.mul_assoc, ← Nat.pow_add, show 52 - n.log2 + (n.log2 + u - 52) = u by omega]
    rw [hsplit, roundHalfEven_mul_self (Nat.two_pow_pos _), ← hsplit, nearestNat_of_lt hsmall]
  · have hlog : 53 ≤ n.log2 := (Nat.le_log2 (Nat.pos_iff_ne_zero.1 hn)).2 hbig
    have hstep : 2 ^ (n.log2 + u - 52) = step n * 2 ^ u := by
      rw [step, ← Nat.pow_add, show n.log2 - 52 + u = n.log2 + u - 52 by omega]
    rw [hstep, roundHalfEven_mul (Nat.two_pow_pos u), nearestNat, Nat.mul_assoc]

theorem unitsPerOne_eq_two_pow : ∃ u, 53 ≤ u ∧ unitsPerOne = 2 ^ u := by
  have hpow : ∀ u, 53 ≤ u → ∃ v, 53 ≤ v ∧ Nat.pow 2 u = 2 ^ v :=
    fun u hu => ⟨u, hu, Nat.pow_eq⟩
  unfold unitsPerOne
  exact hpow 1074 (by decide)

theorem units_ofNat (n : Nat) : (Scaled.ofNat n).units = nearestNat n * unitsPerOne := by
  obtain ⟨u, hu, heq⟩ := unitsPerOne_eq_two_pow
  rw [Scaled.ofNat, heq]
  exact units_nearest_mul_two_pow hu n

/-! ## Whole numbers of either sign -/

/-- The double nearest to a whole number. -/
def nearestDouble (i : Int) : Int :=
  if i < 0 then -(nearestNat i.natAbs : Int) else nearestNat i.natAbs

theorem isDouble_nearestDouble (i : Int) : IsDouble (nearestDouble i).natAbs := by
  have hdouble := isDouble_nearestNat i.natAbs
  unfold nearestDouble
  split
  · rwa [Int.natAbs_neg]
  · exact hdouble

/-- No double of either sign is nearer. -/
theorem nearestDouble_nearest {w : Int} (hw : IsDouble w.natAbs) (i : Int) :
    (nearestDouble i - i).natAbs ≤ (w - i).natAbs := by
  have hnearest := nearestNat_nearest hw i.natAbs
  unfold nearestDouble
  split <;> omega

theorem nearestDouble_of_lt {i : Int} (h : i.natAbs < 2 ^ 53) : nearestDouble i = i := by
  rw [nearestDouble, nearestNat_of_lt h]
  omega

theorem nearestDouble_mono {i j : Int} (h : i ≤ j) : nearestDouble i ≤ nearestDouble j := by
  unfold nearestDouble
  split <;> split
  · have hmono := nearestNat_mono (show j.natAbs ≤ i.natAbs by omega)
    omega
  · omega
  · omega
  · have hmono := nearestNat_mono (show i.natAbs ≤ j.natAbs by omega)
    omega

/-- A number of at most 53 binary digits is taken for no other. -/
theorem nearestDouble_inj {i j : Int} (hi : i.natAbs < 2 ^ 53)
    (h : nearestDouble i = nearestDouble j) : i = j := by
  rcases Nat.lt_or_ge j.natAbs (2 ^ 53) with hj | hj
  · rwa [nearestDouble_of_lt hi, nearestDouble_of_lt hj] at h
  · have hdouble := (isDouble_two_pow 53).le_nearestNat hj
    rw [nearestDouble_of_lt hi, nearestDouble] at h
    split at h <;> omega

theorem units_int (i : Int) : (Number.int i).units = nearestDouble i * unitsPerOne := by
  simp only [Number.units, units_ofNat, nearestDouble, Int.natCast_mul]
  split
  · rw [Int.neg_mul]
  · rfl

theorem unitsPerOne_pos : (0 : Int) < unitsPerOne := by
  obtain ⟨u, -, heq⟩ := unitsPerOne_eq_two_pow
  rw [heq]
  exact Int.natCast_pos.2 (Nat.two_pow_pos u)

theorem same_int (i j : Int) :
    (Number.int i).same (.int j) = decide (nearestDouble i = nearestDouble j) := by
  rw [Number.same, units_int, units_int, beq_eq_decide]
  exact decide_eq_decide.2 (Int.mul_eq_mul_right_iff (Int.ne_of_gt unitsPerOne_pos))

theorem order_int (i j : Int) :
    (Number.int i).order (.int j) = compare (nearestDouble i) (nearestDouble j) := by
  rw [Number.order, units_int, units_int]
  simp only [compare, compareOfLessAndEq, Int.mul_lt_mul_right unitsPerOne_pos,
    Int.mul_eq_mul_right_iff (Int.ne_of_gt unitsPerOne_pos)]

end ResourceGraph.Number
