import Mathlib.Algebra.Group.Nat.Defs
import ResourceGraph.Scan.Retry

/-!
# How long a retry waits

The wait before a retry is meant to double with each one, up to a maximum. Two results on the way
are held in words: the power of two in 32 bits, and the wait itself as a span of time. Each stops at
its largest value. The span reaches further than any maximum in 64 bits of milliseconds, so that it
never shows. The power stops one short of the 32nd doubling, and shows where the maximum still lies
above the base times that number. The statements cover every base, every maximum in 64 bits and
every number of retries.
-/
namespace ResourceGraph.RetryPolicy

/-- The base doubled once for each earlier retry, up to the maximum. No word bounds it. -/
def doubled (base maximum retry : Nat) : Nat := min (base * 2 ^ retry) maximum

variable {p : RetryPolicy} {retry later : Nat}

/-! ## The power of two -/

theorem factor_of_lt (h : retry < 32) : factor retry = 2 ^ retry :=
  if_pos h

theorem factor_of_le (h : 32 ≤ retry) : factor retry = 2 ^ 32 - 1 :=
  if_neg (Nat.not_lt.2 h)

theorem factor_eq : factor retry = min (2 ^ retry) (2 ^ 32 - 1) := by
  rcases Nat.lt_or_ge retry 32 with h | h
  · have hpow : 2 ^ retry < 2 ^ 32 := Nat.pow_lt_pow_right (by decide) h
    rw [factor_of_lt h]
    omega
  · have hpow : 2 ^ 32 ≤ 2 ^ retry := Nat.pow_le_pow_right (by decide) h
    rw [factor_of_le h]
    omega

theorem factor_mono (h : retry ≤ later) : factor retry ≤ factor later := by
  have hpow : 2 ^ retry ≤ 2 ^ later := Nat.pow_le_pow_right (by decide) h
  rw [factor_eq, factor_eq]
  omega

/-! ## The wait -/

theorem lt_longestSpan {maximum : Nat} (h : maximum < 2 ^ 64) : maximum < longestSpan := by
  have hspan : longestSpan = 2 ^ 64 * 1000 - 1 := rfl
  omega

/-- The longest span is above the maximum, so only the maximum bounds a wait. -/
theorem delay_eq (h : p.maxDelay < 2 ^ 64) :
    p.delay retry = min (p.baseDelay * factor retry) p.maxDelay := by
  have hspan := lt_longestSpan h
  unfold delay
  omega

theorem delay_mono (h : retry ≤ later) : p.delay retry ≤ p.delay later := by
  have hproduct : p.baseDelay * factor retry ≤ p.baseDelay * factor later :=
    Nat.mul_le_mul_left _ (factor_mono h)
  unfold delay
  omega

theorem delay_le_maxDelay : p.delay retry ≤ p.maxDelay :=
  Nat.min_le_right _ _

theorem delay_of_lt (h : p.maxDelay < 2 ^ 64) (hretry : retry < 32) :
    p.delay retry = doubled p.baseDelay p.maxDelay retry := by
  rw [delay_eq h, factor_of_lt hretry, doubled]

theorem delay_of_le (h : p.maxDelay < 2 ^ 64) (hretry : 32 ≤ retry) :
    p.delay retry = min (p.baseDelay * (2 ^ 32 - 1)) p.maxDelay := by
  rw [delay_eq h, factor_of_le hretry]

/-- What the power falls short of is hidden by the maximum, or by a base of zero, or not at all. -/
theorem min_eq_doubled_iff {base maximum : Nat} (hretry : 32 ≤ retry) :
    min (base * (2 ^ 32 - 1)) maximum = doubled base maximum retry ↔
      base = 0 ∨ maximum ≤ base * (2 ^ 32 - 1) := by
  have hpow : 2 ^ 32 ≤ 2 ^ retry := Nat.pow_le_pow_right (by decide) hretry
  have hproduct : base * 2 ^ 32 ≤ base * 2 ^ retry := Nat.mul_le_mul_left base hpow
  have hshort : base * (2 ^ 32 - 1) = base * 2 ^ 32 - base := by rw [Nat.mul_sub, Nat.mul_one]
  unfold doubled
  constructor
  · intro heq
    omega
  · rintro (rfl | hmax)
    · simp
    · omega

/-- The wait is the doubled base up to the maximum exactly for the first 32 retries, for a base of
zero, and where the maximum is at most the base times `2^32 - 1`; from the 32nd retry on the wait
stays at this product, or at the maximum if that is less. It never becomes shorter from one retry to
the next, and never longer than the maximum. -/
theorem delay_eq_doubled_iff {s : RetrySettings} (hmax : s.effectiveMaxDelay < 2 ^ 64) :
    (∀ retry, (ofSettings s).delay retry =
        doubled s.effectiveBaseDelay s.effectiveMaxDelay retry ↔
      retry < 32 ∨ s.effectiveBaseDelay = 0 ∨
        s.effectiveMaxDelay ≤ s.effectiveBaseDelay * (2 ^ 32 - 1)) ∧
    (∀ retry, 32 ≤ retry → (ofSettings s).delay retry =
      min (s.effectiveBaseDelay * (2 ^ 32 - 1)) s.effectiveMaxDelay) ∧
    (∀ retry later, retry ≤ later → (ofSettings s).delay retry ≤ (ofSettings s).delay later) ∧
    ∀ retry, (ofSettings s).delay retry ≤ s.effectiveMaxDelay := by
  have hpolicy : (ofSettings s).maxDelay < 2 ^ 64 := hmax
  refine ⟨fun retry => ?_, fun retry => delay_of_le hpolicy, fun _ _ => delay_mono,
    fun _ => delay_le_maxDelay⟩
  rcases Nat.lt_or_ge retry 32 with hretry | hretry
  · exact iff_of_true (delay_of_lt hpolicy hretry) (.inl hretry)
  · rw [or_iff_right (Nat.not_lt.2 hretry), ← min_eq_doubled_iff hretry]
    exact iff_of_eq (congrArg (· = _) (delay_of_le hpolicy hretry))

/-- A millisecond at first, and a maximum that is no bound in practice. -/
def patient : RetrySettings := ⟨none, some 1, some (2 ^ 64 - 1)⟩

/-- The 31st doubling is exact, the 32nd is not. -/
theorem delay_patient :
    patient.effectiveMaxDelay < 2 ^ 64 ∧
      (ofSettings patient).delay 31 = doubled 1 (2 ^ 64 - 1) 31 ∧
      (ofSettings patient).delay 32 ≠ doubled 1 (2 ^ 64 - 1) 32 ∧
      (ofSettings patient).delay 32 = 2 ^ 32 - 1 := by
  have hmax : patient.effectiveMaxDelay < 2 ^ 64 := by decide
  obtain ⟨hdoubled, hlate, -, -⟩ := delay_eq_doubled_iff hmax
  refine ⟨hmax, (hdoubled 31).2 (.inl (by decide)), fun h => ?_, ?_⟩
  · exact absurd ((hdoubled 32).1 h) (by decide)
  · exact (hlate 32 (by decide)).trans (by decide)

/-- A wait is not always the doubled base up to the maximum, also where base and maximum have 64
bits and the number of retries has 32. -/
theorem delay_falls_short :
    ¬ ∀ (s : RetrySettings) (retry : Nat), s.effectiveBaseDelay < 2 ^ 64 →
      s.effectiveMaxDelay < 2 ^ 64 → retry < 2 ^ 32 → (ofSettings s).delay retry =
        doubled s.effectiveBaseDelay s.effectiveMaxDelay retry := by
  intro h
  exact absurd (h patient 32 (by decide) (by decide) (by decide)) (by decide)

end ResourceGraph.RetryPolicy
