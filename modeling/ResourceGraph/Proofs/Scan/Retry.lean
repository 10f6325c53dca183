import ResourceGraph.Scan.Retry

/-!
# How often a call is repeated

A call settles if it succeeds or fails with an error that is not retryable. Of a sequence of calls
the first one that settles decides, if the policy allows as many; else the last call that it allows
does, and its error is fatal. The sequence of outcomes is infinite, and nothing is assumed about it.
The repetition is a recursion on the attempts that are left. As a loop that counts up to the limit
it ends in the same way, and its counter stays within 32 bits.
-/
namespace ResourceGraph.RetryPolicy

variable {α : Type} {c : Classifier} {outcomes : Nat → Except ProviderError α}

/-- Success, or an error that is not retryable. -/
def Settles (c : Classifier) (outcome : Except ProviderError α) : Prop :=
  ∀ e, outcome = .error e → c.classify e ≠ .retryable

/-- The outcome, where an error has its own class. -/
def classified (c : Classifier) (outcome : Except ProviderError α) :
    Except (ErrorClass × ProviderError) α :=
  outcome.mapError fun e => (c.classify e, e)

/-- A call that takes one outcome after the other and counts those that it took. -/
def taking (outcomes : Nat → Except ProviderError α) (_ : Nat) :
    StateM Nat (Except ProviderError α) :=
  fun calls => (outcomes calls, calls + 1)

/-- The first call that settles is the `k`-th. -/
structure FirstSettled (c : Classifier) (outcomes : Nat → Except ProviderError α) (k : Nat) :
    Prop where
  pos : 0 < k
  settles : Settles c (outcomes (k - 1))
  earlier : ∀ n, n + 1 < k → ¬ Settles c (outcomes n)

theorem not_settles_iff {outcome : Except ProviderError α} :
    ¬ Settles c outcome ↔ ∃ e, outcome = .error e ∧ c.classify e = .retryable := by
  simp [Settles]

/-! ## One call -/

section Step

variable {retries more calls : Nat} {e : ProviderError}

theorem run_taking_bind {β : Type} {f : Except ProviderError α → StateM Nat β} :
    (taking outcomes retries >>= f).run calls = (f (outcomes calls)).run (calls + 1) :=
  rfl

/-- A call that settles is the last one, however many are left. -/
theorem run_attempt_of_settles (h : Settles c (outcomes calls)) :
    (attempt c (taking outcomes) retries more).run calls =
      (⟨classified c (outcomes calls), retries⟩, calls + 1) := by
  cases houtcome : outcomes calls with
  | ok value =>
    cases more with
    | _ =>
      rw [attempt, run_taking_bind, houtcome]
      rfl
  | error e =>
    cases more with
    | _ =>
      rw [attempt, run_taking_bind, houtcome]
      simp only [if_neg (h e houtcome)]
      rfl

theorem run_attempt_last (h : outcomes calls = .error e) (hretryable : c.classify e = .retryable) :
    (attempt c (taking outcomes) retries 0).run calls =
      (⟨.error (.fatal, e), retries⟩, calls + 1) := by
  rw [attempt, run_taking_bind, h]
  simp only [if_pos hretryable]
  rfl

theorem run_attempt_again (h : outcomes calls = .error e)
    (hretryable : c.classify e = .retryable) :
    (attempt c (taking outcomes) retries (more + 1)).run calls =
      (attempt c (taking outcomes) (retries + 1) more).run (calls + 1) := by
  rw [attempt, run_taking_bind, h]
  simp only [if_pos hretryable]

end Step

/-! ## All calls -/

section Run

variable {retries more calls : Nat}

/-- If one of the calls that are left settles, the first such call decides. -/
theorem run_attempt_of_first {n : Nat} (hn : n ≤ more) (hsettles : Settles c (outcomes (calls + n)))
    (hearlier : ∀ i < n, ¬ Settles c (outcomes (calls + i))) :
    (attempt c (taking outcomes) retries more).run calls =
      (⟨classified c (outcomes (calls + n)), retries + n⟩, calls + n + 1) := by
  induction n generalizing retries more calls with
  | zero => exact run_attempt_of_settles hsettles
  | succ n ih =>
    cases more with
    | zero => exact absurd hn (Nat.not_succ_le_zero n)
    | succ more =>
      obtain ⟨e, he, hretryable⟩ := not_settles_iff.1 (hearlier 0 (Nat.zero_lt_succ n))
      rw [Nat.add_zero] at he
      have hshift : ∀ i, calls + (i + 1) = calls + 1 + i := fun i => by omega
      have hrest : ∀ i < n, ¬ Settles c (outcomes (calls + 1 + i)) := by
        intro i hi
        rw [← hshift]
        exact hearlier (i + 1) (Nat.succ_lt_succ hi)
      rw [hshift n] at hsettles
      rw [run_attempt_again he hretryable, ih (Nat.le_of_succ_le_succ hn) hsettles hrest, hshift n,
        Nat.add_assoc retries, Nat.add_comm 1 n]

/-- If none does, the last one ends the attempts with its error. -/
theorem run_attempt_of_none (hnone : ∀ i ≤ more, ¬ Settles c (outcomes (calls + i))) :
    ∃ e, outcomes (calls + more) = .error e ∧
      (attempt c (taking outcomes) retries more).run calls =
        (⟨.error (.fatal, e), retries + more⟩, calls + more + 1) := by
  induction more generalizing retries calls with
  | zero =>
    obtain ⟨e, he, hretryable⟩ := not_settles_iff.1 (hnone 0 (Nat.le_refl 0))
    exact ⟨e, he, run_attempt_last he hretryable⟩
  | succ more ih =>
    obtain ⟨e, he, hretryable⟩ := not_settles_iff.1 (hnone 0 (Nat.zero_le _))
    rw [Nat.add_zero] at he
    have hshift : ∀ i, calls + (i + 1) = calls + 1 + i := fun i => by omega
    have hrest : ∀ i ≤ more, ¬ Settles c (outcomes (calls + 1 + i)) := by
      intro i hi
      rw [← hshift]
      exact hnone (i + 1) (Nat.succ_le_succ hi)
    obtain ⟨last, hlast, hrun⟩ := @ih (retries + 1) (calls + 1) hrest
    rw [← hshift more] at hlast hrun
    refine ⟨last, hlast, ?_⟩
    rw [run_attempt_again he hretryable, hrun, Nat.add_assoc retries, Nat.add_comm 1 more]

end Run

/-! ## The loop -/

/-- The number after `n`, if 32 bits hold it. -/
def nextWord? (n : Nat) : Option Nat := if n + 1 < Nat.pow 2 32 then some (n + 1) else none

/-- How a turn of the loop ends: with the loop, or with the number of retries for the next turn. -/
inductive Turn (α : Type) where
  | done (attempted : Attempted α)
  | again (retries : Nat)

/-- One turn of the loop. The number of retries goes up before it is compared with the limit; there
is no turn if 32 bits do not hold it. -/
def turn? (limit : Nat) (c : Classifier) (outcome : Except ProviderError α) (retries : Nat) :
    Option (Turn α) :=
  match outcome with
  | .ok value => some (.done ⟨.ok value, retries⟩)
  | .error e =>
    if c.classify e = .retryable then
      (nextWord? retries).map fun next =>
        if next < limit then .again next else .done ⟨.error (.fatal, e), retries⟩
    else some (.done ⟨.error (c.classify e, e), retries⟩)

/-- With so many retries and calls behind it, the loop ends in this way, after so many calls in
all. -/
inductive Ends (limit : Nat) (c : Classifier) (outcomes : Nat → Except ProviderError α) :
    Nat → Nat → Attempted α → Nat → Prop
  | done {retries calls : Nat} {attempted : Attempted α} :
      turn? limit c (outcomes calls) retries = some (.done attempted) →
      Ends limit c outcomes retries calls attempted (calls + 1)
  | again {retries next calls total : Nat} {attempted : Attempted α} :
      turn? limit c (outcomes calls) retries = some (.again next) →
      Ends limit c outcomes next (calls + 1) attempted total →
      Ends limit c outcomes retries calls attempted total

section Loop

variable {limit retries calls : Nat}

theorem Ends.unique {attempted other : Attempted α} {total count : Nat}
    (h : Ends limit c outcomes retries calls attempted total)
    (h' : Ends limit c outcomes retries calls other count) :
    other = attempted ∧ count = total := by
  induction h with
  | done hturn =>
    cases h' with
    | done hturn' =>
      rw [hturn] at hturn'
      cases hturn'
      exact ⟨rfl, rfl⟩
    | again hturn' =>
      rw [hturn] at hturn'
      cases hturn'
  | again hturn _ ih =>
    cases h' with
    | done hturn' =>
      rw [hturn] at hturn'
      cases hturn'
    | again hturn' hrest =>
      rw [hturn] at hturn'
      cases hturn'
      exact ih hrest

theorem turn?_of_settles {outcome : Except ProviderError α} (h : Settles c outcome) :
    turn? limit c outcome retries = some (.done ⟨classified c outcome, retries⟩) := by
  cases outcome with
  | ok value => rfl
  | error e => rw [turn?, if_neg (h e rfl)]; rfl

theorem turn?_of_retryable {e : ProviderError} (hretryable : c.classify e = .retryable)
    (hword : retries + 1 < Nat.pow 2 32) :
    turn? limit c (.error e : Except ProviderError α) retries =
      some (if retries + 1 < limit then .again (retries + 1)
        else .done ⟨.error (.fatal, e), retries⟩) := by
  rw [turn?, if_pos hretryable, nextWord?, if_pos hword, Option.map_some]

theorem ends_attempt_of_settles {more : Nat} (h : Settles c (outcomes calls)) :
    Ends limit c outcomes retries calls
      ((attempt c (taking outcomes) retries more).run calls).1
      ((attempt c (taking outcomes) retries more).run calls).2 := by
  rw [run_attempt_of_settles h]
  exact .done (turn?_of_settles h)

/-- While 32 bits hold the limit, the loop ends as the recursion does on the attempts that the limit
leaves. -/
theorem ends_attempt {more : Nat} (hlimit : limit < Nat.pow 2 32)
    (hmore : retries + more = limit - 1) :
    Ends limit c outcomes retries calls
      ((attempt c (taking outcomes) retries more).run calls).1
      ((attempt c (taking outcomes) retries more).run calls).2 := by
  have hword : ∀ {n : Nat}, n ≤ limit - 1 → n + 1 < Nat.pow 2 32 := by
    have hone : 1 < Nat.pow 2 32 := by decide
    omega
  induction more generalizing retries calls with
  | zero =>
    -- nothing is left: the next number of retries is not below the limit
    by_cases hsettles : Settles c (outcomes calls)
    · exact ends_attempt_of_settles hsettles
    · obtain ⟨e, he, hretryable⟩ := not_settles_iff.1 hsettles
      rw [run_attempt_last he hretryable]
      refine .done ?_
      rw [he, turn?_of_retryable hretryable (hword (by omega)), if_neg (by omega)]
  | succ more ih =>
    by_cases hsettles : Settles c (outcomes calls)
    · exact ends_attempt_of_settles hsettles
    · obtain ⟨e, he, hretryable⟩ := not_settles_iff.1 hsettles
      rw [run_attempt_again he hretryable]
      refine .again ?_ (ih (by omega))
      rw [he, turn?_of_retryable hretryable (hword (by omega)), if_pos (by omega)]

end Loop

/-! ## The policy -/

/-- How a call ends that is made `m` times at most: by the first outcome that settles, or else by
the error of the last call, which is fatal. -/
structure Reference (m : Nat) (c : Classifier) (outcomes : Nat → Except ProviderError α)
    (attempted : Attempted α) (calls : Nat) : Prop where
  settled : ∀ k, FirstSettled c outcomes k → k ≤ m →
    calls = k ∧ attempted.retries = k - 1 ∧ attempted.result = classified c (outcomes (k - 1))
  exhausted : (∀ k, FirstSettled c outcomes k → m < k) →
    calls = m ∧ attempted.retries = m - 1 ∧
      ∃ e, outcomes (m - 1) = .error e ∧ attempted.result = .error (.fatal, e)
  never_retryable : ∀ e, attempted.result ≠ .error (.retryable, e)

theorem FirstSettled.le {k n : Nat} (h : FirstSettled c outcomes k)
    (hsettles : Settles c (outcomes n)) : k ≤ n + 1 :=
  Nat.le_of_not_lt fun hlt => h.earlier n hlt hsettles

theorem FirstSettled.unique {k k' : Nat} (h : FirstSettled c outcomes k)
    (h' : FirstSettled c outcomes k') : k' = k := by
  have hle := h.le h'.settles
  have hle' := h'.le h.settles
  have hpos := h.pos
  have hpos' := h'.pos
  omega

/-- Among the first `m` calls there is one that settles, or there is none. -/
theorem firstSettled_or_none (c : Classifier) (outcomes : Nat → Except ProviderError α) (m : Nat) :
    (∃ k ≤ m, FirstSettled c outcomes k) ∨ ∀ n < m, ¬ Settles c (outcomes n) := by
  induction m with
  | zero => exact .inr fun n hn => absurd hn (Nat.not_lt_zero n)
  | succ m ih =>
    rcases ih with ⟨k, hk, hfirst⟩ | hnone
    · exact .inl ⟨k, Nat.le_succ_of_le hk, hfirst⟩
    · by_cases hsettles : Settles c (outcomes m)
      · exact .inl ⟨m + 1, Nat.le_refl _, Nat.succ_pos m, hsettles,
          fun n hn => hnone n (Nat.lt_of_succ_lt_succ hn)⟩
      · refine .inr fun n hn => ?_
        rcases Nat.lt_or_eq_of_le (Nat.le_of_lt_succ hn) with hlt | rfl
        · exact hnone n hlt
        · exact hsettles

theorem classified_ne_retryable {outcome : Except ProviderError α} (h : Settles c outcome)
    {e : ProviderError} : classified c outcome ≠ .error (.retryable, e) := by
  cases outcome with
  | ok value => exact nofun
  | error e' =>
    intro heq
    have hclass : (c.classify e', e') = (.retryable, e) := Except.error.inj heq
    exact h e' rfl (Prod.mk.inj hclass).1

theorem reference_attempt {m : Nat} (hm : 0 < m) :
    Reference m c outcomes ((attempt c (taking outcomes) 0 (m - 1)).run 0).1
      ((attempt c (taking outcomes) 0 (m - 1)).run 0).2 := by
  rcases firstSettled_or_none c outcomes m with ⟨k, hk, hfirst⟩ | hnone
  · have hpos := hfirst.pos
    have hrun : (attempt c (taking outcomes) 0 (m - 1)).run 0 =
        (⟨classified c (outcomes (k - 1)), k - 1⟩, k) := by
      have hsettles : Settles c (outcomes (0 + (k - 1))) := by
        rw [Nat.zero_add]
        exact hfirst.settles
      rw [run_attempt_of_first (by omega) hsettles, Nat.zero_add, Nat.sub_add_cancel hpos]
      intro i hi
      rw [Nat.zero_add]
      exact hfirst.earlier i (by omega)
    rw [hrun]
    refine ⟨fun k' hfirst' _ => ?_, fun hlater => ?_, fun e => ?_⟩
    · obtain rfl := hfirst.unique hfirst'
      exact ⟨rfl, rfl, rfl⟩
    · exact absurd (hlater k hfirst) (Nat.not_lt_of_le hk)
    · exact classified_ne_retryable hfirst.settles
  · have hrest : ∀ i ≤ m - 1, ¬ Settles c (outcomes (0 + i)) := by
      intro i hi
      rw [Nat.zero_add]
      exact hnone i (by omega)
    obtain ⟨e, he, hrun⟩ : ∃ e, outcomes (0 + (m - 1)) = .error e ∧
        (attempt c (taking outcomes) 0 (m - 1)).run 0 =
          (⟨.error (.fatal, e), 0 + (m - 1)⟩, 0 + (m - 1) + 1) := run_attempt_of_none hrest
    rw [Nat.zero_add] at he hrun
    rw [hrun, Nat.sub_add_cancel hm]
    refine ⟨fun k hfirst hk => ?_, fun _ => ⟨rfl, rfl, e, he, rfl⟩, fun e' => ?_⟩
    · have hpos := hfirst.pos
      exact absurd hfirst.settles (hnone (k - 1) (by omega))
    · intro heq
      cases heq

/-- A policy ends every call, whatever its outcomes are, as the reference for its number of attempts
does, where none counts as one. With a limit of 32 bits the loop ends so and in no other way; its
counter never has to hold more. -/
theorem run_taking (p : RetryPolicy) (c : Classifier) (outcomes : Nat → Except ProviderError α) :
    ∃ attempted calls, (p.run c (taking outcomes)).run 0 = (attempted, calls) ∧
      Reference (max p.maxAttempts 1) c outcomes attempted calls ∧
      (p.maxAttempts < Nat.pow 2 32 → ∀ other count,
        Ends p.maxAttempts c outcomes 0 0 other count ↔ other = attempted ∧ count = calls) := by
  have hmore : p.maxAttempts - 1 = max p.maxAttempts 1 - 1 := by omega
  have hrun : p.run c (taking outcomes) =
      attempt c (taking outcomes) 0 (max p.maxAttempts 1 - 1) := by
    rw [← hmore]
    rfl
  rw [hrun]
  refine ⟨_, _, rfl, reference_attempt (by omega), fun hlimit other count => ?_⟩
  have hends : Ends p.maxAttempts c outcomes 0 0
      ((attempt c (taking outcomes) 0 (max p.maxAttempts 1 - 1)).run 0).1
      ((attempt c (taking outcomes) 0 (max p.maxAttempts 1 - 1)).run 0).2 :=
    ends_attempt hlimit ((Nat.zero_add _).trans hmore.symm)
  constructor
  · intro hother
    exact hends.unique hother
  · intro hsame
    obtain ⟨rfl, rfl⟩ := hsame
    exact hends

/-- Two calls that are throttled, and then success. -/
def throttledTwice (calls : Nat) : Except ProviderError Nat :=
  if calls < 2 then .error ⟨"Throttling", "slow down"⟩ else .ok calls

/-- With three attempts the third one succeeds. With none there is one, and its error is fatal. -/
theorem run_taking_throttledTwice :
    FirstSettled ⟨standardIgnorable, standardRetryable⟩ throttledTwice 3 ∧
    (∃ attempted, (run ⟨3, 0, 0⟩ ⟨standardIgnorable, standardRetryable⟩
        (taking throttledTwice)).run 0 = (attempted, 3) ∧
      attempted.retries = 2 ∧ attempted.result = .ok 2) ∧
    ∃ attempted, (run ⟨0, 0, 0⟩ ⟨standardIgnorable, standardRetryable⟩
        (taking throttledTwice)).run 0 = (attempted, 1) ∧
      attempted.retries = 0 ∧ ∃ e, attempted.result = .error (.fatal, e) := by
  have hfirst : FirstSettled ⟨standardIgnorable, standardRetryable⟩ throttledTwice 3 := by
    refine ⟨by decide, nofun, fun n hn => not_settles_iff.2 ?_⟩
    have hcall : throttledTwice n = .error ⟨"Throttling", "slow down"⟩ :=
      if_pos (Nat.lt_of_succ_lt_succ hn)
    exact ⟨_, hcall, by decide⟩
  refine ⟨hfirst, ?_, ?_⟩
  · obtain ⟨attempted, calls, hrun, href, -⟩ :=
      run_taking ⟨3, 0, 0⟩ ⟨standardIgnorable, standardRetryable⟩ throttledTwice
    obtain ⟨rfl, hretries, hresult⟩ := href.settled 3 hfirst (by decide)
    exact ⟨attempted, hrun, hretries, hresult⟩
  · obtain ⟨attempted, calls, hrun, href, -⟩ :=
      run_taking ⟨0, 0, 0⟩ ⟨standardIgnorable, standardRetryable⟩ throttledTwice
    have hlater : ∀ k, FirstSettled ⟨standardIgnorable, standardRetryable⟩ throttledTwice k →
        max 0 1 < k := by
      intro k hk
      rw [hfirst.unique hk]
      decide
    obtain ⟨rfl, hretries, e, -, hresult⟩ := href.exhausted hlater
    exact ⟨attempted, hrun, hretries, e, hresult⟩

end ResourceGraph.RetryPolicy
