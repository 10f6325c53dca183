import ResourceGraph.Scan.Provider

/-! Repeating a call after retryable errors, with delays that double. -/
namespace ResourceGraph

/-- Delays are in milliseconds. -/
structure RetryPolicy where
  maxAttempts : Nat
  baseDelay : Nat
  maxDelay : Nat

/-- How a call ended, and how often it was repeated. -/
structure Attempted (α : Type) where
  result : Except (ErrorClass × ProviderError) α
  retries : Nat

namespace RetryPolicy

def ofSettings (s : RetrySettings) : RetryPolicy :=
  ⟨s.effectiveMaxAttempts, s.effectiveBaseDelay, s.effectiveMaxDelay⟩

def standard : RetryPolicy := ofSettings .standard

/-- `2^retry`, as far as 32 bits hold it. -/
def factor (retry : Nat) : Nat :=
  if retry < 32 then Nat.pow 2 retry else Nat.pow 2 32 - 1

/-- The longest span of time, as whole milliseconds: its seconds have 64 bits. -/
def longestSpan : Nat := Nat.pow 2 64 * 1000 - 1

/-- The delay before a retry, counted from zero. -/
def delay (p : RetryPolicy) (retry : Nat) : Nat :=
  min (min (p.baseDelay * factor retry) longestSpan) p.maxDelay

variable {m : Type → Type} [Monad m] {α : Type}

/-- Repeats the call while it fails with a retryable error and further attempts are left; then such
an error is fatal. The call is told how many attempts came before it. -/
def attempt (c : Classifier) (call : Nat → m (Except ProviderError α)) :
    Nat → Nat → m (Attempted α)
  | retries, 0 => do
    match ← call retries with
    | .ok value => return ⟨.ok value, retries⟩
    | .error e =>
      return ⟨.error (if c.classify e = .retryable then .fatal else c.classify e, e), retries⟩
  | retries, more + 1 => do
    match ← call retries with
    | .ok value => return ⟨.ok value, retries⟩
    | .error e =>
      if c.classify e = .retryable then attempt c call (retries + 1) more
      else return ⟨.error (c.classify e, e), retries⟩

/-- Makes at most `maxAttempts` attempts, and at least one. -/
def run (p : RetryPolicy) (c : Classifier) (call : Nat → m (Except ProviderError α)) :
    m (Attempted α) :=
  attempt c call 0 (p.maxAttempts - 1)

end RetryPolicy

end ResourceGraph
