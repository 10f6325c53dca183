import ResourceGraph.Number.Rounding

/-! Finite doubles: a sign, a mantissa below `2^53` and a binary exponent. -/
namespace ResourceGraph.Number

/-- Each magnitude has one form: the mantissa is full unless the exponent is the least. -/
def Scaled.Canonical (x : Scaled) : Prop :=
  x.mantissa < Nat.pow 2 53 ∧ (Nat.pow 2 52 ≤ x.mantissa ∨ x.shift = 0) ∧ x.shift ≤ 2045

instance (x : Scaled) : Decidable x.Canonical :=
  inferInstanceAs (Decidable (_ ∧ _ ∧ _))

structure Double where
  negative : Bool
  magnitude : Scaled
  canonical : magnitude.Canonical
deriving DecidableEq

namespace Double

/-- The value in units of `2^-1074`. Both zeros have the value zero. -/
def units (x : Double) : Int :=
  if x.negative then -(x.magnitude.units : Int) else x.magnitude.units

/-- None if the magnitude is out of range. -/
def ofScaled? (negative : Bool) (m : Scaled) : Option Double :=
  if h : m.Canonical then some ⟨negative, m, h⟩ else none

/-- The double nearest to `num / den`. -/
def ofRatio? (negative : Bool) (num den : Nat) : Option Double :=
  ofScaled? negative (Scaled.nearest (num * unitsPerOne) den)

def zero (negative : Bool) : Double := ⟨negative, ⟨0, 0⟩, by decide⟩

def isZero (x : Double) : Bool := x.magnitude.mantissa == 0

def neg (x : Double) : Double := { x with negative := !x.negative }

/-- The product, rounded; none on overflow. -/
def mul? (x y : Double) : Option Double :=
  ofScaled? (x.negative != y.negative)
    (Scaled.nearest (x.magnitude.units * y.magnitude.units) unitsPerOne)

/-- The quotient by a divisor other than zero, rounded; none on overflow. -/
def div? (x y : Double) : Option Double :=
  ofScaled? (x.negative != y.negative)
    (Scaled.nearest (x.magnitude.units * unitsPerOne) y.magnitude.units)

/-- The power of ten nearest to `10^n`, for `n` up to 308. -/
def tenPow? (n : Nat) : Option Double :=
  if n ≤ 308 then ofRatio? false (Nat.pow 10 n) 1 else none

end Double

end ResourceGraph.Number
