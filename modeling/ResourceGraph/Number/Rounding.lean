/-!
Rounding to 53 significant binary digits. A magnitude is counted in units of `2^-1074`, the
smallest step of a double, and so every double is a whole number of units.
-/
namespace ResourceGraph.Number

/-- `num / den` to the nearest whole number, a half to the even neighbour. -/
def roundHalfEven (num den : Nat) : Nat :=
  let q := num / den
  let r := num % den
  if 2 * r > den || (2 * r == den && q % 2 == 1) then q + 1 else q

/-- The magnitude `mantissa * 2^shift`, in units. -/
structure Scaled where
  mantissa : Nat
  shift : Nat
deriving DecidableEq

def Scaled.units (x : Scaled) : Nat := x.mantissa * Nat.pow 2 x.shift

/-- A whole mantissa that reached `2^53` moves up by one binary place. -/
def Scaled.carry (x : Scaled) : Scaled :=
  if x.mantissa = Nat.pow 2 53 then ⟨Nat.pow 2 52, x.shift + 1⟩ else x

/-- `num / den` units to the nearest magnitude of 53 significant binary digits. -/
def Scaled.nearest (num den : Nat) : Scaled :=
  let q := num / den
  let shift := if q < Nat.pow 2 53 then 0 else q.log2 - 52
  Scaled.carry ⟨roundHalfEven num (den * Nat.pow 2 shift), shift⟩

/-- The number of units in one. -/
def unitsPerOne : Nat := Nat.pow 2 1074

/-- The whole number `n`, rounded. -/
def Scaled.ofNat (n : Nat) : Scaled := Scaled.nearest (n * unitsPerOne) 1

end ResourceGraph.Number
