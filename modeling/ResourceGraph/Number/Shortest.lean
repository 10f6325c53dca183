import ResourceGraph.Number.Double

/-!
The shortest decimal that reads back as a given double, and of those the nearest. A double's
magnitude owns the interval of values that round to it; the decimal grids of 1, 2, ... 17
significant digits are tried in turn, on each the two neighbours of the magnitude.
-/
namespace ResourceGraph.Number

/-- `digits * 10^exponent`. -/
structure Decimal where
  digits : Nat
  exponent : Int
deriving DecidableEq

/-- The interval of values that round to a magnitude, in quarters of a unit. Its ends belong to it
if the mantissa is even. -/
structure Interval where
  low : Nat
  centre : Nat
  high : Nat
  closed : Bool

/-- Below a power of two the neighbours are half as far apart. -/
def Scaled.interval (x : Scaled) : Interval :=
  let step := Nat.pow 2 x.shift
  let below := if x.mantissa = Nat.pow 2 52 && x.shift > 0 then step else 2 * step
  let centre := 4 * x.units
  ⟨centre - below, centre, centre + 2 * step, x.mantissa % 2 == 0⟩

/-- Whether `num / den` quarters lie in the interval. -/
def Interval.holds (i : Interval) (num den : Nat) : Bool :=
  if i.closed then i.low * den ≤ num && num ≤ i.high * den
  else i.low * den < num && num < i.high * den

/-- `n * 10^e` quarters of a unit, as a fraction. -/
def quarters (n : Nat) (e : Int) : Nat × Nat :=
  if e ≥ 0 then (n * Nat.pow 10 e.toNat * (4 * unitsPerOne), 1)
  else (n * (4 * unitsPerOne), Nat.pow 10 (-e).toNat)

/-- The nearer of the two neighbours on the grid `10^e` that reads back, a tie to the even one. -/
def Interval.onGrid? (i : Interval) (e : Int) : Option Decimal :=
  let (one, den) := quarters 1 e
  let floor := i.centre * den / one
  let down := i.holds (floor * one) den && floor > 0
  let up := i.holds ((floor + 1) * one) den
  let rest := i.centre * den % one
  let upIsNearer := 2 * rest > one || (2 * rest == one && floor % 2 == 1)
  if down && up then some ⟨if upIsNearer then floor + 1 else floor, e⟩
  else if down then some ⟨floor, e⟩
  else if up then some ⟨floor + 1, e⟩
  else none

/-- The power of ten of the leading digit. -/
def Scaled.leadingExponent (x : Scaled) : Int :=
  let guess : Int := ((x.units.log2 : Int) - 1074) * 30103 / 100000
  let atLeast (e : Int) : Bool :=
    let (one, den) := quarters 1 e
    one ≤ 4 * x.units * den
  if atLeast (guess + 1) then guess + 1 else if atLeast guess then guess else guess - 1

/-- The first grid with a hit, from the coarsest. -/
def Interval.shortest (i : Interval) (leading : Int) : Nat → Decimal
  | 0 => ⟨0, 0⟩
  | n + 1 =>
    match i.onGrid? (leading - (16 - n : Nat)) with
    | some d => d
    | none => i.shortest leading n

/-- Trailing zeros belong to the exponent. -/
def Decimal.trimmed (d : Decimal) : Nat → Decimal
  | 0 => d
  | n + 1 =>
    if d.digits % 10 = 0 && d.digits ≠ 0 then
      Decimal.trimmed ⟨d.digits / 10, d.exponent + 1⟩ n
    else d

def Scaled.toDecimal (x : Scaled) : Decimal :=
  if x.mantissa = 0 then ⟨0, 0⟩
  else (x.interval.shortest x.leadingExponent 17).trimmed 17

/-- The least and greatest power of ten of a leading digit that is still written positionally. -/
structure Positional where
  least : Int
  greatest : Int

/-- Doubles are positional from `1e-5` and below `1e16`. -/
def Positional.standard : Positional := ⟨-5, 15⟩

def zeros (n : Nat) : List Char := List.replicate n '0'

/-- The digits with a point, or with an exponent whose sign is always written. A positional number
has a digit on both sides of its point. -/
def Decimal.render (style : Positional) (d : Decimal) : List Char :=
  let ds := Nat.toDigits 10 d.digits
  let leading : Int := d.exponent + (ds.length : Int) - 1
  if d.digits = 0 then ['0', '.', '0']
  else if style.least ≤ leading && leading ≤ style.greatest then
    if d.exponent ≥ 0 then ds ++ zeros d.exponent.toNat ++ ['.', '0']
    else if leading ≥ 0 then
      let whole := (leading + 1).toNat
      ds.take whole ++ '.' :: ds.drop whole
    else '0' :: '.' :: (zeros (-leading - 1).toNat ++ ds)
  else
    let tail := match ds.drop 1 with
      | [] => []
      | rest => '.' :: rest
    let sign := if leading < 0 then '-' else '+'
    ds.take 1 ++ tail ++ 'e' :: sign :: Nat.toDigits 10 leading.natAbs

def Double.render (x : Double) : List Char :=
  let body := x.magnitude.toDecimal.render Positional.standard
  if x.negative then '-' :: body else body

end ResourceGraph.Number
