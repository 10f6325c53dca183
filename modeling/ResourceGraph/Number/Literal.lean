import ResourceGraph.Number.Basic

/-!
Numbers as a document writes them: an optional minus sign, whole digits without a leading zero, and
optionally a fraction and an exponent.

A number without fraction and exponent that fits 64 bits is kept exactly. Any other is a double: its
leading digits are taken as a 64-bit whole number, and that is multiplied or divided by a power of
ten, with one rounding for each operation.
-/
namespace ResourceGraph.Number

def isDigit (c : Char) : Bool := '0' ≤ c && c ≤ '9'

def digitValue (c : Char) : Nat := c.toNat - '0'.toNat

structure Literal where
  negative : Bool
  whole : List Char
  fraction : List Char
  exponent : Option (Bool × List Char)

/-- The text before and after the leading run of digits. -/
def spanDigits (cs : List Char) : List Char × List Char :=
  (cs.takeWhile isDigit, cs.dropWhile isDigit)

namespace Literal

/-- The optional fraction: a point must have digits after it. -/
def scanFraction? : List Char → Option (List Char × List Char)
  | '.' :: cs =>
    match spanDigits cs with
    | ([], _) => none
    | found => some found
  | cs => some ([], cs)

/-- The digits of an exponent after its sign. -/
def scanExponentDigits? (negative : Bool) (cs : List Char) :
    Option (Option (Bool × List Char) × List Char) :=
  match spanDigits cs with
  | ([], _) => none
  | (ds, rest) => some (some (negative, ds), rest)

def scanExponent? : List Char → Option (Option (Bool × List Char) × List Char)
  | c :: cs =>
    if c = 'e' || c = 'E' then
      match cs with
      | '-' :: cs => scanExponentDigits? true cs
      | '+' :: cs => scanExponentDigits? false cs
      | cs => scanExponentDigits? false cs
    else some (none, c :: cs)
  | [] => some (none, [])

/-- The literal at the start of the text and what follows it. -/
def scan? (cs : List Char) : Option (Literal × List Char) := do
  let (negative, cs) := match cs with
    | '-' :: cs => (true, cs)
    | cs => (false, cs)
  let (whole, cs) := spanDigits cs
  if whole.isEmpty || (whole.length > 1 && whole.head? == some '0') then none
  else
    let (fraction, cs) ← scanFraction? cs
    let (exponent, cs) ← scanExponent? cs
    some (⟨negative, whole, fraction, exponent⟩, cs)

def significandLimit : Nat := Nat.pow 2 64 - 1

/-- Leading digits that fit, and the number of digits left over. -/
def takeWhole (significand : Nat) : List Char → Nat × Nat
  | [] => (significand, 0)
  | c :: cs =>
    let next := significand * 10 + digitValue c
    if next ≤ significandLimit then takeWhole next cs else (significand, cs.length + 1)

/-- Further digits that fit, and how many they are. -/
def takeFraction (significand : Nat) : List Char → Nat × Nat
  | [] => (significand, 0)
  | c :: cs =>
    let next := significand * 10 + digitValue c
    if next ≤ significandLimit then
      let (result, taken) := takeFraction next cs
      (result, taken + 1)
    else (significand, 0)

def naturalOf (ds : List Char) : Nat := ds.foldl (fun n c => n * 10 + digitValue c) 0

/-- `f * 10^e` by powers of ten up to `10^308`; none on overflow. Two divisions by `10^308` take any
64-bit number to zero. -/
def scaleBy? (f : Double) (e : Int) : Nat → Option Double
  | 0 => some f
  | steps + 1 => do
    match Double.tenPow? e.natAbs with
    | some power => if e ≥ 0 then f.mul? power else f.div? power
    | none =>
      if f.isZero then some f
      else if e ≥ 0 then none
      else scaleBy? (← f.div? (← Double.tenPow? 308)) (e + 308) steps

def signed (negative : Bool) (f : Double) : Double := if negative then f.neg else f

/-- `significand * 10^e`; none on overflow. -/
def toDouble? (negative : Bool) (significand : Nat) (e : Int) : Option Double := do
  let f ← Double.ofRatio? false significand 1
  return signed negative (← scaleBy? f e 4)

def exponentLimit : Nat := Nat.pow 2 31 - 1

/-- None if the number is out of range. -/
def value? (l : Literal) : Option Number :=
  let (significand, dropped) := takeWhole 0 l.whole
  if l.fraction.isEmpty && l.exponent.isNone && dropped = 0 then
    if !l.negative then some (.int significand)
    else if 0 < significand && significand ≤ Nat.pow 2 63 then some (.int (-significand))
    else (toDouble? true significand 0).map .double
  else
    let (significand, taken) := takeFraction significand l.fraction
    let start : Int := (dropped : Int) - taken
    match l.exponent with
    | none => (toDouble? l.negative significand start).map .double
    | some (down, ds) =>
      let e := naturalOf ds
      if e > exponentLimit then
        if significand ≠ 0 && !down then none
        else some (.double (Double.zero l.negative))
      else
        let total := if down then start - e else start + e
        (toDouble? l.negative significand total).map .double

end Literal

end ResourceGraph.Number
