import ResourceGraph.Number.Shortest

/-!
Numbers of a document: whole numbers kept exactly, and doubles. They are compared by the double
nearest to them, and so two large whole numbers may compare as equal.
-/
namespace ResourceGraph

open Number (Double Scaled)

inductive Number where
  | int (i : Int)
  | double (d : Double)
deriving DecidableEq

namespace Number

/-- The whole numbers that are kept exactly. -/
def InRange (i : Int) : Prop := -Int.pow 2 63 ≤ i ∧ i < Int.pow 2 64

instance (i : Int) : Decidable (InRange i) := inferInstanceAs (Decidable (_ ∧ _))

/-- The value of the nearest double, in units of `2^-1074`. -/
def units : Number → Int
  | .int i =>
    let magnitude : Int := (Scaled.ofNat i.natAbs).units
    if i < 0 then -magnitude else magnitude
  | .double d => d.units

def same (a b : Number) : Bool := a.units == b.units

def order (a b : Number) : Ordering := compare a.units b.units

def render : Number → List Char
  | .int i => (toString i).toList
  | .double d => d.render

end Number

end ResourceGraph
