import ResourceGraph.Query.Expr

/-! The positions that an index or a slice takes from a list. Negative ones count from the end. -/
namespace ResourceGraph.Query

/-- The position of an index in a list of the given length, if it is in range. -/
def position? (i : Int) (length : Nat) : Option Nat :=
  let p := if i < 0 then i + length else i
  if 0 ≤ p && p < length then some p.toNat else none

/-- A bound counted from the start and kept between two limits. -/
def clampBound (bound : Int) (length : Nat) (low high : Int) : Int :=
  let b := if bound < 0 then bound + length else bound
  max low (min high b)

/-- Every `step`-th position from `i` until `stop` is reached or passed. The count bounds how many
there are. -/
def walk (stop step : Int) (i : Int) : Nat → List Nat
  | 0 => []
  | n + 1 =>
    if (0 < step && i < stop) || (step < 0 && stop < i) then
      i.toNat :: walk stop step (i + step) n
    else []

namespace Slice

def positions (s : Slice) (length : Nat) : List Nat :=
  let step := s.step.getD 1
  if 0 < step then
    let start := s.start.elim 0 (clampBound · length 0 length)
    let stop := s.stop.elim (length : Int) (clampBound · length 0 length)
    walk stop step start length
  else
    let last : Int := (length : Int) - 1
    let start := s.start.elim last (clampBound · length (-1) last)
    let stop := s.stop.elim (-1) (clampBound · length (-1) last)
    walk stop step start length

def apply (s : Slice) (items : List Json) : List Json :=
  (s.positions items.length).filterMap (items[·]?)

end Slice

end ResourceGraph.Query
