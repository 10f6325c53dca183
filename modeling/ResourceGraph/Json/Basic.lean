import ResourceGraph.Number.Basic

/-!
JSON values. The fields of an object keep the order in which they were first written; a field that
is written again keeps its place and takes the new value.
-/
namespace ResourceGraph

inductive Json where
  | null
  | bool (b : Bool)
  | num (n : Number)
  | str (s : String)
  | arr (items : List Json)
  | obj (fields : List (String × Json))
deriving BEq, Inhabited

/-- The fields of an object. -/
abbrev Fields := List (String × Json)

namespace Fields

def get? (fields : Fields) (key : String) : Option Json := fields.lookup key

def contains (fields : Fields) (key : String) : Bool := fields.any (·.1 == key)

def keys (fields : Fields) : List String := fields.map (·.1)

/-- Replaces the value of a key in its place, or adds the field at the end. -/
def insert (fields : Fields) (key : String) (value : Json) : Fields :=
  match fields with
  | [] => [(key, value)]
  | (k, v) :: rest => if k = key then (k, value) :: rest else (k, v) :: insert rest key value

def ofList (entries : List (String × Json)) : Fields :=
  entries.foldl (fun fields (key, value) => fields.insert key value) []

end Fields

namespace Json

def field? : Json → String → Option Json
  | .obj fields, key => Fields.get? fields key
  | _, _ => none

def str? : Json → Option String
  | .str s => some s
  | _ => none

def isNull : Json → Bool
  | .null => true
  | _ => false

def ofNat (n : Nat) : Json := .num (.int n)

def ofInt (n : Int) : Json := .num (.int n)

def ofStrings (texts : List String) : Json := .arr (texts.map .str)

/-- Null for an absent number. -/
def ofNat? (n : Option Nat) : Json := n.elim .null ofNat

/-- Null for an absent text. -/
def ofStr? (s : Option String) : Json := s.elim .null .str

mutual

/-- Equal values have the same shape and the same parts; numbers are compared by value, and the
order of an object's fields does not matter. -/
def same : Json → Json → Bool
  | .null, .null => true
  | .bool a, .bool b => a == b
  | .num a, .num b => a.same b
  | .str a, .str b => a == b
  | .arr as, .arr bs => as.length == bs.length && sameItems as bs
  | .obj as, .obj bs => as.length == bs.length && sameFields as bs
  | _, _ => false

def sameItems : List Json → List Json → Bool
  | a :: as, b :: bs => same a b && sameItems as bs
  | _, _ => true

def sameFields : List (String × Json) → List (String × Json) → Bool
  | [], _ => true
  | (key, a) :: as, bs =>
    (match Fields.get? bs key with
      | some b => same a b
      | none => false) && sameFields as bs

end

end Json

end ResourceGraph
