import ResourceGraph.Json.Basic

/-! Query expressions. Each is evaluated against one value, the current one. -/
namespace ResourceGraph.Query

inductive Comparator where
  | eq
  | ne
  | lt
  | le
  | gt
  | ge
deriving DecidableEq

/-- The parts of a slice; an absent one takes its default. -/
structure Slice where
  start : Option Int
  stop : Option Int
  step : Option Int
deriving DecidableEq

inductive Expr where
  /-- The current value, written `@` or left out after a projection. -/
  | current
  | field (name : String)
  /-- Evaluates `next` against the result of `first`; both `.` and the pipe. -/
  | chain (first next : Expr)
  | index (i : Int)
  | slice (s : Slice)
  /-- Evaluates `each` for every element of the list `source` and drops the nulls. -/
  | project (source each : Expr)
  /-- As `project`, for the elements where `test` is truthy. -/
  | filter (source test each : Expr)
  /-- The values of an object as a list. -/
  | values (source : Expr)
  /-- The elements of a list, with those that are lists themselves opened once. -/
  | flatten (source : Expr)
  | list (items : List Expr)
  | hash (entries : List (String × Expr))
  | literal (value : Json)
  | not (e : Expr)
  | and (left right : Expr)
  | or (left right : Expr)
  | compare (op : Comparator) (left right : Expr)
  | call (name : String) (args : List Expr)
  /-- An expression handed to a function unevaluated. -/
  | reference (e : Expr)

end ResourceGraph.Query
