import ResourceGraph.Query.Expr
import ResourceGraph.Query.Function
import ResourceGraph.Query.Slice

/-! The value of an expression on a current value. Missing data is null and no error. -/
namespace ResourceGraph.Query

/-- Null, false, and what is empty are falsy; every number is truthy. -/
def truthy : Json → Bool
  | .null => false
  | .bool b => b
  | .str s => s ≠ ""
  | .arr items => !items.isEmpty
  | .obj fields => !fields.isEmpty
  | .num _ => true

/-- Equality of any two values, and the order of two numbers; what has no order gives null. -/
def compareValues (op : Comparator) (a b : Json) : Json :=
  match op, a, b with
  | .eq, _, _ => .bool (a.same b)
  | .ne, _, _ => .bool !(a.same b)
  | .lt, .num x, .num y => .bool (x.order y == .lt)
  | .le, .num x, .num y => .bool (x.order y != .gt)
  | .gt, .num x, .num y => .bool (x.order y == .gt)
  | .ge, .num x, .num y => .bool (x.order y != .lt)
  | _, _, _ => .null

/-- The elements, with those that are lists opened once. -/
def flattenOnce (items : List Json) : List Json :=
  items.flatMap fun
    | .arr nested => nested
    | other => [other]

/-- The results for the elements in order, without the nulls; the first error ends it. -/
def projectItems (each : Body) : List Json → Except QueryError (List Json)
  | [] => .ok []
  | item :: items => do
    let value ← each item
    let values ← projectItems each items
    return if value.isNull then values else value :: values

/-- As `projectItems`, for the elements that pass the test. -/
def filterItems (test each : Body) : List Json → Except QueryError (List Json)
  | [] => .ok []
  | item :: items => do
    if truthy (← test item) then
      let value ← each item
      let values ← filterItems test each items
      return if value.isNull then values else value :: values
    else filterItems test each items

mutual

def eval : Expr → Json → Except QueryError Json
  | .current, data => .ok data
  | .field name, data => .ok ((data.field? name).getD .null)
  | .chain first next, data => do
    let value ← eval first data
    eval next value
  | .index i, data =>
    match data with
    | .arr items => .ok (((position? i items.length).bind (items[·]?)).getD .null)
    | _ => .ok .null
  | .slice s, data =>
    match data with
    | .arr items => .ok (.arr (s.apply items))
    | _ => .ok .null
  | .project source each, data => do
    match ← eval source data with
    | .arr items => return .arr (← projectItems (eval each) items)
    | _ => return .null
  | .filter source test each, data => do
    match ← eval source data with
    | .arr items => return .arr (← filterItems (eval test) (eval each) items)
    | _ => return .null
  | .values source, data => do
    match ← eval source data with
    | .obj fields => return .arr (fields.map (·.2))
    | _ => return .null
  | .flatten source, data => do
    match ← eval source data with
    | .arr items => return .arr (flattenOnce items)
    | _ => return .null
  | .list items, data =>
    if data.isNull then .ok .null
    else do return .arr (← evalList items data)
  | .hash entries, data =>
    if data.isNull then .ok .null
    else do return .obj (Fields.ofList (← evalEntries entries data))
  | .literal value, _ => .ok value
  | .not e, data => do return .bool !(truthy (← eval e data))
  | .and left right, data => do
    let value ← eval left data
    if truthy value then eval right data else return value
  | .or left right, data => do
    let value ← eval left data
    if truthy value then return value else eval right data
  | .compare op left right, data => do
    let a ← eval left data
    let b ← eval right data
    return compareValues op a b
  | .call name args, data => do call name (← evalArgs args data)
  | .reference _, _ => .ok .null

def evalList : List Expr → Json → Except QueryError (List Json)
  | [], _ => .ok []
  | e :: es, data => do
    let value ← eval e data
    return value :: (← evalList es data)

def evalEntries : List (String × Expr) → Json → Except QueryError (List (String × Json))
  | [], _ => .ok []
  | (key, e) :: entries, data => do
    let value ← eval e data
    return (key, value) :: (← evalEntries entries data)

/-- The arguments of a call; a reference is kept unevaluated. -/
def evalArgs : List Expr → Json → Except QueryError (List Arg)
  | [], _ => .ok []
  | .reference e :: es, data => do return .reference (eval e) :: (← evalArgs es data)
  | e :: es, data => do
    let value ← eval e data
    return .value value :: (← evalArgs es data)

end

end ResourceGraph.Query
