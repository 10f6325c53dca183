import ResourceGraph.Query.Error
import ResourceGraph.Text.Lower
import ResourceGraph.Text.Split

/-! The functions of the query language. -/
namespace ResourceGraph.Query

/-- What is evaluated for each element, in place of a value. -/
abbrev Body := Json → Except QueryError Json

inductive Arg where
  | value (v : Json)
  | reference (body : Body)

def kindOf : Json → Kind
  | .null => .null
  | .bool _ => .boolean
  | .num _ => .number
  | .str _ => .string
  | .arr _ => .array
  | .obj _ => .object

namespace Arg

def kind : Arg → Kind
  | value v => kindOf v
  | reference _ => .reference

variable (function : String)

def wrong (expected : Shape) (arg : Arg) : QueryError :=
  .wrongType function expected arg.kind

def asValue : Arg → Except QueryError Json
  | value v => .ok v
  | arg => .error (arg.wrong function .value)

def asBody : Arg → Except QueryError Body
  | reference body => .ok body
  | arg => .error (arg.wrong function .reference)

def asText (arg : Arg) : Except QueryError (List Char) := do
  match ← arg.asValue function with
  | .str s => return s.toList
  | _ => .error (arg.wrong function .string)

def asList (arg : Arg) : Except QueryError (List Json) := do
  match ← arg.asValue function with
  | .arr items => return items
  | _ => .error (arg.wrong function .array)

def asFields (arg : Arg) : Except QueryError Fields := do
  match ← arg.asValue function with
  | .obj fields => return fields
  | _ => .error (arg.wrong function .object)

end Arg

def isNumber : Json → Bool
  | .num _ => true
  | _ => false

def isText : Json → Bool
  | .str _ => true
  | _ => false

/-- Whether `a` sorts no later than `b`: numbers by value, texts by code point. -/
def sortsBefore (a b : Json) : Bool :=
  match a, b with
  | .str x, .str y => !(decide (y < x))
  | .num x, .num y => decide (x.units ≤ y.units)
  | _, _ => true

/-- The items in the order of their keys, which are all numbers or all texts. Items with equal keys
keep their order. -/
def sortByKeys? (keys items : List Json) : Option (List Json) :=
  if keys.all isNumber || keys.all isText then
    some (((keys.zip items).mergeSort fun a b => sortsBefore a.1 b.1).map (·.2))
  else none

/-- Whether a list has an equal element, or a text the other text. -/
def contains (arg : Arg) (needle : Json) : Except QueryError Json := do
  match ← arg.asValue "contains", needle with
  | .arr items, _ => return .bool (items.any (·.same needle))
  | .str s, .str word => return .bool (Text.occursIn word.toList s.toList)
  | .str _, _ => return .bool false
  | _, _ => .error (arg.wrong "contains" .arrayOrString)

def glob (subject pattern : Arg) : Except QueryError Json := do
  let text ← pattern.asText "glob"
  match Text.Wildcard.compile (String.ofList text) with
  | .error fault => .error (.badPattern "glob" fault)
  | .ok tokens =>
    let subject ← subject.asText "glob"
    return .bool (Text.Wildcard.accepts tokens (String.ofList subject))

def splitText (text sep : Arg) : Except QueryError Json := do
  let text ← text.asText "split"
  let sep ← sep.asText "split"
  return .arr ((Text.split sep text).map fun piece => .str (String.ofList piece))

def joinTexts (glue list : Arg) : Except QueryError Json := do
  let glue ← glue.asText "join"
  let items ← list.asList "join"
  match items.mapM Json.str? with
  | some texts => return .str (String.ofList (Text.join glue (texts.map String.toList)))
  | none => .error (list.wrong "join" .stringArray)

def length (arg : Arg) : Except QueryError Json := do
  match ← arg.asValue "length" with
  | .str s => return .ofNat s.toList.length
  | .arr items => return .ofNat items.length
  | .obj fields => return .ofNat fields.length
  | _ => .error (arg.wrong "length" .sized)

/-- The first argument that is a value other than null. -/
def firstNotNull : List Arg → Json
  | [] => .null
  | .value v :: args => if v.isNull then firstNotNull args else v
  | .reference _ :: args => firstNotNull args

def sort (list : Arg) : Except QueryError Json := do
  let items ← list.asList "sort"
  match sortByKeys? items items with
  | some sorted => return .arr sorted
  | none => .error (list.wrong "sort" .sortable)

def sortBy (list key : Arg) : Except QueryError Json := do
  let items ← list.asList "sort_by"
  let body ← key.asBody "sort_by"
  let keys ← items.mapM body
  match sortByKeys? keys items with
  | some sorted => return .arr sorted
  | none => .error (key.wrong "sort_by" .sortable)

def toText (arg : Arg) : Except QueryError Json := do
  match ← arg.asValue "to_string" with
  | .str s => return .str s
  | v => return .str v.render

def startsWith (text word : Arg) : Except QueryError Json := do
  let text ← text.asText "starts_with"
  let word ← word.asText "starts_with"
  return .bool (word.isPrefixOf text)

def endsWith (text word : Arg) : Except QueryError Json := do
  let text ← text.asText "ends_with"
  let word ← word.asText "ends_with"
  return .bool (word.isSuffixOf text)

def lowerText (arg : Arg) : Except QueryError Json := do
  let text ← arg.asText "lower"
  return .str (Text.lower (String.ofList text))

def keysOf (arg : Arg) : Except QueryError Json := do
  return .ofStrings (← arg.asFields "keys").keys

def valuesOf (arg : Arg) : Except QueryError Json := do
  return .arr ((← arg.asFields "values").map (·.2))

/-- A function of one argument. -/
def unary (name : String) (run : Arg → Except QueryError Json) :
    List Arg → Except QueryError Json
  | [a] => run a
  | args => .error (.wrongArity name (.exactly 1) args.length)

/-- A function of two arguments. -/
def binary (name : String) (run : Arg → Arg → Except QueryError Json) :
    List Arg → Except QueryError Json
  | [a, b] => run a b
  | args => .error (.wrongArity name (.exactly 2) args.length)

def call (name : String) (args : List Arg) : Except QueryError Json :=
  match name with
  | "contains" => binary name (fun a b => do contains a (← b.asValue name)) args
  | "starts_with" => binary name startsWith args
  | "ends_with" => binary name endsWith args
  | "glob" => binary name glob args
  | "lower" => unary name lowerText args
  | "split" => binary name splitText args
  | "join" => binary name joinTexts args
  | "keys" => unary name keysOf args
  | "values" => unary name valuesOf args
  | "length" => unary name length args
  | "not_null" =>
    if args.isEmpty then .error (.wrongArity name .atLeastOne 0) else .ok (firstNotNull args)
  | "sort" => unary name sort args
  | "sort_by" => binary name sortBy args
  | "to_string" => unary name toText args
  | "type" => unary name (fun a => .ok (.str a.kind.text)) args
  | _ => .error (.unknownFunction name)

end ResourceGraph.Query
