import ResourceGraph.Document.Basic

/-!
The tree of a configuration text, and how it grows: a table may be opened by a header, implied by
the path of another header, or written with dotted keys, and each way excludes some of the others.
-/
namespace ResourceGraph.Toml

/-- How a table came to be. -/
inductive Opening where
  /-- Written out as a value. -/
  | inline
  /-- Opened by a header, or the whole document. -/
  | header
  /-- Implied by the path of a header. -/
  | implied
  /-- Implied by a dotted key. -/
  | dotted
deriving DecidableEq

inductive Node where
  | flag (b : Bool)
  | whole (i : Int)
  /-- None for an infinity or what is no number. -/
  | float (d : Option Number.Double)
  | text (s : String)
  /-- A date, a time or both, in their standard form. -/
  | moment (s : String)
  | list (items : List Node)
  | table (opening : Opening) (entries : List (String × Node))
  /-- Tables that repeated headers add to. -/
  | tables (items : List Node)

abbrev Entries := List (String × Node)

/-- Replaces the node of a key in its place, or adds it at the end. -/
def Entries.set (key : String) (node : Node) : Entries → Entries
  | [] => [(key, node)]
  | (k, n) :: rest => if k = key then (k, node) :: rest else (k, n) :: Entries.set key node rest

/-- A table that is being written. -/
structure Table where
  opening : Opening
  entries : Entries

def Table.node (t : Table) : Node := .table t.opening t.entries

/-- How tables on a path are found: by the path of a header, or by a dotted key. -/
inductive Route where
  | header
  | dotted
deriving DecidableEq

def Route.implies : Route → Opening
  | header => .implied
  | dotted => .dotted

/-- Changes the table at the end of a path and makes those that are missing. A value on the path is
refused, and so is a header's table on the path of a dotted key. The last of repeated tables stands
for them. -/
def Table.change? (route : Route) (change? : Table → Option Table) :
    List String → Table → Option Table
  | [], t => change? t
  | key :: path, t => do
    let inner ← match t.entries.lookup key with
      | none =>
        (·.node) <$> Table.change? route change? path ⟨route.implies, []⟩
      | some (.table opening entries) =>
        if opening = .inline || (route = .dotted && opening = .header) then none
        else (·.node) <$> Table.change? route change? path ⟨opening, entries⟩
      | some (.tables items) =>
        match items.getLast? with
        | some (.table opening entries) =>
          (fun last => Node.tables (items.dropLast ++ [last.node])) <$>
            Table.change? route change? path ⟨opening, entries⟩
        | _ => none
      | some _ => none
    return { t with entries := Entries.set key inner t.entries }

/-- Adds a key that is new to its table. A dotted key ends in a table of dotted keys. -/
def Table.put? (path : List String) (key : String) (node : Node) : Table → Option Table :=
  Table.change? .dotted (fun t =>
    if (t.opening == .dotted) == path.isEmpty || (t.entries.lookup key).isSome then none
    else some { t with entries := t.entries ++ [(key, node)] }) path

/-- The document so far, and the table that the last header opened. -/
structure Draft where
  root : Table
  current : Table
  path : List String
  repeated : Bool

namespace Draft

def start : Draft := ⟨⟨.header, []⟩, ⟨.header, []⟩, [], false⟩

/-- Adds the current table to the document. -/
def close? (d : Draft) : Option Table :=
  match d.path.getLast? with
  | none => some d.current
  | some key =>
    Table.change? .header (fun t =>
      if d.repeated then
        match t.entries.lookup key with
        | some (.tables items) =>
          some { t with entries := Entries.set key (.tables (items ++ [d.current.node])) t.entries }
        | _ => none
      else some { t with entries := t.entries ++ [(key, d.current.node)] }) d.path.dropLast d.root

/-- Opens the table of a header. One that was only implied so far keeps what it holds. -/
def openTable? (path : List String) (d : Draft) : Option Draft := do
  let root ← d.close?
  let key ← path.getLast?
  let found ← (fun t => t.entries.lookup key) <$> tableAt? path.dropLast root
  let current ← match found with
    | none => some ⟨.header, []⟩
    | some (.table .implied entries) => some ⟨.header, entries⟩
    | some _ => none
  let root ← Table.change? .header (fun t =>
    some { t with entries := t.entries.filter (·.1 ≠ key) }) path.dropLast root
  return ⟨root, current, path, false⟩
where
  /-- The table at the end of a header's path, empty if it is missing. -/
  tableAt? : List String → Table → Option Table
    | [], t => some t
    | key :: path, t =>
      match t.entries.lookup key with
      | none => some ⟨.implied, []⟩
      | some (.table opening entries) =>
        if opening = .inline then none else tableAt? path ⟨opening, entries⟩
      | some (.tables items) =>
        match items.getLast? with
        | some (.table opening entries) => tableAt? path ⟨opening, entries⟩
        | _ => none
      | some _ => none

/-- Opens a further table of a repeated header. -/
def openRepeated? (path : List String) (d : Draft) : Option Draft := do
  let root ← d.close?
  let key ← path.getLast?
  let root ← Table.change? .header (fun t =>
    match t.entries.lookup key with
    | none => some { t with entries := t.entries ++ [(key, .tables [])] }
    | some (.tables _) => some t
    | some _ => none) path.dropLast root
  return ⟨root, ⟨.header, []⟩, path, true⟩

def put? (path : List String) (key : String) (node : Node) (d : Draft) : Option Draft := do
  return { d with current := ← d.current.put? path key node }

end Draft

/-- The key under which a date or time is a table of its own. -/
def momentKey : String := "$__toml_private_datetime"

def Node.shape : Node → Document.Shape Node
  | .flag b => .flag b
  | .whole i => .whole i
  | .float _ => .fractional
  | .text s => .text s
  | .moment s => .table [(momentKey, .text s)]
  | .list items => .list items
  | .table _ entries => .table entries
  | .tables items => .list items

mutual

/-- A number that is not finite is null. -/
def Node.toJson : Node → Json
  | .flag b => .bool b
  | .whole i => .num (.int i)
  | .float (some d) => .num (.double d)
  | .float none => .null
  | .text s => .str s
  | .moment s => .obj [(momentKey, .str s)]
  | .list items => .arr (Node.itemsToJson items)
  | .table _ entries => .obj (Node.entriesToJson entries)
  | .tables items => .arr (Node.itemsToJson items)

def Node.itemsToJson : List Node → List Json
  | [] => []
  | n :: ns => n.toJson :: Node.itemsToJson ns

def Node.entriesToJson : List (String × Node) → Fields
  | [] => []
  | (key, n) :: rest => (key, n.toJson) :: Node.entriesToJson rest

end

instance : Document Node where
  shape := Node.shape
  toJson := Node.toJson
  refusesSurplus := false

end ResourceGraph.Toml
