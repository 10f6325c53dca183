import ResourceGraph.Toml.Scalar

/-!
Reading a configuration text: lines with a key and a value, and headers that open tables. Values
nest less than 80 deep, and a dotted key has fewer than 80 parts.
-/
namespace ResourceGraph.Toml

def nestingLimit : Nat := 80

def isBareKeyChar (c : Char) : Bool := c.isAlphanum || c = '_' || c = '-'

def simpleKey? (cs : List Char) : Option (String × List Char) :=
  match shortText? cs with
  | some (text, cs) => some (String.ofList text, cs)
  | none =>
    let word := cs.takeWhile isBareKeyChar
    if word.isEmpty then none else some (String.ofList word, cs.drop word.length)

/-- The parts of a key with dots between them, and blanks around each. The count bounds them. -/
def keyParts? : Nat → List Char → Option (List String × List Char)
  | 0, _ => none
  | n + 1, cs => do
    let (part, cs) ← simpleKey? (skipSpace cs)
    match skipSpace cs with
    | '.' :: cs =>
      let (parts, cs) ← keyParts? n cs
      some (part :: parts, cs)
    | cs => some ([part], cs)

/-- A key: the tables on its path, and its last part. -/
def key? (cs : List Char) : Option ((List String × String) × List Char) := do
  let (parts, cs) ← keyParts? (nestingLimit - 1) cs
  some ((parts.dropLast, ← parts.getLast?), cs)

mutual

/-- The value at the start of the text. `depth` is how many lists and tables may still open, and
the count bounds the values to come. -/
def value? : Nat → Nat → List Char → Option (Node × List Char)
  | 0, _, _ => none
  | n + 1, depth, cs =>
    match cs with
    | 't' :: 'r' :: 'u' :: 'e' :: cs => some (.flag true, cs)
    | 'f' :: 'a' :: 'l' :: 's' :: 'e' :: cs => some (.flag false, cs)
    | '[' :: cs =>
      if depth = 0 then none
      else (items? n (depth - 1) cs).map fun (items, cs) => (.list items, cs)
    | '{' :: cs =>
      if depth = 0 then none
      else match skipSpace cs with
        | '}' :: cs => some (.table .inline [], cs)
        | cs => (entries? n (depth - 1) ⟨.header, []⟩ cs).map fun (t, cs) =>
          (.table .inline t.entries, cs)
    | c :: _ =>
      if c = '"' || c = '\'' then
        (text? cs).map fun (text, cs) => (.text (String.ofList text), cs)
      else if c = 'i' || c = 'n' then special? cs
      else numeric? cs
    | [] => none

/-- The items of a list up to its closing bracket. A comma may stand after the last. -/
def items? : Nat → Nat → List Char → Option (List Node × List Char)
  | 0, _, _ => none
  | n + 1, depth, cs => do
    match ← skipVoid? cs with
    | ']' :: cs => some ([], cs)
    | cs =>
      let (item, cs) ← value? n depth cs
      match ← skipVoid? cs with
      | ',' :: cs =>
        let (items, cs) ← items? n depth cs
        some (item :: items, cs)
      | ']' :: cs => some ([item], cs)
      | _ => none

/-- The entries of a table on one line up to its closing brace, added to those before. -/
def entries? : Nat → Nat → Table → List Char → Option (Table × List Char)
  | 0, _, _, _ => none
  | n + 1, depth, t, cs => do
    let ((path, key), cs) ← key? cs
    let cs ← exactly? '=' cs
    let (node, cs) ← value? n depth (skipSpace cs)
    let t ← t.put? path key node
    match skipSpace cs with
    | ',' :: cs => entries? n depth t cs
    | '}' :: cs => some (t, cs)
    | _ => none

end

/-- A key, an equals sign and a value, to the end of the line. -/
def keyLine? (d : Draft) (cs : List Char) : Option (Draft × List Char) := do
  let ((path, key), cs) ← key? cs
  let cs ← exactly? '=' cs
  let (node, cs) ← value? (2 * cs.length + 2) (nestingLimit - 1) (skipSpace cs)
  let cs ← lineEnd? cs
  some (← d.put? path key node, cs)

/-- A header after its first bracket, to the end of the line. -/
def headerLine? (d : Draft) (cs : List Char) : Option (Draft × List Char) :=
  match cs with
  | '[' :: cs => do
    let ((path, key), cs) ← key? cs
    let cs ← exactly? ']' cs
    let cs ← exactly? ']' cs
    some (← d.openRepeated? (path ++ [key]), ← lineEnd? cs)
  | cs => do
    let ((path, key), cs) ← key? cs
    let cs ← exactly? ']' cs
    some (← d.openTable? (path ++ [key]), ← lineEnd? cs)

/-- The lines of the text, added to the draft. The count bounds them. -/
def lines? : Nat → Draft → List Char → Option Draft
  | 0, _, _ => none
  | n + 1, d, cs =>
    match skipSpace cs with
    | [] => some d
    | '#' :: rest => (lineEnd? ('#' :: rest)).bind (lines? n d)
    | '[' :: rest => do
      let (d, rest) ← headerLine? d rest
      lines? n d rest
    | rest =>
      match newline? rest with
      | some rest => lines? n d rest
      | none => do
        let (d, rest) ← keyLine? d rest
        lines? n d rest

def withoutMark : List Char → List Char
  | c :: cs => if c.toNat = 0xFEFF then cs else c :: cs
  | [] => []

/-- The table that the whole text writes. -/
def ofText? (text : String) : Option Node := do
  let cs := withoutMark text.toList
  let draft ← lines? (cs.length + 1) .start cs
  (·.node) <$> draft.close?

end ResourceGraph.Toml
