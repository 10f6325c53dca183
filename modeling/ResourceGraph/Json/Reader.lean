import ResourceGraph.Json.Basic
import ResourceGraph.Number.Literal

/-!
Reading JSON text. Blanks are the four of the format; lists and objects nest at most 127 deep; a
string holds no bare control and no lone half of a surrogate pair.
-/
namespace ResourceGraph.Json

def isSpace (c : Char) : Bool := c = ' ' || c = '\t' || c = '\n' || c = '\r'

def skipSpace (cs : List Char) : List Char := cs.dropWhile isSpace

def hexDigit? (c : Char) : Option Nat :=
  if '0' ≤ c && c ≤ '9' then some (c.toNat - 0x30)
  else if 'a' ≤ c && c ≤ 'f' then some (c.toNat - 0x61 + 10)
  else if 'A' ≤ c && c ≤ 'F' then some (c.toNat - 0x41 + 10)
  else none

/-- The value of four hexadecimal digits and the text after them. -/
def scanUnit? : List Char → Option (Nat × List Char)
  | a :: b :: c :: d :: cs => do
    let a ← hexDigit? a
    let b ← hexDigit? b
    let c ← hexDigit? c
    let d ← hexDigit? d
    some (((a * 16 + b) * 16 + c) * 16 + d, cs)
  | _ => none

/-- The character of an escape by code unit; a high surrogate takes the low one that follows. -/
def scanCodePoint? (cs : List Char) : Option (Char × List Char) := do
  let (unit, cs) ← scanUnit? cs
  if 0xDC00 ≤ unit && unit ≤ 0xDFFF then none
  else if 0xD800 ≤ unit && unit ≤ 0xDBFF then
    match cs with
    | '\\' :: 'u' :: cs =>
      let (low, cs) ← scanUnit? cs
      if 0xDC00 ≤ low && low ≤ 0xDFFF then
        some (Char.ofNat (0x10000 + (unit - 0xD800) * 0x400 + (low - 0xDC00)), cs)
      else none
    | _ => none
  else some (Char.ofNat unit, cs)

def escaped? : Char → Option Char
  | '"' => some '"'
  | '\\' => some '\\'
  | '/' => some '/'
  | 'b' => some (Char.ofNat 8)
  | 'f' => some (Char.ofNat 12)
  | 'n' => some '\n'
  | 'r' => some '\r'
  | 't' => some '\t'
  | _ => none

/-- The rest of a string after its opening quote. The count bounds the characters it may have. -/
def scanString? : Nat → List Char → Option (List Char × List Char)
  | 0, _ => none
  | n + 1, cs =>
    match cs with
    | [] => none
    | '"' :: cs => some ([], cs)
    | '\\' :: 'u' :: cs => do
      let (c, cs) ← scanCodePoint? cs
      let (text, cs) ← scanString? n cs
      some (c :: text, cs)
    | '\\' :: e :: cs => do
      let c ← escaped? e
      let (text, cs) ← scanString? n cs
      some (c :: text, cs)
    | c :: cs =>
      if c.toNat < 0x20 || c = '\\' then none
      else do
        let (text, cs) ← scanString? n cs
        some (c :: text, cs)

def scanText? (cs : List Char) : Option (String × List Char) :=
  (scanString? (cs.length + 1) cs).map fun (text, cs) => (String.ofList text, cs)

def scanNumber? (cs : List Char) : Option (Json × List Char) := do
  let (literal, cs) ← Number.Literal.scan? cs
  some (.num (← literal.value?), cs)

mutual

/-- The value at the start of the text. `depth` is how many lists and objects may still open, and
the count bounds the values and separators to come. -/
def scanValue? : Nat → Nat → List Char → Option (Json × List Char)
  | 0, _, _ => none
  | n + 1, depth, cs =>
    match skipSpace cs with
    | 'n' :: 'u' :: 'l' :: 'l' :: cs => some (.null, cs)
    | 't' :: 'r' :: 'u' :: 'e' :: cs => some (.bool true, cs)
    | 'f' :: 'a' :: 'l' :: 's' :: 'e' :: cs => some (.bool false, cs)
    | '"' :: cs => (scanText? cs).map fun (text, cs) => (.str text, cs)
    | '[' :: cs =>
      if depth = 0 then none
      else match skipSpace cs with
        | ']' :: cs => some (.arr [], cs)
        | cs => (scanItems? n (depth - 1) cs).map fun (items, cs) => (.arr items, cs)
    | '{' :: cs =>
      if depth = 0 then none
      else match skipSpace cs with
        | '}' :: cs => some (.obj [], cs)
        | cs => (scanFields? n (depth - 1) [] cs).map fun (fields, cs) => (.obj fields, cs)
    | cs => scanNumber? cs

/-- The items of a list up to its closing bracket. -/
def scanItems? : Nat → Nat → List Char → Option (List Json × List Char)
  | 0, _, _ => none
  | n + 1, depth, cs => do
    let (item, cs) ← scanValue? n depth cs
    match skipSpace cs with
    | ',' :: cs =>
      let (items, cs) ← scanItems? n depth cs
      some (item :: items, cs)
    | ']' :: cs => some ([item], cs)
    | _ => none

/-- The fields of an object up to its closing brace, added to those before. -/
def scanFields? : Nat → Nat → Fields → List Char → Option (Fields × List Char)
  | 0, _, _, _ => none
  | n + 1, depth, fields, cs =>
    match skipSpace cs with
    | '"' :: cs => do
      let (key, cs) ← scanText? cs
      match skipSpace cs with
      | ':' :: cs =>
        let (value, cs) ← scanValue? n depth cs
        let fields := fields.insert key value
        match skipSpace cs with
        | ',' :: cs => scanFields? n depth fields cs
        | '}' :: cs => some (fields, cs)
        | _ => none
      | _ => none
    | _ => none

end

def maxDepth : Nat := 127

/-- The value that the whole text writes. -/
def ofChars? (cs : List Char) : Option Json := do
  let (value, rest) ← scanValue? (2 * cs.length + 2) maxDepth cs
  if (skipSpace rest).isEmpty then some value else none

def ofText? (text : String) : Option Json := ofChars? text.toList

end ResourceGraph.Json
