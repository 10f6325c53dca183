import ResourceGraph.Json.Reader
import ResourceGraph.Toml.Node

/-! Texts, numbers and dates of a configuration text. Each scanner returns what follows. -/
namespace ResourceGraph.Toml

open Number (isDigit digitValue)

def isSpace (c : Char) : Bool := c = ' ' || c = '\t'

def skipSpace (cs : List Char) : List Char := cs.dropWhile isSpace

/-- A line feed, with or without a carriage return before it. -/
def newline? : List Char → Option (List Char)
  | '\n' :: cs => some cs
  | '\r' :: '\n' :: cs => some cs
  | _ => none

/-- A character that may stand in texts and comments as it is. -/
def isPlain (c : Char) : Bool := c = '\t' || (0x20 ≤ c.toNat && c.toNat ≠ 0x7F)

def comment : List Char → List Char
  | '#' :: cs => cs.dropWhile isPlain
  | cs => cs

/-- Blanks, a comment, and the end of the line or of the text. -/
def lineEnd? (cs : List Char) : Option (List Char) :=
  match comment (skipSpace cs) with
  | [] => some []
  | rest => newline? rest

/-- Blanks, comments and line ends. A comment must end its line. The count bounds the lines. -/
def skipLines? : Nat → List Char → Option (List Char)
  | 0, _ => none
  | n + 1, cs =>
    match skipSpace cs with
    | '#' :: rest => (newline? (comment ('#' :: rest))).bind (skipLines? n)
    | rest =>
      match newline? rest with
      | some rest => skipLines? n rest
      | none => some rest

def skipVoid? (cs : List Char) : Option (List Char) := skipLines? (cs.length + 1) cs

/-! ## Texts -/

/-- The value of exactly so many hexadecimal digits. -/
def hexNumber? : Nat → Nat → List Char → Option (Nat × List Char)
  | 0, value, cs => some (value, cs)
  | n + 1, value, c :: cs => do hexNumber? n (value * 16 + (← Json.hexDigit? c)) cs
  | _ + 1, _, [] => none

def scalarValue? (n : Nat) : Option Char :=
  if n.isValidChar then some (Char.ofNat n) else none

def codePoint? (digits : Nat) (cs : List Char) : Option (Char × List Char) := do
  let (n, cs) ← hexNumber? digits 0 cs
  some (← scalarValue? n, cs)

/-- The character of an escape after its backslash. -/
def escape? : List Char → Option (Char × List Char)
  | 'b' :: cs => some (Char.ofNat 8, cs)
  | 'f' :: cs => some (Char.ofNat 12, cs)
  | 'n' :: cs => some ('\n', cs)
  | 'r' :: cs => some ('\r', cs)
  | 't' :: cs => some ('\t', cs)
  | '"' :: cs => some ('"', cs)
  | '\\' :: cs => some ('\\', cs)
  | 'u' :: cs => codePoint? 4 cs
  | 'U' :: cs => codePoint? 8 cs
  | _ => none

/-- Blanks and line ends. -/
def skipBlankLines : List Char → List Char
  | ' ' :: cs | '\t' :: cs | '\n' :: cs | '\r' :: '\n' :: cs => skipBlankLines cs
  | cs => cs

/-- The blanks and line ends after a backslash at the end of a line. -/
def foldLine? (cs : List Char) : Option (List Char) :=
  (newline? (skipSpace cs)).map skipBlankLines

/-- A text in double quotes after the opening one. -/
def basicText? : Nat → List Char → Option (List Char × List Char)
  | 0, _ => none
  | n + 1, cs =>
    match cs with
    | '"' :: cs => some ([], cs)
    | '\\' :: cs => do
      let (c, cs) ← escape? cs
      let (text, cs) ← basicText? n cs
      some (c :: text, cs)
    | c :: cs =>
      if isPlain c then do
        let (text, cs) ← basicText? n cs
        some (c :: text, cs)
      else none
    | [] => none

/-- A text in single quotes after the opening one. -/
def literalText? : List Char → Option (List Char × List Char)
  | [] => none
  | c :: cs =>
    if c = '\'' then some ([], cs)
    else if isPlain c then do
      let (text, cs) ← literalText? cs
      some (c :: text, cs)
    else none

/-- Three to five quotes end a text of several lines; those before the last three belong to it. -/
def closing? (quote : Char) (cs : List Char) : Option (List Char × List Char) :=
  let quotes := cs.takeWhile (· = quote)
  if 3 ≤ quotes.length && quotes.length ≤ 5 then
    some (quotes.drop 3, cs.drop quotes.length)
  else none

/-- A text of several lines after its opening quotes. Only double quotes allow escapes. -/
def longText? (quote : Char) : Nat → List Char → Option (List Char × List Char)
  | 0, _ => none
  | n + 1, cs =>
    match cs with
    | [] => none
    | c :: rest =>
      if c = quote then
        match closing? quote cs with
        | some done => some done
        | none =>
          if (cs.takeWhile (· = quote)).length < 3 then keep n c rest else none
      else if c = '\\' && quote = '"' then
        match foldLine? rest with
        | some rest => longText? quote n rest
        | none => do
          let (e, rest) ← escape? rest
          keep n e rest
      else match newline? cs with
        | some rest => keep n '\n' rest
        | none => if isPlain c then keep n c rest else none
where
  keep (n : Nat) (c : Char) (cs : List Char) : Option (List Char × List Char) := do
    let (text, cs) ← longText? quote n cs
    some (c :: text, cs)

/-- A line end right after the opening quotes does not count. -/
def skipFirstLine (cs : List Char) : List Char := (newline? cs).getD cs

/-- A text of one line, as keys may have it too. -/
def shortText? : List Char → Option (List Char × List Char)
  | '"' :: cs => basicText? (cs.length + 1) cs
  | '\'' :: cs => literalText? cs
  | _ => none

def text? : List Char → Option (List Char × List Char)
  | '"' :: '"' :: '"' :: cs => longText? '"' (cs.length + 1) (skipFirstLine cs)
  | '\'' :: '\'' :: '\'' :: cs => longText? '\'' (cs.length + 1) (skipFirstLine cs)
  | cs => shortText? cs

/-! ## Numbers -/

/-- Digits with single underscores between them, without these. -/
def digitRun? (valid : Char → Bool) : List Char → Option (List Char × List Char)
  | [] => none
  | c :: cs => if valid c then some (more cs |>.map (c :: ·) id) else none
where
  more : List Char → List Char × List Char
    | '_' :: d :: cs =>
      if valid d then (more cs).map (d :: ·) id else ([], '_' :: d :: cs)
    | d :: cs => if valid d then (more cs).map (d :: ·) id else ([], d :: cs)
    | [] => ([], [])

/-- An underscore after a run of digits stands where a digit must follow. -/
def closedRun? (valid : Char → Bool) (cs : List Char) : Option (List Char × List Char) := do
  let (digits, rest) ← digitRun? valid cs
  if rest.head? = some '_' then none else some (digits, rest)

def sign : List Char → Bool × List Char
  | '-' :: cs => (true, cs)
  | '+' :: cs => (false, cs)
  | cs => (false, cs)

/-- Whole digits without a leading zero. -/
def wholeDigits? (cs : List Char) : Option (List Char × List Char) :=
  match cs with
  | '0' :: rest => some (['0'], rest)
  | _ => closedRun? isDigit cs

def exponent? (cs : List Char) : Option ((Bool × List Char) × List Char) := do
  let (negative, cs) := sign cs
  let (digits, cs) ← closedRun? isDigit cs
  some ((negative, digits), cs)

/-- The double nearest to `digits * 10^e`. One that is too large is no value, or without end below
zero. -/
def nearest? (negative : Bool) (digits : Nat) (e : Int) : Option (Option Number.Double) :=
  let found :=
    if e ≥ 0 then Number.Double.ofRatio? negative (digits * Nat.pow 10 e.toNat) 1
    else Number.Double.ofRatio? negative digits (Nat.pow 10 (-e).toNat)
  match found with
  | some d => some (some d)
  | none => if negative then some none else none

/-- A decimal exponent past which every number is zero or too large. -/
def exponentBound : Int := 5000

def floatValue? (negative : Bool) (whole fraction : List Char) (exponent : Int) : Option Node := do
  let digits := Number.Literal.naturalOf (whole ++ fraction)
  let e := exponent - fraction.length
  let size : Int := (whole.length : Int) + fraction.length
  let e := max (-exponentBound - size) (min exponentBound e)
  .float <$> nearest? negative digits (if digits = 0 then 0 else e)

/-- A number with a fraction or an exponent; none if it has neither. -/
def fractional? (cs : List Char) : Option (Option (Node × List Char)) := do
  let (negative, cs) := sign cs
  let (whole, cs) ← wholeDigits? cs
  let withExponent (fraction cs : List Char) : Option (Node × List Char) := do
    match cs with
    | c :: rest =>
      if c = 'e' || c = 'E' then
        let ((down, digits), rest) ← exponent? rest
        let e : Int := Number.Literal.naturalOf digits
        some (← floatValue? negative whole fraction (if down then -e else e), rest)
      else some (← floatValue? negative whole fraction 0, cs)
    | [] => some (← floatValue? negative whole fraction 0, [])
  match cs with
  | '.' :: rest =>
    some (do
      let (fraction, rest) ← closedRun? isDigit rest
      withExponent fraction rest)
  | 'e' :: _ | 'E' :: _ => some (withExponent [] cs)
  | _ => none

def special? (cs : List Char) : Option (Node × List Char) :=
  match (sign cs).2 with
  | 'i' :: 'n' :: 'f' :: rest => some (.float none, rest)
  | 'n' :: 'a' :: 'n' :: rest => some (.float none, rest)
  | _ => none

def wholeValue? (negative : Bool) (base : Nat) (digits : List Char) : Option Node :=
  let magnitude : Int := digits.foldl (fun n c => n * base + (Json.hexDigit? c).getD 0) 0
  let n := if negative then -magnitude else magnitude
  if -Int.pow 2 63 ≤ n && n < Int.pow 2 63 then some (.whole n) else none

def basedWhole? (base : Nat) (cs : List Char) : Option (Node × List Char) := do
  let (digits, cs) ← closedRun? (fun c => (Json.hexDigit? c).any (· < base)) cs
  some (← wholeValue? false base digits, cs)

def whole? : List Char → Option (Node × List Char)
  | '0' :: 'x' :: cs => basedWhole? 16 cs
  | '0' :: 'o' :: cs => basedWhole? 8 cs
  | '0' :: 'b' :: cs => basedWhole? 2 cs
  | cs => do
    let (negative, cs) := sign cs
    let (digits, cs) ← wholeDigits? cs
    some (← wholeValue? negative 10 digits, cs)

/-! ## Dates and times -/

/-- A number of exactly so many digits, between two bounds. -/
def fixedNumber? (digits low high : Nat) (cs : List Char) : Option (Nat × List Char) :=
  let ds := cs.take digits
  let n := Number.Literal.naturalOf ds
  if ds.length = digits && ds.all isDigit && low ≤ n && n ≤ high then
    some (n, cs.drop digits)
  else none

def exactly? (c : Char) : List Char → Option (List Char)
  | d :: cs => if d = c then some cs else none
  | [] => none

def padded (width n : Nat) : List Char :=
  let ds := Nat.toDigits 10 n
  List.replicate (width - ds.length) '0' ++ ds

def daysIn (year month : Nat) : Nat :=
  if month = 2 then
    if year % 4 = 0 && (year % 100 ≠ 0 || year % 400 = 0) then 29 else 28
  else if month = 4 || month = 6 || month = 9 || month = 11 then 30
  else 31

/-- A date. None inside if the text starts as a date and goes on otherwise. -/
def date? (cs : List Char) : Option (Option (List Char × List Char)) := do
  let (year, cs) ← fixedNumber? 4 0 9999 cs
  let cs ← exactly? '-' cs
  some (do
    let (month, cs) ← fixedNumber? 2 1 12 cs
    let cs ← exactly? '-' cs
    let (day, cs) ← fixedNumber? 2 1 (daysIn year month) cs
    some (padded 4 year ++ '-' :: padded 2 month ++ '-' :: padded 2 day, cs))

/-- Fractions of a second, to nine digits and without trailing zeros. -/
def secondFraction? : List Char → Option (List Char × List Char)
  | '.' :: cs =>
    let ds := cs.takeWhile isDigit
    let kept := ((ds.take 9).reverse.dropWhile (· = '0')).reverse
    if ds.isEmpty then none
    else some (if kept.isEmpty then [] else '.' :: kept, cs.drop ds.length)
  | cs => some ([], cs)

/-- A time of day. None inside if the text starts as a time and goes on otherwise. -/
def time? (cs : List Char) : Option (Option (List Char × List Char)) := do
  let (hour, cs) ← fixedNumber? 2 0 23 cs
  let cs ← exactly? ':' cs
  some (do
    let (minute, cs) ← fixedNumber? 2 0 59 cs
    let cs ← exactly? ':' cs
    let (second, cs) ← fixedNumber? 2 0 60 cs
    let (fraction, cs) := (secondFraction? cs).getD ([], cs)
    some (padded 2 hour ++ ':' :: padded 2 minute ++ ':' :: padded 2 second ++ fraction, cs))

def numericOffset? (negative : Bool) (cs : List Char) : Option (List Char × List Char) := do
  let (hour, cs) ← fixedNumber? 2 0 23 cs
  let cs ← exactly? ':' cs
  let (minute, cs) ← fixedNumber? 2 0 59 cs
  let mark := if negative && (hour ≠ 0 || minute ≠ 0) then '-' else '+'
  some (mark :: padded 2 hour ++ ':' :: padded 2 minute, cs)

/-- The distance from universal time, empty if it is not given. -/
def offset? : List Char → Option (List Char × List Char)
  | 'Z' :: cs | 'z' :: cs => some (['Z'], cs)
  | '+' :: cs => numericOffset? false cs
  | '-' :: cs => numericOffset? true cs
  | cs => some ([], cs)

def moment (cs : List Char) : Node := .moment (String.ofList cs)

/-- A date, a time or both; none if the text starts as neither. -/
def moment? (cs : List Char) : Option (Option (Node × List Char)) :=
  match date? cs with
  | some scan => some (do
    let (day, rest) ← scan
    match rest with
    | c :: after =>
      if c = 'T' || c = 't' || c = ' ' then
        match time? after with
        | some scan =>
          let (clock, after) ← scan
          let (zone, after) ← offset? after
          some (moment (day ++ 'T' :: clock ++ zone), after)
        | none => some (moment day, rest)
      else some (moment day, rest)
    | [] => some (moment day, []))
  | none =>
    match time? cs with
    | some scan => some (do
      let (clock, rest) ← scan
      some (moment clock, rest))
    | none => none

/-- What starts with a digit or a sign. -/
def numeric? (cs : List Char) : Option (Node × List Char) :=
  match moment? cs with
  | some scan => scan
  | none =>
    match fractional? cs with
    | some scan => scan
    | none =>
      match special? cs with
      | some found => some found
      | none => whole? cs

end ResourceGraph.Toml
