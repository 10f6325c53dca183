import ResourceGraph.Query.Error
import ResourceGraph.Json.Reader
import ResourceGraph.Text.Blank
import ResourceGraph.Text.Split

/-! The tokens of a query, each with the byte at which it starts. -/
namespace ResourceGraph.Query

/-- The number of bytes of the text. -/
def byteWidth (cs : List Char) : Nat := cs.foldr (fun c n => c.utf8Size + n) 0

/-- The text up to the closing character. A backslash keeps the character after it from closing;
both stay in the text. -/
def delimited? (close : Char) : List Char → Option (List Char)
  | '\\' :: c :: cs => (delimited? close cs).map fun raw => '\\' :: c :: raw
  | c :: cs => if c = close then some [] else (delimited? close cs).map (c :: ·)
  | [] => none

/-- The text that a raw literal writes: a quote after a backslash stands for itself, and then two
backslashes for one. -/
def unescapeRaw (raw : List Char) : List Char :=
  Text.replace ['\\', '\\'] ['\\'] (Text.replace ['\\', '\''] ['\''] raw)

/-- The value between grave accents; an accent is written with a backslash before it. -/
def jsonLiteral? (raw : List Char) : Option Json :=
  Json.ofChars? (Text.trimChars (Text.replace ['\\', '\x60'] ['\x60'] raw))

def quotedName? (raw : List Char) : Option String :=
  (Json.ofChars? ('"' :: (raw ++ ['"']))).bind Json.str?

def isLetter (c : Char) : Bool := c.isAlpha || c = '_'

def isWordChar (c : Char) : Bool := c.isAlphanum || c = '_'

/-- The whole number that digits after an optional minus sign write, if it has 64 bits. -/
def wholeNumber? (negative : Bool) (digits : List Char) : Option Int :=
  let magnitude : Int := Number.Literal.naturalOf digits
  let n := if negative then -magnitude else magnitude
  if -Int.pow 2 63 ≤ n && n < Int.pow 2 63 then some n else none

/-- A number whose text is `c` and the digits that follow it. -/
def scanNumber (c : Char) (digits : List Char) : Except SyntaxFault (Option Token × Nat) :=
  let value := if c = '-' then wholeNumber? true digits else wholeNumber? false (c :: digits)
  match value with
  | some n => .ok (some (.number n), digits.length)
  | none => .error (.invalidNumber (String.ofList (c :: digits)))

/-- A token that a closing character ends, read from the text in between. -/
def scanDelimited (close : Char) (cs : List Char) (unterminated invalid : SyntaxFault)
    (read? : List Char → Option Token) : Except SyntaxFault (Option Token × Nat) :=
  match delimited? close cs with
  | none => .error unterminated
  | some raw =>
    match read? raw with
    | some token => .ok (some token, raw.length + 1)
    | none => .error invalid

/-- A token that may be followed by a second character to make another. -/
def scanPair (cs : List Char) (second : Char) (double : Token) (single : Option Token) (c : Char) :
    Except SyntaxFault (Option Token × Nat) :=
  if cs.head? = some second then .ok (some double, 1)
  else match single with
    | some token => .ok (some token, 0)
    | none => .error (.unexpectedCharacter c)

/-- The token that starts with `c`, none for a blank, and the number of characters after `c` that
belong to it. -/
def scanToken (c : Char) (cs : List Char) : Except SyntaxFault (Option Token × Nat) :=
  match c with
  | ' ' | '\t' | '\n' | '\r' => .ok (none, 0)
  | '.' => .ok (some .dot, 0)
  | '*' => .ok (some .star, 0)
  | '@' => .ok (some .current, 0)
  | ',' => .ok (some .comma, 0)
  | ':' => .ok (some .colon, 0)
  | '(' => .ok (some .lparen, 0)
  | ')' => .ok (some .rparen, 0)
  | '{' => .ok (some .lbrace, 0)
  | '}' => .ok (some .rbrace, 0)
  | ']' => .ok (some .rbracket, 0)
  | '[' =>
    if cs.head? = some ']' then .ok (some .flatten, 1)
    else scanPair cs '?' .filter (some .lbracket) c
  | '|' => scanPair cs '|' .or (some .pipe) c
  | '&' => scanPair cs '&' .and (some .ampersand) c
  | '!' => scanPair cs '=' .ne (some .not) c
  | '=' => scanPair cs '=' .eq none c
  | '<' => scanPair cs '=' .lte (some .lt) c
  | '>' => scanPair cs '=' .gte (some .gt) c
  | '\'' =>
    scanDelimited c cs .unterminatedText .unterminatedText fun raw =>
      some (.literal (.str (String.ofList (unescapeRaw raw))))
  | '\x60' =>
    scanDelimited c cs .unterminatedJson .invalidJson fun raw => (jsonLiteral? raw).map .literal
  | '"' =>
    scanDelimited c cs .unterminatedName .invalidName fun raw =>
      (quotedName? raw).map .quotedIdentifier
  | c =>
    if c.isDigit || (c = '-' && (cs.head?.any Char.isDigit)) then
      scanNumber c (cs.takeWhile Char.isDigit)
    else if isLetter c then
      let word := cs.takeWhile isWordChar
      .ok (some (.identifier (String.ofList (c :: word))), word.length)
    else .error (.unexpectedCharacter c)

/-- The lexemes of the text, whose first character is the byte `offset` of the query. -/
def lexFrom (offset : Nat) : List Char → Except Fault (List Lexeme)
  | [] => .ok []
  | c :: cs =>
    match scanToken c cs with
    | .error cause => .error ⟨offset, cause⟩
    | .ok (token, more) => do
      let lexemes ← lexFrom (offset + byteWidth (c :: cs.take more)) (cs.drop more)
      return match token with
        | some token => ⟨offset, token⟩ :: lexemes
        | none => lexemes
termination_by cs => cs.length
decreasing_by (simp only [List.length_cons, List.length_drop]; omega)

end ResourceGraph.Query
