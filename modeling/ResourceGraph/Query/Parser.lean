import ResourceGraph.Query.Lexer
import ResourceGraph.Query.Expr

/-!
Parsing by binding power: an expression starts with one token and is extended for as long as the
next token binds more tightly than the place it stands in.
-/
namespace ResourceGraph.Query

/-- The lexemes still to be read. At the end of the query there are none. -/
abbrev Rest := List Lexeme

def Rest.peek : Rest → Token
  | [] => .eof
  | l :: _ => l.token

/-- Where the next lexeme starts, in a query of the given size. -/
def Rest.offset (size : Nat) : Rest → Nat
  | [] => size
  | l :: _ => l.offset

/-- A fault and the lexemes that were left when it was found. -/
structure Refusal where
  rest : Rest
  cause : SyntaxFault

/-- The result of a parser, or none if its fuel ran out. -/
abbrev Attempt := ExceptT Refusal Option

def spent : Attempt α := ExceptT.mk none

def refuse (rest : Rest) (cause : SyntaxFault) : Attempt α := throw ⟨rest, cause⟩

def expect (wanted : Token) (ts : Rest) : Attempt Rest :=
  if ts.peek == wanted then pure ts.tail else refuse ts (.expected wanted ts.peek)

/-- The numbers of an index or slice so far, and the colons before the current place. -/
structure Places where
  slice : Slice
  colons : Nat

def Places.put (p : Places) (n : Int) : Places :=
  match p.colons with
  | 0 => { p with slice := { p.slice with start := some n } }
  | 1 => { p with slice := { p.slice with stop := some n } }
  | _ => { p with slice := { p.slice with step := some n } }

/-- The numbers and colons up to the closing bracket. -/
def scanPlaces (p : Places) : Rest → Except Refusal (Places × Rest)
  | [] => .error ⟨[], .unexpectedInIndex .eof⟩
  | ⟨_, token⟩ :: ts =>
    match token with
    | .number n => scanPlaces (p.put n) ts
    | .colon =>
      if p.colons < 2 then scanPlaces { p with colons := p.colons + 1 } ts
      else .error ⟨ts, .unexpectedInIndex .colon⟩
    | .rbracket => .ok (p, ts)
    | other => .error ⟨ts, .unexpectedInIndex other⟩

/-- The key that a token names in a hash. -/
def hashKey? : Token → Option String
  | .identifier name | .quotedIdentifier name => some name
  | .literal (.str name) => some name
  | _ => none

mutual

/-- An expression whose operators bind more tightly than `least`. -/
def parseExpr : Nat → Nat → Rest → Attempt (Expr × Rest)
  | 0, _, _ => spent
  | n + 1, least, ts => do
    let (left, ts) ← parseStart n ts.peek ts.tail
    parseClimb n least left ts

/-- Extends `left` while the next token binds more tightly than `least`. -/
def parseClimb : Nat → Nat → Expr → Rest → Attempt (Expr × Rest)
  | 0, _, _, _ => spent
  | n + 1, least, left, ts =>
    if least < ts.peek.power then do
      let (left, ts) ← parseExtend n ts.peek left ts.tail
      parseClimb n least left ts
    else pure (left, ts)

/-- The expression that a token starts. -/
def parseStart : Nat → Token → Rest → Attempt (Expr × Rest)
  | 0, _, _ => spent
  | n + 1, token, ts =>
    match token with
    | .identifier name | .quotedIdentifier name => pure (.field name, ts)
    | .literal value => pure (.literal value, ts)
    | .current => pure (.current, ts)
    | .star => do
      let (each, ts) ← parseEach n Token.star.power ts
      pure (.project (.values .current) each, ts)
    | .flatten => do
      let (each, ts) ← parseEach n Token.flatten.power ts
      pure (.project (.flatten .current) each, ts)
    | .filter => parseFilter n .current ts
    | .lbracket =>
      match ts.peek, Rest.peek ts.tail with
      | .number _, _ | .colon, _ => parsePlaces n .current ts
      | .star, .rbracket => do
        let (each, ts) ← parseEach n Token.star.power ts.tail.tail
        pure (.project .current each, ts)
      | _, _ => do
        let (items, ts) ← parseList n ts
        pure (.list items, ts)
    | .lbrace => do
      let (entries, ts) ← parseHash n ts
      pure (.hash entries, ts)
    | .lparen => do
      let (inner, ts) ← parseExpr n 0 ts
      let ts ← expect .rparen ts
      pure (inner, ts)
    | .not => do
      let (inner, ts) ← parseExpr n Token.not.power ts
      pure (.not inner, ts)
    | .ampersand => do
      let (inner, ts) ← parseExpr n 0 ts
      pure (.reference inner, ts)
    | other => refuse ts (.unexpected other)

/-- The expression that a token makes of the one before it. -/
def parseExtend : Nat → Token → Expr → Rest → Attempt (Expr × Rest)
  | 0, _, _, _ => spent
  | n + 1, token, left, ts =>
    match token with
    | .dot =>
      match ts.peek with
      | .star => do
        let (each, ts) ← parseEach n Token.star.power ts.tail
        pure (.project (.values left) each, ts)
      | _ => do
        let (next, ts) ← parseMember n ts
        pure (.chain left next, ts)
    | .pipe => do
      let (next, ts) ← parseExpr n Token.pipe.power ts
      pure (.chain left next, ts)
    | .or => do
      let (right, ts) ← parseExpr n Token.or.power ts
      pure (.or left right, ts)
    | .and => do
      let (right, ts) ← parseExpr n Token.and.power ts
      pure (.and left right, ts)
    | .eq => parseCompare n .eq left ts
    | .ne => parseCompare n .ne left ts
    | .lt => parseCompare n .lt left ts
    | .lte => parseCompare n .le left ts
    | .gt => parseCompare n .gt left ts
    | .gte => parseCompare n .ge left ts
    | .flatten => do
      let (each, ts) ← parseEach n Token.flatten.power ts
      pure (.project (.flatten left) each, ts)
    | .filter => parseFilter n left ts
    | .lbracket =>
      match ts.peek with
      | .number _ | .colon => parsePlaces n left ts
      | .star => do
        let ts ← expect .rbracket ts.tail
        let (each, ts) ← parseEach n Token.star.power ts
        pure (.project left each, ts)
      | other => refuse ts (.unexpectedAfterBracket other)
    | .lparen =>
      match left with
      | .field name => do
        let (args, ts) ← parseArgs n ts
        pure (.call name args, ts)
      | _ => refuse ts .notCallable
    | other => refuse ts (.unexpected other)

def parseCompare : Nat → Comparator → Expr → Rest → Attempt (Expr × Rest)
  | 0, _, _, _ => spent
  | n + 1, op, left, ts => do
    let (right, ts) ← parseExpr n Token.eq.power ts
    pure (.compare op left right, ts)

/-- What follows a dot: a name, a hash or a list. -/
def parseMember : Nat → Rest → Attempt (Expr × Rest)
  | 0, _ => spent
  | n + 1, ts =>
    match ts.peek with
    | .identifier _ | .quotedIdentifier _ | .lbrace => parseExpr n Token.dot.power ts
    | .lbracket => do
      let (items, ts) ← parseList n ts.tail
      pure (.list items, ts)
    | other => refuse ts (.unexpectedAfterDot other)

/-- What a projection applies to each element. -/
def parseEach : Nat → Nat → Rest → Attempt (Expr × Rest)
  | 0, _, _ => spent
  | n + 1, least, ts =>
    if ts.peek.power < Token.projectionStop then pure (.current, ts)
    else match ts.peek with
      | .dot => do
        let (first, ts) ← parseMember n ts.tail
        parseClimb n least first ts
      | .lbracket | .filter => parseExpr n least ts
      | other => refuse ts (.unexpectedInProjection other)

/-- The rest of a filter after its opening bracket. -/
def parseFilter : Nat → Expr → Rest → Attempt (Expr × Rest)
  | 0, _, _ => spent
  | n + 1, left, ts => do
    let (test, ts) ← parseExpr n 0 ts
    let ts ← expect .rbracket ts
    let (each, ts) ← parseEach n Token.filter.power ts
    pure (.filter left test each, ts)

/-- The rest of an index or slice after its opening bracket. -/
def parsePlaces : Nat → Expr → Rest → Attempt (Expr × Rest)
  | 0, _, _ => spent
  | n + 1, left, ts =>
    match scanPlaces ⟨⟨none, none, none⟩, 0⟩ ts with
    | .error refusal => throw refusal
    | .ok (p, ts) =>
      if p.colons = 0 then
        match p.slice.start with
        | some i => pure (.chain left (.index i), ts)
        | none => refuse ts .emptyIndex
      else if p.slice.step = some 0 then refuse ts .zeroStep
      else do
        let (each, ts) ← parseEach n Token.star.power ts
        pure (.project (.chain left (.slice p.slice)) each, ts)

/-- The items of a list up to its closing bracket; there is at least one. -/
def parseList : Nat → Rest → Attempt (List Expr × Rest)
  | 0, _ => spent
  | n + 1, ts => do
    let (item, ts) ← parseExpr n 0 ts
    match ts.peek with
    | .comma =>
      let (items, ts) ← parseList n ts.tail
      pure (item :: items, ts)
    | .rbracket => pure ([item], ts.tail)
    | other => refuse ts.tail (.expectedListEnd other)

/-- The entries of a hash up to its closing brace; there is at least one. -/
def parseHash : Nat → Rest → Attempt (List (String × Expr) × Rest)
  | 0, _ => spent
  | n + 1, ts =>
    match hashKey? ts.peek with
    | none => refuse ts.tail (.expectedKey ts.peek)
    | some key => do
      let ts ← expect .colon ts.tail
      let (value, ts) ← parseExpr n 0 ts
      match ts.peek with
      | .comma =>
        let (entries, ts) ← parseHash n ts.tail
        pure ((key, value) :: entries, ts)
      | .rbrace => pure ([(key, value)], ts.tail)
      | other => refuse ts.tail (.expectedHashEnd other)

/-- The arguments of a call up to its closing parenthesis. A comma may stand after the last. -/
def parseArgs : Nat → Rest → Attempt (List Expr × Rest)
  | 0, _ => spent
  | n + 1, ts =>
    match ts.peek with
    | .rparen => pure ([], ts.tail)
    | _ => do
      let (arg, ts) ← parseExpr n 0 ts
      match ts.peek with
      | .comma =>
        let (args, ts) ← parseArgs n ts.tail
        pure (arg :: args, ts)
      | .rparen => pure ([arg], ts.tail)
      | other => refuse ts (.expectedArgumentEnd other)

end

/-- Enough for any parse of so many lexemes: four calls at most pass from one lexeme to the next. -/
def parseFuel (ts : Rest) : Nat := 8 * (ts.length + 1)

/-- The expression that all lexemes make. -/
def parseAll (ts : Rest) : Attempt Expr := do
  let (e, rest) ← parseExpr (parseFuel ts) 0 ts
  match rest.peek with
  | .eof => pure e
  | other => refuse rest (.trailing other)

/-- The expression of a query, or the fault and its place. -/
def parse (query : String) : Except Fault Expr := do
  let ts ← lexFrom 0 query.toList
  match (parseAll ts).run with
  | some (.ok e) => return e
  | some (.error refusal) => .error ⟨refusal.rest.offset query.utf8ByteSize, refusal.cause⟩
  | none => .error ⟨query.utf8ByteSize, .unexpected .eof⟩

end ResourceGraph.Query
