import ResourceGraph.Json.Printer

/-! Tokens of the query language, how messages name them, and how tightly they bind. -/
namespace ResourceGraph.Query

inductive Token where
  | identifier (name : String)
  | quotedIdentifier (name : String)
  | number (n : Int)
  | literal (value : Json)
  | dot
  | star
  /-- The pair `[]`. -/
  | flatten
  /-- The pair `[?`. -/
  | filter
  | lbracket
  | rbracket
  | lbrace
  | rbrace
  | lparen
  | rparen
  | comma
  | colon
  | pipe
  | or
  | and
  | not
  | ampersand
  /-- The sign `@`. -/
  | current
  | eq
  | ne
  | lt
  | lte
  | gt
  | gte
  /-- The end of the query. -/
  | eof
deriving BEq

namespace Token

def describe : Token → String
  | identifier name => "Identifier(" ++ Text.quoted name ++ ")"
  | quotedIdentifier name => "QuotedIdentifier(" ++ Text.quoted name ++ ")"
  | number n => "Number(" ++ toString n ++ ")"
  | literal value => "Literal(" ++ value.describe ++ ")"
  | dot => "Dot"
  | star => "Star"
  | flatten => "Flatten"
  | filter => "Filter"
  | lbracket => "Lbracket"
  | rbracket => "Rbracket"
  | lbrace => "Lbrace"
  | rbrace => "Rbrace"
  | lparen => "Lparen"
  | rparen => "Rparen"
  | comma => "Comma"
  | colon => "Colon"
  | pipe => "Pipe"
  | or => "Or"
  | and => "And"
  | not => "Not"
  | ampersand => "Ampersand"
  | current => "At"
  | eq => "Eq"
  | ne => "Ne"
  | lt => "Lt"
  | lte => "Lte"
  | gt => "Gt"
  | gte => "Gte"
  | eof => "Eof"

/-- How tightly a token binds the expression before it. Zero ends the expression. -/
def power : Token → Nat
  | pipe => 1
  | or => 2
  | and => 3
  | eq | ne | lt | lte | gt | gte => 5
  | flatten => 9
  | star => 20
  | filter => 21
  | dot => 40
  | not => 45
  | lbrace => 50
  | lbracket => 55
  | lparen => 60
  | _ => 0

/-- A token that binds less tightly ends a projection. -/
def projectionStop : Nat := 10

end Token

/-- A token and the byte of the query at which it starts. -/
structure Lexeme where
  offset : Nat
  token : Token

end ResourceGraph.Query
