import ResourceGraph.Query.Token
import ResourceGraph.Text.Wildcard

/-! What can be wrong with a query or a selector, and the text that says so. -/
namespace ResourceGraph

namespace Query

/-- Faults of the query text. -/
inductive SyntaxFault where
  | emptyQuery
  | unterminatedText
  | unterminatedJson
  | invalidJson
  | unterminatedName
  | invalidName
  | invalidNumber (text : String)
  | unexpectedCharacter (c : Char)
  | trailing (found : Token)
  | unexpected (found : Token)
  | unexpectedAfterBracket (found : Token)
  | unexpectedAfterDot (found : Token)
  | unexpectedInProjection (found : Token)
  | unexpectedInIndex (found : Token)
  | expected (wanted found : Token)
  | expectedArgumentEnd (found : Token)
  | expectedListEnd (found : Token)
  | expectedHashEnd (found : Token)
  | expectedKey (found : Token)
  | notCallable
  | emptyIndex
  | zeroStep

def SyntaxFault.message : SyntaxFault → String
  | emptyQuery => "empty query"
  | unterminatedText => "unterminated raw string"
  | unterminatedJson => "unterminated JSON literal"
  | invalidJson => "invalid JSON literal:"
  | unterminatedName => "unterminated quoted identifier"
  | invalidName => "invalid quoted identifier:"
  | invalidNumber text => "invalid number `" ++ text ++ "`"
  | unexpectedCharacter c => "unexpected character `" ++ c.toString ++ "`"
  | trailing found => "unexpected trailing token " ++ found.describe
  | unexpected found => "unexpected token " ++ found.describe
  | unexpectedAfterBracket found => "unexpected token " ++ found.describe ++ " after `[`"
  | unexpectedAfterDot found => "unexpected token " ++ found.describe ++ " after `.`"
  | unexpectedInProjection found => "unexpected token " ++ found.describe ++ " in projection"
  | unexpectedInIndex found => "unexpected token " ++ found.describe ++ " in index"
  | expected wanted found => "expected " ++ wanted.describe ++ ", found " ++ found.describe
  | expectedArgumentEnd found => "expected `,` or `)`, found " ++ found.describe
  | expectedListEnd found => "expected `,` or `]`, found " ++ found.describe
  | expectedHashEnd found => "expected `,` or `\x7d`, found " ++ found.describe
  | expectedKey found => "expected key, found " ++ found.describe
  | notCallable => "only identifiers can be called"
  | emptyIndex => "empty index"
  | zeroStep => "slice step cannot be 0"

/-- A fault and the byte of the query where it was found. -/
structure Fault where
  offset : Nat
  cause : SyntaxFault

/-- What a function asks of an argument. -/
inductive Shape where
  | value
  | string
  | array
  | object
  | reference
  | arrayOrString
  | sized
  | stringArray
  | sortable

def Shape.text : Shape → String
  | value => "value"
  | string => "string"
  | array => "array"
  | object => "object"
  | reference => "expref"
  | arrayOrString => "array or string"
  | sized => "string, array or object"
  | stringArray => "array of strings"
  | sortable => "array of numbers or array of strings"

/-- The kind of an argument. -/
inductive Kind where
  | null
  | boolean
  | number
  | string
  | array
  | object
  | reference
deriving DecidableEq

def Kind.text : Kind → String
  | null => "null"
  | boolean => "boolean"
  | number => "number"
  | string => "string"
  | array => "array"
  | object => "object"
  | reference => "expref"

/-- How many arguments a function takes. -/
inductive Arity where
  | exactly (n : Nat)
  | atLeastOne

def Arity.text : Arity → String
  | exactly n => toString n
  | atLeastOne => "at least 1"

end Query

/-- Faults of a selector's three parts. -/
inductive SelectorFault where
  | tooFewParts
  | emptyService
  | emptyOperation
  | emptyQuery

def SelectorFault.message : SelectorFault → String
  | tooFewParts => "expected `Service|Operation|Query`"
  | emptyService => "empty service"
  | emptyOperation => "empty operation"
  | emptyQuery => "empty query"

inductive QueryError where
  | malformed (selector : String) (fault : SelectorFault)
  | illFormed (query : String) (fault : Query.Fault)
  | unknownFunction (name : String)
  | wrongType (function : String) (expected : Query.Shape) (actual : Query.Kind)
  | badPattern (function : String) (fault : Text.Wildcard.Fault)
  | wrongArity (function : String) (expected : Query.Arity) (actual : Nat)

namespace QueryError

/-- What a function of this name wanted and what it was given. -/
def typeMessage (function expected actual : String) : String :=
  "Function `" ++ function ++ "` expected " ++ expected ++ ", got " ++ actual

def message : QueryError → String
  | malformed selector fault => "Malformed selector `" ++ selector ++ "`: " ++ fault.message
  | illFormed query fault =>
    "Query syntax error at offset " ++ toString fault.offset ++ " in `" ++ query ++ "`: " ++
      fault.cause.message
  | unknownFunction name => "Unknown query function `" ++ name ++ "`"
  | wrongType function expected actual => typeMessage function expected.text actual.text
  | badPattern function fault => typeMessage function "a valid glob pattern" fault.message
  | wrongArity function expected actual =>
    "Function `" ++ function ++ "` takes " ++ expected.text ++ " argument(s), got " ++
      toString actual

def code : QueryError → String
  | malformed .. => "SELECTOR_MALFORMED"
  | illFormed .. | unknownFunction .. => "QUERY_SYNTAX"
  | wrongType .. | badPattern .. | wrongArity .. => "QUERY_RUNTIME"

end QueryError

end ResourceGraph
