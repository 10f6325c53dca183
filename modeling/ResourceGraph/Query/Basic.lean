import ResourceGraph.Query.Eval
import ResourceGraph.Query.Parser

/-! Queries: the text of an expression, and the expression. -/
namespace ResourceGraph

structure Query where
  source : String
  expr : Query.Expr

namespace Query

/-- Reads the text without the blanks around it. -/
def ofText (text : String) : Except QueryError Query :=
  let source := Text.trim text
  if source = "" then .error (.illFormed "" ⟨0, .emptyQuery⟩)
  else match parse source with
    | .ok expr => .ok ⟨source, expr⟩
    | .error fault => .error (.illFormed source fault)

def search (q : Query) (data : Json) : Except QueryError Json := eval q.expr data

/-- A list gives its elements, null nothing, and any other value itself. -/
def sequenceOf : Json → List Json
  | .arr items => items
  | .null => []
  | value => [value]

def searchAll (q : Query) (data : Json) : Except QueryError (List Json) :=
  (q.search data).map sequenceOf

end Query

end ResourceGraph
