import ResourceGraph.Query.Basic

/-! Selectors `Service|Operation|Query`: which records to read, and the query on them. -/
namespace ResourceGraph

structure Selector where
  service : String
  operation : String
  query : Query

namespace Selector

/-- The three parts of a selector's text. Only its first two bars separate. -/
def parts? (text : List Char) : Option (List Char × List Char × List Char) := do
  let (service, rest) ← Text.cutAt? '|' text
  let (operation, query) ← Text.cutAt? '|' rest
  return (service, operation, query)

def ofText (text : String) : Except QueryError Selector :=
  match parts? text.toList with
  | none => .error (.malformed text .tooFewParts)
  | some (service, operation, query) =>
    let service := String.ofList (Text.trimChars service)
    let operation := String.ofList (Text.trimChars operation)
    if service = "" then .error (.malformed text .emptyService)
    else if operation = "" then .error (.malformed text .emptyOperation)
    else if (Text.trimChars query).isEmpty then .error (.malformed text .emptyQuery)
    else (Query.ofText (String.ofList query)).map fun q => ⟨service, operation, q⟩

def display (s : Selector) : String :=
  s.service ++ "|" ++ s.operation ++ "|" ++ s.query.source

end Selector

end ResourceGraph
