import ResourceGraph.Document.Basic
import ResourceGraph.Json.Reader
import ResourceGraph.Text.Blank
import ResourceGraph.Text.Lower
import ResourceGraph.Text.Percent

/-!
Policy documents: JSON values, JSON text, or percent-encoded JSON text. Where a list is expected a
single value may stand for it.
-/
namespace ResourceGraph

inductive PolicyError where
  | invalidDocument (policy : String)
  | invalidEncoding (policy : String)
  | missingField (name : String)

namespace PolicyError

def message : PolicyError → String
  | invalidDocument policy => "Policy `" ++ policy ++ "` document is not valid JSON:"
  | invalidEncoding policy => "Policy `" ++ policy ++ "` document is not URL-decodable:"
  | missingField name => "Role record is missing `" ++ name ++ "`"

def code (_ : PolicyError) : String := "POLICY_DECODE"

end PolicyError

structure Statement where
  effect : Option String
  actions : List String
  resources : List String
  /-- The statement as it was written. -/
  raw : Json

namespace Statement

def isDeny (s : Statement) : Bool := s.effect.any fun e => Text.lowerAscii e = "deny"

/-- A list, or one value in place of a list of one. -/
def oneOrMany? (read : Json → Option α) (d : Json) : Option (List α) :=
  match Document.list? read d with
  | some values => some values
  | none => (read d).map ([·])

def read? (d : Json) : Option Statement := do
  let parts ← Document.parts? 3 d
  let effect ← parts.optional 0 "Effect" Document.text?
  let actions ← parts.optional 1 "Action" (oneOrMany? Document.text?)
  let resources ← parts.optional 2 "Resource" (oneOrMany? Document.text?)
  return ⟨effect, actions.getD [], resources.getD [], d⟩

/-- The statements of a document that is not text. -/
def listed? (d : Json) : Option (List Json) := do
  let parts ← Document.parts? 1 d
  let statements ← parts.optional 0 "Statement" (oneOrMany? some)
  return statements.getD []

/-- The document that a text writes. One that does not start with a brace is percent-encoded. -/
def documentOf (policy text : String) : Except PolicyError Json := do
  let trimmed := Text.trim text
  let json ←
    if trimmed.toList.head? = some '{' then pure trimmed
    else match Text.percentDecode? trimmed with
      | some json => pure json
      | none => .error (.invalidEncoding policy)
  match Json.ofText? json with
  | some d => return d
  | none => .error (.invalidDocument policy)

/-- All statements of a policy document. -/
def decode (policy : String) (document : Json) : Except PolicyError (List Statement) := do
  let document ← match document with
    | .str text => documentOf policy text
    | other => pure other
  match (listed? document).bind (·.mapM read?) with
  | some statements => return statements
  | none => .error (.invalidDocument policy)

end Statement

end ResourceGraph
