import ResourceGraph.Json.Basic

/-! Translators: how an item of a node selector's result becomes a node. -/
namespace ResourceGraph

/-- A node before it has a type, and a container where it names none. -/
structure NodeItem where
  id : String
  parent : Option String
  metadata : Fields

/-- None passes over the item. -/
abbrev Translator := Json → Option NodeItem

/-- A text field that is there and not empty. -/
def Json.textField? (item : Json) (name : String) : Option String :=
  ((item.field? name).bind Json.str?).filter (· ≠ "")

/-- Takes the id and the parent from the fields of these names, and all others that are not null as
metadata. -/
def Translator.standard : Translator
  | .obj fields => do
    let id ← (Json.obj fields).textField? "id"
    let parent := (Json.obj fields).textField? "parent"
    let metadata := fields.filter fun (key, v) => key ≠ "id" && key ≠ "parent" && !v.isNull
    return ⟨id, parent, metadata⟩
  | _ => none

/-- Translators of single services; the others use the standard one. -/
structure Translators where
  entries : List (String × Translator)

namespace Translators

def standard : Translators := ⟨[]⟩

/-- A translator takes the place of an earlier one for the same service. -/
def register (set : Translators) (service : String) (translator : Translator) : Translators :=
  ⟨(service, translator) :: set.entries⟩

def translate (set : Translators) (service : String) (item : Json) : Option NodeItem :=
  ((set.entries.lookup service).getD Translator.standard) item

end Translators

end ResourceGraph
