import ResourceGraph.Json.Basic

/-!
Documents from which structures are read, whatever their format. A structure is written as a table
of its fields or as a list of them in order. Fields that it does not know are passed over.
-/
namespace ResourceGraph

namespace Document

/-- The outermost part of a document. -/
inductive Shape (α : Type) where
  | null
  | flag (b : Bool)
  | whole (i : Int)
  /-- A number that is not whole. -/
  | fractional
  | text (s : String)
  | list (items : List α)
  | table (fields : List (String × α))

end Document

class Document (α : Type) where
  shape : α → Document.Shape α
  toJson : α → Json
  /-- Whether a list with more elements than a structure has fields is refused. -/
  refusesSurplus : Bool

namespace Document

variable {α β : Type} [Document α]

def text? (d : α) : Option String :=
  match shape d with
  | .text s => some s
  | _ => none

def flag? (d : α) : Option Bool :=
  match shape d with
  | .flag b => some b
  | _ => none

/-- A whole number from zero and below the limit. -/
def natural? (limit : Nat) (d : α) : Option Nat :=
  match shape d with
  | .whole i => if 0 ≤ i && i < limit then some i.toNat else none
  | _ => none

def list? (read : α → Option β) (d : α) : Option (List β) :=
  match shape d with
  | .list items => items.mapM read
  | _ => none

/-- A table of values of any form. -/
def fields? (d : α) : Option Fields :=
  match shape d with
  | .table fields => some (Fields.ofList (fields.map fun (key, v) => (key, toJson v)))
  | _ => none

/-- None for null. -/
def optional? (read : α → Option β) (d : α) : Option (Option β) :=
  match shape d with
  | .null => some none
  | _ => (read d).map some

/-- Finds the fields of a structure by position and name. -/
structure Parts (α : Type) where
  find : Nat → String → Option α

/-- The fields of a structure that has so many of them. -/
def parts? (size : Nat) (d : α) : Option (Parts α) :=
  match shape d with
  | .table fields => some ⟨fun _ name => fields.lookup name⟩
  | .list items =>
    if refusesSurplus α && size < items.length then none else some ⟨fun i _ => items[i]?⟩
  | _ => none

namespace Parts

/-- A field that must be there. -/
def required (parts : Parts α) (i : Nat) (name : String) (read : α → Option β) : Option β :=
  (parts.find i name).bind read

/-- A field that may be left out. -/
def defaulted (parts : Parts α) (i : Nat) (name : String) (default : β) (read : α → Option β) :
    Option β :=
  match parts.find i name with
  | some d => read d
  | none => some default

/-- A field that may be left out or null. -/
def optional (parts : Parts α) (i : Nat) (name : String) (read : α → Option β) :
    Option (Option β) :=
  parts.defaulted i name none (optional? read)

end Parts

end Document

def Json.shape : Json → Document.Shape Json
  | .null => .null
  | .bool b => .flag b
  | .num (.int i) => .whole i
  | .num (.double _) => .fractional
  | .str s => .text s
  | .arr items => .list items
  | .obj fields => .table fields

instance : Document Json where
  shape := Json.shape
  toJson := id
  refusesSurplus := true

end ResourceGraph
