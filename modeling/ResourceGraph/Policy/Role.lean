import ResourceGraph.Policy.Document
import ResourceGraph.Record.Source

/-! Roles and their policies, read from records of two shapes, and stored by resource name. -/
namespace ResourceGraph

structure Policy where
  name : String
  statements : List Statement

structure Role where
  arn : String
  name : String
  inlinePolicies : List Policy
  attachedPolicies : List Policy

/-- What the executor may do, it may do with the permissions of the role. -/
structure RoleBinding where
  roleArn : String
  executor : String
deriving DecidableEq

namespace RoleBinding

def parts (b : RoleBinding) : List String := [b.roleArn, b.executor]

/-- Bindings are ordered by role, then executor. -/
instance : LT RoleBinding := ⟨fun a b => a.parts < b.parts⟩

instance : DecidableLT RoleBinding := fun a b => inferInstanceAs (Decidable (a.parts < b.parts))

end RoleBinding

/-- The first text among the fields of these names, unless it is empty. -/
def firstText? (value : Json) (names : List String) : Option String :=
  (names.findSome? fun name => (value.field? name).bind Json.str?).filter (· ≠ "")

namespace Policy

/-- A policy without a document, or with one that cannot be decoded, is passed over. -/
def read? (entry : Json) : Option Policy := do
  let name := (firstText? entry ["name", "PolicyName"]).getD "policy"
  let document ← ["document", "PolicyDocument"].findSome? entry.field?
  match Statement.decode name document with
  | .ok statements => some ⟨name, statements⟩
  | .error _ => none

/-- The policies of the first field among these names that is a list. -/
def listed (value : Json) (names : List String) : List Policy :=
  let entries := names.findSome? fun name =>
    match value.field? name with
    | some (.arr items) => some items
    | _ => none
  (entries.getD []).filterMap read?

end Policy

namespace Role

/-- The last part of a path. -/
def lastSegment (path : String) : String :=
  String.ofList ((Text.splitChar '/' path.toList).getLastD [])

def read (value : Json) : Except PolicyError Role :=
  match firstText? value ["roleArn", "RoleArn", "Arn"] with
  | none => .error (.missingField "roleArn")
  | some arn => .ok {
      arn
      name := (firstText? value ["roleName", "RoleName"]).getD (lastSegment arn)
      inlinePolicies := Policy.listed value ["inlinePolicies", "RolePolicyList"]
      attachedPolicies := Policy.listed value
        ["attachedPolicies", "AttachedManagedPolicies", "AttachedPolicies"] }

def policies (r : Role) : List Policy := r.inlinePolicies ++ r.attachedPolicies

end Role

/-- Roles by resource name. -/
structure Roles where
  entries : List (String × Role)

namespace Roles

def empty : Roles := ⟨[]⟩

def put (role : Role) : List (String × Role) → List (String × Role)
  | [] => [(role.arn, role)]
  | (arn, r) :: rest => if arn = role.arn then (arn, role) :: rest else (arn, r) :: put role rest

/-- A role takes the place of an earlier one with the same name. -/
def insert (roles : Roles) (role : Role) : Roles := ⟨put role roles.entries⟩

def get? (roles : Roles) (arn : String) : Option Role := roles.entries.lookup arn

def size (roles : Roles) : Nat := roles.entries.length

def isEmpty (roles : Roles) : Bool := roles.entries.isEmpty

def ofItems (items : List Json) : Roles :=
  items.foldl (fun roles item =>
    match Role.read item with
    | .ok role => roles.insert role
    | .error _ => roles) empty

/-- The roles among the items of a selector's result everywhere. -/
def hydrate (source : Source) (selector : Selector) : Except EvalError Roles := do
  return ofItems (← source.evaluate .everywhere selector)

end Roles

def RoleBinding.read? (d : Json) : Option RoleBinding := do
  let parts ← Document.parts? 2 d
  let roleArn ← parts.required 0 "roleArn" Document.text?
  let executor ← parts.required 1 "executor" Document.text?
  return ⟨roleArn, executor⟩

def RoleBinding.toJson (b : RoleBinding) : Json :=
  .obj [("roleArn", .str b.roleArn), ("executor", .str b.executor)]

end ResourceGraph
