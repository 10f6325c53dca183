import ResourceGraph.Graph.Index
import ResourceGraph.Service.Catalog

/-!
Resource expressions of statements, resolved to the node ids of the service that owns them. One with
a `*` is a pattern for any part of an id; any other must be an id. The ids of a service that uses
bare names are compared in the form of resource names.
-/
namespace ResourceGraph

structure ResourceResolver where
  catalog : Catalog
  index : NodeIndex
  partition : String

namespace ResourceResolver

/-- The name of the bare id `id`. -/
def bareArn (partition segment id : String) : String :=
  "arn:" ++ partition ++ ":" ++ segment ++ ":::" ++ id

/-- What follows the first five colons, or all if there are fewer. -/
def lastPart (resource : List Char) : List Char :=
  let rec after : Nat → List Char → Option (List Char)
    | 0, cs => some cs
    | n + 1, cs => (Text.cutAt? ':' cs).bind fun (_, rest) => after n rest
  (after 5 resource).getD resource

/-- The bucket that holds the object a resource names, in this partition. -/
def bucketLevel (partition segment resource : String) : String :=
  bareArn partition segment (String.ofList ((lastPart resource.toList).takeWhile (· ≠ '/')))

/-- A pattern for text that contains a match: runs of `*` are one, and brackets stand for
themselves. -/
def substringPattern (resource : String) : String :=
  String.ofList ('*' :: go true resource.toList)
where
  go (afterStar : Bool) : List Char → List Char
    | [] => if afterStar then [] else ['*']
    | c :: cs =>
      if c = '*' then if afterStar then go true cs else '*' :: go true cs
      else if c = '[' then '[' :: '[' :: ']' :: go false cs
      else if c = ']' then '[' :: ']' :: ']' :: go false cs
      else c :: go false cs

/-- The service whose segment stands third in a resource name. -/
def owner? (r : ResourceResolver) (resource : String) : Option Descriptor :=
  match (Text.splitChar ':' resource.toList)[2]? with
  | some segment =>
    if segment.isEmpty then none else r.catalog.byArnService? (String.ofList segment)
  | none => none

/-- The form in which an id of the service is compared. -/
def candidate (r : ResourceResolver) (d : Descriptor) (id : String) : String :=
  if d.bareNameIds then bareArn r.partition d.arnService id else id

def subject (r : ResourceResolver) (d : Descriptor) (resource : String) : String :=
  if d.bareNameIds then bucketLevel r.partition d.arnService resource else resource

/-- Whether the subject of a resource covers a candidate. -/
def covers (subject : String) : String → Bool :=
  if subject.toList.contains '*' then
    match Text.Wildcard.compile (substringPattern subject) with
    | .ok pattern => Text.Wildcard.accepts pattern
    | .error _ => fun _ => false
  else fun candidate => candidate = subject

/-- The node ids that a resource expression stands for, in ascending order. `*` alone stands for
none. -/
def resolve (r : ResourceResolver) (resource : String) : List String :=
  let resource := Text.trim resource
  if resource = "*" || resource = "" then []
  else match r.owner? resource with
    | none => []
    | some d =>
      let covers := covers (r.subject d resource)
      ((r.index.ids? d.key).getD []).filter fun id => covers (r.candidate d id)

end ResourceResolver

end ResourceGraph
