import ResourceGraph.Document.Basic

/-!
Nodes, edges and graphs. A node is named by its id; where two ids differ only in characters that
displays refuse, they count as one.
-/
namespace ResourceGraph

/-- Replaces the characters that displays refuse in ids. -/
def sanitizeChar (c : Char) : Char :=
  if c = ':' || c = '/' || c = '\\' || c = '.' then '_' else c

def sanitize (id : String) : String := String.ofList (id.toList.map sanitizeChar)

structure Node where
  id : String
  kind : String
  /-- The node that contains this one. -/
  parent : Option String
  metadata : Fields

/-- The source acts on the target. -/
structure Edge where
  id : String
  source : String
  target : String
  name : String
  metadata : Fields

namespace Node

def ofKind (id kind : String) : Node := ⟨id, kind, none, []⟩

def sanitizedId (n : Node) : String := sanitize n.id

/-- An absent parent and empty metadata are left out. -/
def toJson (n : Node) : Json :=
  .obj ([("id", .str n.id), ("type", .str n.kind)] ++
    (n.parent.map fun p => ("parent", Json.str p)).toList ++
    if n.metadata.isEmpty then [] else [("metadata", .obj n.metadata)])

def read? (d : Json) : Option Node := do
  let parts ← Document.parts? 4 d
  let id ← parts.required 0 "id" Document.text?
  let kind ← parts.required 1 "type" Document.text?
  let parent ← parts.optional 2 "parent" Document.text?
  let metadata ← parts.defaulted 3 "metadata" [] Document.fields?
  return ⟨id, kind, parent, metadata⟩

end Node

namespace Edge

/-- The id of an edge is made from its ends. -/
def idOf (source target : String) : String := sanitize (source ++ ":" ++ target)

def between (source target name : String) : Edge :=
  ⟨idOf source target, source, target, name, []⟩

def withMetadata (e : Edge) (key : String) (value : Json) : Edge :=
  { e with metadata := e.metadata.insert key value }

/-- Empty metadata is left out. -/
def toJson (e : Edge) : Json :=
  .obj ([("id", .str e.id), ("source", .str e.source), ("target", .str e.target),
    ("name", .str e.name)] ++ if e.metadata.isEmpty then [] else [("metadata", .obj e.metadata)])

def read? (d : Json) : Option Edge := do
  let parts ← Document.parts? 5 d
  let id ← parts.required 0 "id" Document.text?
  let source ← parts.required 1 "source" Document.text?
  let target ← parts.required 2 "target" Document.text?
  let name ← parts.required 3 "name" Document.text?
  let metadata ← parts.defaulted 4 "metadata" [] Document.fields?
  return ⟨id, source, target, name, metadata⟩

end Edge

structure Graph where
  nodes : List Node
  edges : List Edge

namespace Graph

def nodeIds (g : Graph) : List String := g.nodes.map (·.id)

/-- The node of an id, the last one if there are several. -/
def findNode? (g : Graph) (id : String) : Option Node := g.nodes.findRev? (·.id = id)

def findEdge? (g : Graph) (source target : String) : Option Edge :=
  g.edges.find? fun e => e.source = source && e.target = target

def edgesFrom (g : Graph) (source : String) : List Edge := g.edges.filter (·.source = source)

def edgesTo (g : Graph) (target : String) : List Edge := g.edges.filter (·.target = target)

end Graph

end ResourceGraph
