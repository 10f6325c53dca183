import ResourceGraph.Graph.Basic

/-! The flat list of elements that displays read: all nodes, then all edges. -/
namespace ResourceGraph

inductive Element where
  | node (id : String) (n : Node)
  /-- The metadata of an edge has a label. -/
  | edge (e : Edge) (metadata : Fields)

namespace Element

def ofNode (n : Node) : Element := .node n.sanitizedId n

/-- An edge without a label is labelled with its name. -/
def ofEdge (e : Edge) : Element :=
  .edge e (if e.metadata.contains "label" then e.metadata
    else e.metadata.insert "label" (.str e.name))

def toJson : Element → Json
  | node id n =>
    .obj ([("group", .str "nodes"), ("id", .str id),
      ("data", .obj ([("id", .str n.id), ("type", .str n.kind)] ++
        (n.parent.map fun p => ("parent", Json.str p)).toList))] ++
      if n.metadata.isEmpty then [] else [("metadata", .obj n.metadata)])
  | edge e metadata =>
    .obj [("group", .str "edges"), ("id", .str e.id),
      ("data", .obj [("id", .str e.id), ("name", .str e.name), ("source", .str e.source),
        ("target", .str e.target), ("type", .str "edge")]),
      ("metadata", .obj metadata)]

end Element

namespace Graph

def elements (g : Graph) : List Element :=
  g.nodes.map Element.ofNode ++ g.edges.map Element.ofEdge

def toJson (g : Graph) : Json := .arr (g.elements.map Element.toJson)

end Graph

end ResourceGraph
