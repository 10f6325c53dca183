import ResourceGraph.Service.Spec
import ResourceGraph.Settings.Basic
import ResourceGraph.Toml.Reader

/-! A whole configuration: the settings, and descriptions of further services. -/
namespace ResourceGraph

structure Configuration where
  scan : ScanSettings
  graph : GraphSettings
  logging : LogSettings
  services : List ServiceSpec

namespace Configuration

def standard : Configuration := ⟨.standard, .standard, .standard, []⟩

section Reading

open Document

variable {α : Type} [Document α]

def read? (d : α) : Option Configuration := do
  let parts ← parts? 4 d
  let scan ← parts.defaulted 0 "scan" .standard ScanSettings.read?
  let graph ← parts.defaulted 1 "graph" .standard GraphSettings.read?
  let logging ← parts.defaulted 2 "logging" .standard LogSettings.read?
  let services ← parts.defaulted 3 "services" [] (list? ServiceSpec.read?)
  return ⟨scan, graph, logging, services⟩

end Reading

/-- Reads a configuration text. -/
def ofText? (text : String) : Option Configuration := (Toml.ofText? text).bind read?

def toJson (c : Configuration) : Json :=
  .obj [("scan", c.scan.toJson), ("graph", c.graph.toJson), ("logging", c.logging.toJson),
    ("services", .arr (c.services.map ServiceSpec.toJson))]

end Configuration

end ResourceGraph
