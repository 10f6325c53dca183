import ResourceGraph.Graph.Assembly
import ResourceGraph.Graph.Element
import ResourceGraph.Scan.Pipeline
import ResourceGraph.Proofs.Graph.WellFormed
import ResourceGraph.Proofs.Graph.EdgeOverlap
import ResourceGraph.Proofs.Graph.ElementIds
import ResourceGraph.Proofs.Graph.RoleEdges
import ResourceGraph.Proofs.Graph.NodeIndex
import ResourceGraph.Proofs.Graph.Absence
import ResourceGraph.Proofs.Json.Fields
import ResourceGraph.Proofs.Json.Equivalence
import ResourceGraph.Proofs.Document.Stored
import ResourceGraph.Proofs.Document.Described
import ResourceGraph.Proofs.Policy.Resource
import ResourceGraph.Proofs.Query.RowWise
import ResourceGraph.Proofs.Query.Pipe
import ResourceGraph.Proofs.Query.Slicing
import ResourceGraph.Proofs.Record.Scopes
import ResourceGraph.Proofs.Scan.Candidates
import ResourceGraph.Proofs.Scan.Peeling
import ResourceGraph.Proofs.Scan.OnePass
import ResourceGraph.Proofs.Scan.Toposort
import ResourceGraph.Proofs.Scan.Layering
import ResourceGraph.Proofs.Scan.Cycle
import ResourceGraph.Proofs.Service.FanOut
import ResourceGraph.Proofs.Service.LiteralOrder
import ResourceGraph.Proofs.Service.RowWiseBuiltIn
import ResourceGraph.Proofs.Service.Lookup
import ResourceGraph.Proofs.Record.ScopeUnion
import ResourceGraph.Proofs.Record.Content
import ResourceGraph.Proofs.Record.Log
import ResourceGraph.Proofs.Record.Silence
import ResourceGraph.Proofs.Scan.Program
import ResourceGraph.Proofs.Scan.Interleaving
import ResourceGraph.Proofs.Scan.TaskPath
import ResourceGraph.Proofs.Scan.Level
import ResourceGraph.Proofs.Scan.Responses
import ResourceGraph.Proofs.Scan.Agreement
import ResourceGraph.Proofs.Scan.Writes
import ResourceGraph.Proofs.Scan.Noninterference
import ResourceGraph.Proofs.Scan.Ledger
import ResourceGraph.Proofs.Scan.Starvation
import ResourceGraph.Proofs.Query.MissingData
import ResourceGraph.Proofs.Policy.BucketLevel
import ResourceGraph.Proofs.Service.Pairing
import ResourceGraph.Proofs.Scan.Retry
import ResourceGraph.Proofs.Scan.Delay
import ResourceGraph.Proofs.Query.Sorting
import ResourceGraph.Proofs.Text.Percent
import ResourceGraph.Proofs.Policy.Writing
import ResourceGraph.Proofs.Graph.Containment
import ResourceGraph.Proofs.Query.RawText
import ResourceGraph.Proofs.Query.SelectorText
import ResourceGraph.Proofs.Query.Joining
import ResourceGraph.Proofs.Query.FaultPlace
import ResourceGraph.Proofs.Query.Comparison
import ResourceGraph.Proofs.Record.Snapshot
import ResourceGraph.Proofs.Generator.DnsName
import ResourceGraph.Proofs.Generator.Endpoints
import ResourceGraph.Proofs.Generator.Joins
import ResourceGraph.Proofs.Generator.AliasSpelling
