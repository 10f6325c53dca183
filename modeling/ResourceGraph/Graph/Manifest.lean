import ResourceGraph.Document.Basic
import ResourceGraph.Ordered
import ResourceGraph.Record.Source

/-! The accounts and regions that a graph covers. -/
namespace ResourceGraph

structure AccountScope where
  accountId : String
  regions : List String

structure Manifest where
  accounts : List AccountScope
  /-- The region in which global services were scanned. -/
  defaultRegion : String

namespace Manifest

/-- The accounts and regions of the scopes, both in ascending order. -/
def ofScopes (defaultRegion : String) (scopes : List (String × String)) : Manifest :=
  let grouped := scopes.foldl (fun groups (account, region) =>
    Ordered.adjust account (fun regions => Ordered.insert region (regions.getD [])) groups) []
  ⟨grouped.map fun (account, regions) => ⟨account, regions⟩, defaultRegion⟩

/-- All that the store holds records of. -/
def ofSource (source : Source) (defaultRegion : String) : Except StoreError Manifest :=
  source.scopes.map (ofScopes defaultRegion)

def toJson (m : Manifest) : Json :=
  .obj [
    ("accounts", .arr (m.accounts.map fun a =>
      .obj [("account_id", .str a.accountId), ("regions", .ofStrings a.regions)])),
    ("default_region", .str m.defaultRegion)]

def readScope? (d : Json) : Option AccountScope := do
  let parts ← Document.parts? 2 d
  let accountId ← parts.required 0 "account_id" Document.text?
  let regions ← parts.required 1 "regions" (Document.list? Document.text?)
  return ⟨accountId, regions⟩

def read? (d : Json) : Option Manifest := do
  let parts ← Document.parts? 2 d
  let accounts ← parts.required 0 "accounts" (Document.list? readScope?)
  let defaultRegion ← parts.required 1 "default_region" Document.text?
  return ⟨accounts, defaultRegion⟩

end Manifest

end ResourceGraph
