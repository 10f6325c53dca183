import ResourceGraph.Document.Basic

/-! Records: what one page of one call left behind, with the place and parameters of the call. -/
namespace ResourceGraph

structure Metadata where
  account : String
  region : String
  /-- Seconds since the epoch. -/
  timestamp : Nat

structure Record where
  metadata : Metadata
  parameters : Fields
  result : Json

/-- The address of one sequence of records. -/
structure Key where
  account : String
  region : String
  service : String
  operation : String
deriving DecidableEq

namespace Key

def parts (k : Key) : List String := [k.account, k.region, k.service, k.operation]

/-- Keys are ordered by account, then region, service and operation. -/
instance : LT Key := ⟨fun a b => a.parts < b.parts⟩

instance : DecidableLT Key := fun a b => inferInstanceAs (Decidable (a.parts < b.parts))

instance : Std.Irrefl (· < · : Key → Key → Prop) := ⟨fun k => Std.lt_irrefl (a := k.parts)⟩

instance : Trans (· < · : Key → Key → Prop) (· < ·) (· < ·) :=
  ⟨fun {a b c} => Std.lt_trans (a := a.parts) (b := b.parts) (c := c.parts)⟩

theorem parts_inj {a b : Key} (h : a.parts = b.parts) : a = b := by
  cases a
  cases b
  simpa [parts] using h

instance : Std.Trichotomous (· < · : Key → Key → Prop) :=
  ⟨fun a b hab hba =>
    parts_inj (((Std.lt_trichotomy a.parts b.parts).resolve_left hab).resolve_right hba)⟩

def display (k : Key) : String :=
  k.account ++ "/" ++ k.region ++ "/" ++ k.service ++ "|" ++ k.operation

end Key

/-- The records that a selector is evaluated against: those of one account and region, or all. -/
inductive Scope where
  | place (account region : String)
  | everywhere
deriving DecidableEq

def Scope.display : Scope → String
  | place account region => account ++ "/" ++ region
  | everywhere => "global"

def Metadata.toJson (m : Metadata) : Json :=
  .obj [("account", .str m.account), ("region", .str m.region),
    ("timestamp", .ofNat m.timestamp)]

def Metadata.read? (d : Json) : Option Metadata := do
  let parts ← Document.parts? 3 d
  let account ← parts.required 0 "account" Document.text?
  let region ← parts.required 1 "region" Document.text?
  let timestamp ← parts.required 2 "timestamp" (Document.natural? (Nat.pow 2 64))
  return ⟨account, region, timestamp⟩

def Record.toJson (r : Record) : Json :=
  .obj [("metadata", r.metadata.toJson), ("parameters", .obj r.parameters), ("result", r.result)]

def Record.read? (d : Json) : Option Record := do
  let parts ← Document.parts? 3 d
  let metadata ← parts.required 0 "metadata" Metadata.read?
  let parameters ← parts.defaulted 1 "parameters" [] Document.fields?
  let result ← parts.required 2 "result" some
  return ⟨metadata, parameters, result⟩

end ResourceGraph
