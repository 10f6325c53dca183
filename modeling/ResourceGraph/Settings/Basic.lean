import ResourceGraph.Document.Basic

/-! Settings of scans, graphs and logs, and the values that hold where one is left out. -/
namespace ResourceGraph

/-- How failed calls are repeated. Delays are in milliseconds. -/
structure RetrySettings where
  maxAttempts : Option Nat
  baseDelay : Option Nat
  maxDelay : Option Nat

namespace RetrySettings

def standard : RetrySettings := ⟨none, none, none⟩

/-- There is at least one attempt. -/
def effectiveMaxAttempts (s : RetrySettings) : Nat := max 1 (s.maxAttempts.getD 3)

def effectiveBaseDelay (s : RetrySettings) : Nat := s.baseDelay.getD 200

def effectiveMaxDelay (s : RetrySettings) : Nat := s.maxDelay.getD 5000

end RetrySettings

structure ScanSettings where
  regions : List String
  /-- The region in which global services are scanned. -/
  defaultRegion : Option String
  /-- Further error codes that stand for absence. -/
  ignorableCodes : List String
  /-- Further error codes after which a call is repeated. -/
  retryableCodes : List String
  parallel : Option Bool
  retry : RetrySettings

namespace ScanSettings

def standard : ScanSettings := ⟨[], none, [], [], none, .standard⟩

def effectiveDefaultRegion (s : ScanSettings) : String := s.defaultRegion.getD "us-east-1"

/-- The default region alone if none is listed. -/
def effectiveRegions (s : ScanSettings) : List String :=
  if s.regions.isEmpty then [s.effectiveDefaultRegion] else s.regions

def effectiveParallel (s : ScanSettings) : Bool := s.parallel.getD true

end ScanSettings

structure GraphSettings where
  /-- The selector of the role records. -/
  roleSelector : Option String
  /-- The partition in which resource names are formed. -/
  partition : Option String

namespace GraphSettings

def standard : GraphSettings := ⟨none, none⟩

def defaultRoleSelector : String := "IAM|ListRoles|[*].result.Roles[]"

def effectiveRoleSelector (s : GraphSettings) : String := s.roleSelector.getD defaultRoleSelector

def effectivePartition (s : GraphSettings) : String := s.partition.getD "aws"

end GraphSettings

structure LogSettings where
  level : Option String

namespace LogSettings

def standard : LogSettings := ⟨none⟩

def effectiveLevel (s : LogSettings) : String := s.level.getD "info"

end LogSettings

/-! ## Reading and writing -/

section Reading

open Document

variable {α : Type} [Document α]

def RetrySettings.read? (d : α) : Option RetrySettings := do
  let parts ← parts? 3 d
  let maxAttempts ← parts.optional 0 "max_attempts" (natural? (Nat.pow 2 32))
  let baseDelay ← parts.optional 1 "base_delay_ms" (natural? (Nat.pow 2 64))
  let maxDelay ← parts.optional 2 "max_delay_ms" (natural? (Nat.pow 2 64))
  return ⟨maxAttempts, baseDelay, maxDelay⟩

def ScanSettings.read? (d : α) : Option ScanSettings := do
  let parts ← parts? 6 d
  let regions ← parts.defaulted 0 "regions" [] (list? text?)
  let defaultRegion ← parts.optional 1 "default_region" text?
  let ignorableCodes ← parts.defaulted 2 "ignorable_error_codes" [] (list? text?)
  let retryableCodes ← parts.defaulted 3 "retryable_error_codes" [] (list? text?)
  let parallel ← parts.optional 4 "parallel" flag?
  let retry ← parts.defaulted 5 "retry" .standard RetrySettings.read?
  return ⟨regions, defaultRegion, ignorableCodes, retryableCodes, parallel, retry⟩

def GraphSettings.read? (d : α) : Option GraphSettings := do
  let parts ← parts? 2 d
  let roleSelector ← parts.optional 0 "role_selector" text?
  let partition ← parts.optional 1 "partition" text?
  return ⟨roleSelector, partition⟩

def LogSettings.read? (d : α) : Option LogSettings := do
  let parts ← parts? 1 d
  return ⟨← parts.optional 0 "level" text?⟩

end Reading

def RetrySettings.toJson (s : RetrySettings) : Json :=
  .obj [("max_attempts", .ofNat? s.maxAttempts), ("base_delay_ms", .ofNat? s.baseDelay),
    ("max_delay_ms", .ofNat? s.maxDelay)]

def ScanSettings.toJson (s : ScanSettings) : Json :=
  .obj [("regions", .ofStrings s.regions), ("default_region", .ofStr? s.defaultRegion),
    ("ignorable_error_codes", .ofStrings s.ignorableCodes),
    ("retryable_error_codes", .ofStrings s.retryableCodes),
    ("parallel", s.parallel.elim .null .bool), ("retry", s.retry.toJson)]

def GraphSettings.toJson (s : GraphSettings) : Json :=
  .obj [("role_selector", .ofStr? s.roleSelector), ("partition", .ofStr? s.partition)]

def LogSettings.toJson (s : LogSettings) : Json := .obj [("level", .ofStr? s.level)]

end ResourceGraph
