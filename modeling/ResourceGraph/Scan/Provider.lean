import ResourceGraph.Json.Basic
import ResourceGraph.Settings.Basic

/-! Calls to a provider, the errors they end with, and what an error code means for a scan. -/
namespace ResourceGraph

structure ProviderError where
  code : String
  text : String

def ProviderError.message (e : ProviderError) : String := e.code ++ ": " ++ e.text

/-- Where a call runs, and what it calls. -/
structure ScanContext where
  account : String
  region : String
  service : String
  operation : String
deriving DecidableEq

/-- One operation of a provider. A call gives one value for each page; its last argument counts the
attempts before it. -/
structure Scanner (m : Type → Type) where
  service : String
  operation : String
  scan : ScanContext → Option Fields → Nat → m (Except ProviderError (List Json))

inductive ErrorClass where
  /-- What was asked for does not exist. -/
  | ignorable
  /-- The call may be repeated. -/
  | retryable
  /-- The call is given up. -/
  | fatal
deriving DecidableEq

/-- Codes that are ignorable under any settings. -/
def standardIgnorable : List String := [
  "NoSuchWebsiteConfiguration", "NoSuchBucketPolicy", "NoSuchTagSet", "NoSuchCORSConfiguration",
  "NoSuchLifecycleConfiguration", "ServerSideEncryptionConfigurationNotFoundError",
  "ResourceNotFoundException"]

/-- Codes that are retryable under any settings. -/
def standardRetryable : List String := [
  "Throttling", "ThrottlingException", "RequestLimitExceeded", "TooManyRequestsException",
  "ServiceUnavailable", "InternalError"]

structure Classifier where
  ignorable : List String
  retryable : List String

namespace Classifier

def ofSettings (s : ScanSettings) : Classifier :=
  ⟨standardIgnorable ++ s.ignorableCodes, standardRetryable ++ s.retryableCodes⟩

/-- A code on both lists is ignorable. -/
def classify (c : Classifier) (e : ProviderError) : ErrorClass :=
  if c.ignorable.contains e.code then .ignorable
  else if c.retryable.contains e.code then .retryable
  else .fatal

end Classifier

end ResourceGraph
