import Switchboard.Failure

/-!
# Failures in JSON

Failures are shown to programs with their names, texts, codes and hints. Scripts name the
failures they want by a variant and the data it needs.
-/

namespace Switchboard

/-- The name of a fault of an identifier. -/
def RequestId.Fault.name : RequestId.Fault → String
  | .empty => "Empty"
  | .whitespaceOnly => "WhitespaceOnly"
  | .outerWhitespace => "LeadingTrailingWhitespace"
  | .tooLong _ => "TooLong"
  | .pathTraversal => "PathTraversal"
  | .invalidCharacters => "InvalidCharacters"

/-- A failure as a value. -/
def failureJson (name message : String) (more : List (String × Json)) : Json :=
  .obj ([("error", .str name), ("message", .str message)] ++ more)

/-- The fault of an identifier as a value. -/
def RequestId.Fault.toJson (f : RequestId.Fault) : Json :=
  failureJson f.name f.message []

namespace RequestFailure

/-- The name of a failure. -/
def name : RequestFailure → String
  | duplicate _ => "DuplicateRequest"
  | noModels => "NoModelsAvailable"
  | modelNotFound _ => "ModelNotFound"
  | provider .. => "ModelProvider"
  | tool .. => "ToolExecution"
  | timeout _ => "Timeout"
  | cancelled => "Cancelled"
  | persistence _ => "MemoryPersistence"
  | invalid _ => "InvalidRequest"

/-- The failure as a value. -/
def toJson (f : RequestFailure) : Json :=
  failureJson f.name f.message [("code", .str f.code), ("retryable", .bool f.retryable),
    ("cancellation", .bool f.isCancellation)]

end RequestFailure

namespace ProviderFailure

/-- The name of a failure. -/
def name : ProviderFailure → String
  | unavailable _ => "Unavailable"
  | connection _ => "Connection"
  | rateLimited _ => "RateLimited"
  | service .. => "Upstream"
  | unknownModel _ => "UnknownModel"
  | invalidResponse _ => "InvalidResponse"
  | duplicate _ => "Duplicate"

/-- The failure as a value. -/
def toJson (f : ProviderFailure) : Json :=
  failureJson f.name f.message [("code", .str f.code), ("retryable", .bool f.retryable)]

end ProviderFailure

namespace ToolFailure

/-- The name of a failure. -/
def name : ToolFailure → String
  | notFound _ => "NotFound"
  | duplicate _ => "Duplicate"
  | unavailable _ => "Unavailable"
  | invalidArguments _ => "InvalidArguments"
  | execution _ => "Execution"
  | timeout .. => "Timeout"
  | panicked _ => "Panicked"

/-- The failure as a value. -/
def toJson (f : ToolFailure) : Json :=
  failureJson f.name f.message [("code", .str f.code), ("retryable", .bool f.retryable)]

end ToolFailure

namespace MemoryFailure

/-- The name of a failure. -/
def name : MemoryFailure → String
  | persistence .. => "Persistence"
  | load .. => "Load"
  | serialization _ => "Serialization"
  | lockPoisoned _ => "LockPoisoned"

/-- The failure as a value. -/
def toJson (f : MemoryFailure) : Json :=
  failureJson f.name f.message [("code", .str f.code)]

end MemoryFailure

/-! ## Naming failures -/

/-- A failure as a script names it: a variant, and the data any of them may need. -/
structure FailureSpec where
  variant : String
  text : String := ""
  name : String := ""
  path : String := ""
  retryable : Bool := false
  status : Option Nat := none
  retryAfterMillis : Option Nat := none
  durationMillis : Nat := 0

namespace FailureSpec

/-- Reads the name of a failure. -/
def read : Json.Reader FailureSpec :=
  Json.readRecord (FailureSpec.mk <$> Json.need "variant" Json.readString
    <*> Json.orElse "text" "" Json.readString
    <*> Json.orElse "name" "" Json.readString
    <*> Json.orElse "path" "" Json.readString
    <*> Json.orElse "retryable" false Json.readBool
    <*> Json.mayHave "status" (Json.readNat 16)
    <*> Json.mayHave "retry_after_ms" (Json.readNat 64)
    <*> Json.orElse "duration_ms" 0 (Json.readNat 64))

/-- The failure of a request that is named. -/
def requestFailure (s : FailureSpec) : Except String RequestFailure :=
  match s.variant with
  | "DuplicateRequest" => (RequestId.check s.text).map .duplicate
  | "NoModelsAvailable" => .ok .noModels
  | "ModelNotFound" => .ok (.modelNotFound s.text)
  | "ModelProvider" => .ok (.provider s.name s.text s.retryable)
  | "ToolExecution" => .ok (.tool s.name s.text)
  | "Timeout" => .ok (.timeout s.durationMillis)
  | "Cancelled" => .ok .cancelled
  | "MemoryPersistence" => .ok (.persistence s.text)
  | "InvalidRequest" => .ok (.invalid s.text)
  | v => .error ("unknown failure of a request: " ++ v)

/-- The failure of a provider that is named. -/
def providerFailure (s : FailureSpec) : Except String ProviderFailure :=
  match s.variant with
  | "Unavailable" => .ok (.unavailable s.text)
  | "Connection" => .ok (.connection s.text)
  | "RateLimited" => .ok (.rateLimited s.retryAfterMillis)
  | "Upstream" => .ok (.service s.status s.text)
  | "UnknownModel" => .ok (.unknownModel s.text)
  | "InvalidResponse" => .ok (.invalidResponse s.text)
  | "Duplicate" => .ok (.duplicate s.text)
  | v => .error ("unknown failure of a provider: " ++ v)

/-- The failure of a tool that is named. -/
def toolFailure (s : FailureSpec) : Except String ToolFailure :=
  match s.variant with
  | "NotFound" => .ok (.notFound s.text)
  | "Duplicate" => .ok (.duplicate s.text)
  | "Unavailable" => .ok (.unavailable s.text)
  | "InvalidArguments" => .ok (.invalidArguments s.text)
  | "Execution" => .ok (.execution s.text)
  | "Timeout" => .ok (.timeout s.text s.durationMillis)
  | "Panicked" => .ok (.panicked s.text)
  | "Io" => .ok (.ofInputOutput s.text)
  | v => .error ("unknown failure of a tool: " ++ v)

/-- The failure of a memory that is named. -/
def memoryFailure (s : FailureSpec) : Except String MemoryFailure :=
  match s.variant with
  | "Persistence" => .ok (.persistence s.path s.text)
  | "Load" => .ok (.load s.path s.text)
  | "Serialization" => .ok (.serialization s.text)
  | "LockPoisoned" => .ok (.lockPoisoned s.text)
  | v => .error ("unknown failure of a memory: " ++ v)

end FailureSpec

/-- Reads a failure of a provider. -/
def ProviderFailure.read : Json.Reader ProviderFailure :=
  Json.readAs FailureSpec.read FailureSpec.providerFailure

/-- Reads a failure of a tool. -/
def ToolFailure.read : Json.Reader ToolFailure :=
  Json.readAs FailureSpec.read FailureSpec.toolFailure

/-- Reads a failure of a memory. -/
def MemoryFailure.read : Json.Reader MemoryFailure :=
  Json.readAs FailureSpec.read FailureSpec.memoryFailure

end Switchboard
