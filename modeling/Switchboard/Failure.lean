import Switchboard.Request.Id

/-!
# Failures

What can go wrong with a provider, a tool, the memory and a request as a whole. Each failure
has a text, a code, and where it matters the hint that trying again may help. Failures of the
parts turn into failures of a request that say which part it was.
-/

namespace Switchboard

/-- Why a request has no answer. -/
inductive RequestFailure where
  /-- A request of that name is under way. -/
  | duplicate (id : RequestId)
  | noModels
  | modelNotFound (name : String)
  | provider (name message : String) (retryable : Bool)
  | tool (name message : String)
  | timeout (millis : Nat)
  | cancelled
  | persistence (message : String)
  | invalid (message : String)
deriving DecidableEq

namespace RequestFailure

/-- The text of a failure. -/
def message : RequestFailure → String
  | duplicate id => "Request '" ++ id.text ++ "' is already in flight"
  | noModels => "No models available"
  | modelNotFound name => "Model not found: " ++ name
  | provider name message _ => "Model provider '" ++ name ++ "' failed: " ++ message
  | tool name message => "Tool '" ++ name ++ "' failed: " ++ message
  | timeout millis => "Request timed out after " ++ toString millis ++ "ms"
  | cancelled => "Request was cancelled"
  | persistence message => "Memory persistence failed: " ++ message
  | invalid message => "Invalid request: " ++ message

/-- The code of a failure. -/
def code : RequestFailure → String
  | duplicate _ => "DUPLICATE_REQUEST"
  | noModels => "NO_MODELS_AVAILABLE"
  | modelNotFound _ => "MODEL_NOT_FOUND"
  | provider .. => "MODEL_PROVIDER_ERROR"
  | tool .. => "TOOL_EXECUTION_ERROR"
  | timeout _ => "TIMEOUT"
  | cancelled => "CANCELLED"
  | persistence _ => "MEMORY_PERSISTENCE_ERROR"
  | invalid _ => "INVALID_REQUEST"

/-- Whether trying again may help. -/
def retryable : RequestFailure → Bool
  | provider _ _ retryable => retryable
  | timeout _ => true
  | _ => false

/-- Whether the failure ends a request as cancelled. -/
def isCancellation : RequestFailure → Bool
  | cancelled => true
  | _ => false

/-- The failure of a request whose identifier is none. -/
def ofIdFault (f : RequestId.Fault) : RequestFailure :=
  .invalid f.message

end RequestFailure

/-- Why a provider does not answer. -/
inductive ProviderFailure where
  | unavailable (message : String)
  | connection (message : String)
  | rateLimited (retryAfterMillis : Option Nat)
  | service (status : Option Nat) (message : String)
  | unknownModel (name : String)
  | invalidResponse (message : String)
  | duplicate (name : String)
deriving DecidableEq

namespace ProviderFailure

/-- The status of a failed service in parentheses. -/
def statusSuffix : Option Nat → String
  | some status => " (" ++ toString status ++ ")"
  | none => ""

/-- The text of a failure. -/
def message : ProviderFailure → String
  | unavailable message => "Provider unavailable: " ++ message
  | connection message => "Connection error: " ++ message
  | rateLimited _ => "Rate limited"
  | service status message => "Upstream error" ++ statusSuffix status ++ ": " ++ message
  | unknownModel name => "Model not served by this provider: " ++ name
  | invalidResponse message => "Invalid response: " ++ message
  | duplicate name => "Provider '" ++ name ++ "' is already registered"

/-- The code of a failure. -/
def code : ProviderFailure → String
  | unavailable _ => "PROVIDER_UNAVAILABLE"
  | connection _ => "CONNECTION_ERROR"
  | rateLimited _ => "RATE_LIMITED"
  | service .. => "UPSTREAM_ERROR"
  | unknownModel _ => "UNKNOWN_MODEL"
  | invalidResponse _ => "INVALID_RESPONSE"
  | duplicate _ => "PROVIDER_DUPLICATE"

/-- Whether trying again may help; the failure of a service may pass from status 500 on. -/
def retryable : ProviderFailure → Bool
  | unavailable _ => true
  | connection _ => true
  | rateLimited _ => true
  | service (some status) _ => 500 ≤ status
  | _ => false

/-- The failure of a request to a provider. -/
def toRequestFailure (f : ProviderFailure) (provider : String) : RequestFailure :=
  .provider provider f.message f.retryable

end ProviderFailure

/-- Why a tool gives no result. -/
inductive ToolFailure where
  | notFound (name : String)
  | duplicate (name : String)
  | unavailable (name : String)
  | invalidArguments (message : String)
  | execution (message : String)
  | timeout (name : String) (millis : Nat)
  | panicked (name : String)
deriving DecidableEq

namespace ToolFailure

/-- The text of a failure. -/
def message : ToolFailure → String
  | notFound name => "Tool not found: " ++ name
  | duplicate name => "Tool '" ++ name ++ "' is already registered"
  | unavailable name => "Tool '" ++ name ++ "' is unavailable"
  | invalidArguments message => "Invalid arguments: " ++ message
  | execution message => message
  | timeout name millis => "Tool '" ++ name ++ "' timed out after " ++ toString millis ++ "ms"
  | panicked name => "Tool '" ++ name ++ "' panicked"

/-- The code of a failure. -/
def code : ToolFailure → String
  | notFound _ => "TOOL_NOT_FOUND"
  | duplicate _ => "TOOL_DUPLICATE"
  | unavailable _ => "TOOL_UNAVAILABLE"
  | invalidArguments _ => "INVALID_ARGUMENTS"
  | execution _ => "TOOL_EXECUTION_ERROR"
  | timeout .. => "TOOL_TIMEOUT"
  | panicked _ => "TOOL_PANICKED"

/-- Whether trying again may help. -/
def retryable : ToolFailure → Bool
  | unavailable _ => true
  | timeout .. => true
  | _ => false

/-- The failure of a tool in input or output. -/
def ofInputOutput (message : String) : ToolFailure :=
  .execution ("IO error: " ++ message)

/-- The failure of a request to a tool. -/
def toRequestFailure (f : ToolFailure) (tool : String) : RequestFailure :=
  .tool tool f.message

end ToolFailure

/-- Why the memory cannot be read or kept. -/
inductive MemoryFailure where
  | persistence (path details : String)
  | load (path details : String)
  | serialization (message : String)
  | lockPoisoned (message : String)
deriving DecidableEq

namespace MemoryFailure

/-- The text of a failure. -/
def message : MemoryFailure → String
  | persistence path details => "Failed to persist memory to " ++ path ++ ": " ++ details
  | load path details => "Failed to load memory from " ++ path ++ ": " ++ details
  | serialization message => "Serialization error: " ++ message
  | lockPoisoned message => "Lock poisoned: " ++ message

/-- The code of a failure. -/
def code : MemoryFailure → String
  | persistence .. => "MEMORY_PERSISTENCE_ERROR"
  | load .. => "MEMORY_LOAD_ERROR"
  | serialization _ => "MEMORY_SERIALIZATION_ERROR"
  | lockPoisoned _ => "MEMORY_LOCK_POISONED"

/-- The failure of a request that could not be remembered. -/
def toRequestFailure (f : MemoryFailure) : RequestFailure :=
  .persistence f.message

end MemoryFailure

end Switchboard
