import Switchboard.Request.Basic

/-!
# Responses

The one response to a request carries the text of the answer or the text of an error, what
the tools did, and how the answer came about.
-/

namespace Switchboard

/-- Where a request stands. -/
inductive RequestState where
  | running | completed | failed | cancelled
deriving Repr, DecidableEq

namespace RequestState

/-- All states in their order. -/
def all : List RequestState := [running, completed, failed, cancelled]

/-- The written form of a state. -/
def name : RequestState → String
  | running => "running"
  | completed => "completed"
  | failed => "failed"
  | cancelled => "cancelled"

/-- Whether the request is over. -/
def isTerminal : RequestState → Bool
  | running => false
  | _ => true

/-- Reads a state in its exact written form. -/
def read : Json.Reader RequestState :=
  Json.readVariant (all.map fun s => (s.name, s))

end RequestState

/-- What one tool did for a request. A record that a tool left behind has either a result or
an error. -/
structure ToolRecord where
  toolName : String
  result : Option Json := none
  error : Option String := none
  durationMillis : Nat

namespace ToolRecord

/-- The record of a tool that gave a result. -/
def success (tool : String) (result : Json) (millis : Nat) : ToolRecord :=
  ⟨tool, some result, none, millis⟩

/-- The record of a tool that failed. -/
def failure (tool error : String) (millis : Nat) : ToolRecord :=
  ⟨tool, none, some error, millis⟩

/-- Whether the tool did not fail. -/
def isSuccess (r : ToolRecord) : Bool :=
  r.error.isNone

/-- The record in a few words: the error, else the text or value of the result. -/
def summary (r : ToolRecord) : String :=
  match r.error, r.result with
  | some e, _ => "- " ++ r.toolName ++ ": failed (" ++ e ++ ")"
  | none, some (.str s) => "- " ++ r.toolName ++ ": " ++ s
  | none, some j => "- " ++ r.toolName ++ ": " ++ j.compact
  | none, none => "- " ++ r.toolName ++ ": no output"

/-- The record as a value. -/
def toJson (r : ToolRecord) : Json :=
  .obj ([("tool_name", .str r.toolName)] ++ Json.optionalMember "result" id r.result ++
    Json.optionalMember "error" .str r.error ++ [("duration_millis", Json.ofNat r.durationMillis)])

/-- Reads a record. -/
def read : Json.Reader ToolRecord :=
  Json.readRecord (ToolRecord.mk <$> Json.need "tool_name" Json.readString
    <*> Json.mayHave "result" Json.readJson
    <*> Json.mayHave "error" Json.readString
    <*> Json.need "duration_millis" (Json.readNat wordBits))

end ToolRecord

/-! ## Responses -/

/-- How a response came about. -/
structure ResponseMetadata where
  modelName : Option String := none
  providerName : Option String := none
  tokenCount : Nat := 0
  durationMillis : Nat := 0

namespace ResponseMetadata

/-- The metadata as a value. -/
def toJson (m : ResponseMetadata) : Json :=
  .obj (Json.optionalMember "model_name" .str m.modelName ++
    Json.optionalMember "provider_name" .str m.providerName ++
    [("token_count", Json.ofNat m.tokenCount), ("duration_millis", Json.ofNat m.durationMillis)])

/-- Reads metadata. -/
def read : Json.Reader ResponseMetadata :=
  Json.readRecord (ResponseMetadata.mk <$> Json.mayHave "model_name" Json.readString
    <*> Json.mayHave "provider_name" Json.readString
    <*> Json.need "token_count" (Json.readNat wordBits)
    <*> Json.need "duration_millis" (Json.readNat wordBits))

end ResponseMetadata

/-- The response to a request. -/
structure Response where
  requestId : RequestId
  content : String
  toolResults : Option (List ToolRecord) := none
  error : Option String := none
  metadata : ResponseMetadata

namespace Response

/-- A response without content. -/
def failure (id : RequestId) (error : String) (metadata : ResponseMetadata)
    (toolResults : Option (List ToolRecord)) : Response :=
  ⟨id, "", toolResults, some error, metadata⟩

/-- Whether there is no error. -/
def isSuccess (r : Response) : Bool :=
  r.error.isNone

/-- The records of the tools, if there are any. -/
def records (r : Response) : List ToolRecord :=
  r.toolResults.getD []

/-- The response as a value. -/
def toJson (r : Response) : Json :=
  .obj ([("request_id", r.requestId.toJson), ("content", .str r.content)] ++
    Json.optionalMember "tool_results" (Json.ofList ToolRecord.toJson) r.toolResults ++
    Json.optionalMember "error" .str r.error ++ [("metadata", r.metadata.toJson)])

/-- Reads a response. -/
def read : Json.Reader Response :=
  Json.readRecord (Response.mk <$> Json.need "request_id" RequestId.read
    <*> Json.need "content" Json.readString
    <*> Json.mayHave "tool_results" (Json.readList ToolRecord.read)
    <*> Json.mayHave "error" Json.readString
    <*> Json.need "metadata" ResponseMetadata.read)

end Response

end Switchboard
