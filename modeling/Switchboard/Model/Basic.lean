import Switchboard.Capability
import Switchboard.Conversation

/-!
# Models and calls

A model is described by the provider that lists it. A call hands a model the messages of a
conversation; the output is a text and perhaps a count of its tokens.
-/

namespace Switchboard

/-- Where a model runs. -/
inductive ModelKind where
  | local | remote
deriving Repr, DecidableEq

namespace ModelKind

/-- All kinds in their order. -/
def all : List ModelKind := [ModelKind.local, ModelKind.remote]

/-- The written form of a kind. -/
def name : ModelKind → String
  | .local => "local"
  | .remote => "remote"

/-- Reads a kind in its exact written form. -/
def read : Json.Reader ModelKind :=
  Json.readVariant (all.map fun k => (k.name, k))

end ModelKind

/-- The description of a model. -/
structure ModelDescriptor where
  name : String
  providerName : String
  kind : ModelKind
  capabilities : CapabilitySet
  contextLength : Nat
  costPerToken : Option Float := none
deriving BEq

namespace ModelDescriptor

/-- The description as a value. -/
def toJson (m : ModelDescriptor) : Json :=
  .obj ([("name", .str m.name), ("provider_name", .str m.providerName), ("kind", .str m.kind.name),
    ("capabilities", m.capabilities.toJson), ("context_length", Json.ofNat m.contextLength)] ++
    Json.optionalMember "cost_per_token" Json.ofFloat m.costPerToken)

/-- Reads a description. -/
def read : Json.Reader ModelDescriptor :=
  Json.readRecord (ModelDescriptor.mk <$> Json.need "name" Json.readString
    <*> Json.need "provider_name" Json.readString
    <*> Json.need "kind" ModelKind.read
    <*> Json.need "capabilities" CapabilitySet.read
    <*> Json.need "context_length" (Json.readNat 32)
    <*> Json.mayHave "cost_per_token" Json.readFloat)

end ModelDescriptor

/-! ## Calls -/

/-- A message for a model. -/
structure ChatMessage where
  role : Role
  content : String
deriving DecidableEq

namespace ChatMessage

/-- What an entry of a conversation says. -/
def ofEntry (e : ConversationEntry) : ChatMessage :=
  ⟨e.role, e.content⟩

/-- The message as a value. -/
def toJson (m : ChatMessage) : Json :=
  .obj [("role", .str m.role.name), ("content", .str m.content)]

/-- Reads a message. -/
def read : Json.Reader ChatMessage :=
  Json.readRecord (ChatMessage.mk <$> Json.need "role" Role.read
    <*> Json.need "content" Json.readString)

end ChatMessage

/-- A call of a model. -/
structure ModelCall where
  model : String
  messages : List ChatMessage
  temperature : Float32
  maxTokens : Nat
  streaming : Bool := false

namespace ModelCall

/-- The first message of the system. -/
def systemPrompt (c : ModelCall) : Option String :=
  (c.messages.find? fun m => m.role = .system).map (·.content)

/-- The last message of the user. -/
def lastUserMessage (c : ModelCall) : Option String :=
  (c.messages.reverse.find? fun m => m.role = .user).map (·.content)

/-- The call as a value. -/
def toJson (c : ModelCall) : Json :=
  .obj [("model", .str c.model), ("messages", Json.ofList ChatMessage.toJson c.messages),
    ("temperature", Json.ofFloat32 c.temperature), ("max_tokens", Json.ofNat c.maxTokens),
    ("streaming", .bool c.streaming)]

/-- Reads a call. -/
def read : Json.Reader ModelCall :=
  Json.readRecord (ModelCall.mk <$> Json.need "model" Json.readString
    <*> Json.need "messages" (Json.readList ChatMessage.read)
    <*> Json.need "temperature" Json.readFloat32
    <*> Json.need "max_tokens" (Json.readNat 32)
    <*> Json.orElse "streaming" false Json.readBool)

end ModelCall

/-- What a model answers. -/
structure ModelOutput where
  content : String
  tokenCount : Option Nat := none
deriving DecidableEq

namespace ModelOutput

/-- The reported number of tokens, else the number of words. -/
def effectiveTokenCount (o : ModelOutput) : Nat :=
  o.tokenCount.getD (Text.words o.content.toList).length

/-- The output as a value. -/
def toJson (o : ModelOutput) : Json :=
  .obj ([("content", .str o.content)] ++
    Json.optionalMember "token_count" Json.ofNat o.tokenCount)

/-- Reads an output. -/
def read : Json.Reader ModelOutput :=
  Json.readRecord (ModelOutput.mk <$> Json.need "content" Json.readString
    <*> Json.mayHave "token_count" (Json.readNat 64))

end ModelOutput

end Switchboard
