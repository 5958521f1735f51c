import Switchboard.Json.Reader
import Switchboard.Timestamp

/-!
# Conversations

Who speaks in a conversation, and its entries in the order in which they were said.
-/

namespace Switchboard

/-- Who speaks. -/
inductive Role where
  | system | user | assistant
deriving Repr, DecidableEq

namespace Role

/-- All roles in their order. -/
def all : List Role := [system, user, assistant]

/-- The written form of a role. -/
def name : Role → String
  | system => "system"
  | user => "user"
  | assistant => "assistant"

/-- Reads a role in its exact written form. -/
def read : Json.Reader Role :=
  Json.readVariant (all.map fun r => (r.name, r))

end Role

/-- A point in time as a value. -/
def Timestamp.toJson (t : Timestamp) : Json :=
  .str t.toText

/-- Reads a point in time. -/
def Timestamp.read : Json.Reader Timestamp :=
  Json.readAs Json.readString fun s => (Timestamp.parse s.toList).mapError Timestamp.Fault.message

/-- Something said in a conversation. -/
structure ConversationEntry where
  role : Role
  content : String
  timestamp : Timestamp
deriving DecidableEq

namespace ConversationEntry

/-- The entry as a value. -/
def toJson (e : ConversationEntry) : Json :=
  .obj [("role", .str e.role.name), ("content", .str e.content),
    ("timestamp", e.timestamp.toJson)]

/-- Reads an entry. -/
def read : Json.Reader ConversationEntry :=
  Json.readRecord (ConversationEntry.mk <$> Json.need "role" Role.read
    <*> Json.need "content" Json.readString
    <*> Json.need "timestamp" Timestamp.read)

end ConversationEntry

end Switchboard
