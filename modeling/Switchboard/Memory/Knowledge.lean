import Switchboard.Conversation

/-!
# Knowledge

Pieces of text with their sources, as they are kept and as a search returns them, and the size
of what is kept.
-/

namespace Switchboard

/-- A piece of text that is kept. -/
structure KnowledgeEntry where
  content : String
  source : String
  createdAt : Timestamp
deriving DecidableEq

namespace KnowledgeEntry

/-- The entry as a value. -/
def toJson (k : KnowledgeEntry) : Json :=
  .obj [("content", .str k.content), ("source", .str k.source),
    ("created_at", k.createdAt.toJson)]

/-- Reads an entry. -/
def read : Json.Reader KnowledgeEntry :=
  Json.readRecord (KnowledgeEntry.mk <$> Json.need "content" Json.readString
    <*> Json.need "source" Json.readString
    <*> Json.need "created_at" Timestamp.read)

end KnowledgeEntry

/-- A piece of text that answers a query, with its score. -/
structure KnowledgeSnippet where
  content : String
  score : Float
  source : String

namespace KnowledgeSnippet

/-- The snippet as a value. -/
def toJson (k : KnowledgeSnippet) : Json :=
  .obj [("content", .str k.content), ("relevance_score", Json.ofFloat k.score),
    ("source", .str k.source)]

/-- Reads a snippet. -/
def read : Json.Reader KnowledgeSnippet :=
  Json.readRecord (KnowledgeSnippet.mk <$> Json.need "content" Json.readString
    <*> Json.need "relevance_score" Json.readFloat
    <*> Json.need "source" Json.readString)

end KnowledgeSnippet

/-- How much is kept. -/
structure MemoryUsage where
  conversations : Nat
  messages : Nat
  knowledgeEntries : Nat
  /-- The bytes of all texts. -/
  approxBytes : Nat
deriving DecidableEq

namespace MemoryUsage

/-- The width of the counters. -/
def counterBits : Nat := 64

/-- The usage as a value. -/
def toJson (u : MemoryUsage) : Json :=
  .obj [("conversations", Json.ofNat u.conversations), ("messages", Json.ofNat u.messages),
    ("knowledge_entries", Json.ofNat u.knowledgeEntries),
    ("approx_bytes", Json.ofNat u.approxBytes)]

/-- Reads a usage. -/
def read : Json.Reader MemoryUsage :=
  Json.readRecord (MemoryUsage.mk <$> Json.need "conversations" (Json.readNat counterBits)
    <*> Json.need "messages" (Json.readNat counterBits)
    <*> Json.need "knowledge_entries" (Json.readNat counterBits)
    <*> Json.need "approx_bytes" (Json.readNat counterBits))

end MemoryUsage

end Switchboard
