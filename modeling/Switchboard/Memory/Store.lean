import Switchboard.Memory.Knowledge
import Switchboard.Relevance
import Switchboard.Request.Id

/-!
# Memory

The memory keeps one history for every conversation and a bounded list of knowledge. An
exchange is added to its history and becomes knowledge as a whole; beyond the bound the oldest
knowledge is forgotten. All that is kept, without the bound, is a snapshot.
-/

namespace Switchboard

/-- Everything that is kept: the histories in rising order of their identifiers, and the
knowledge from old to new. -/
structure MemorySnapshot where
  conversations : List (RequestId × List ConversationEntry) := []
  knowledge : List KnowledgeEntry := []
deriving DecidableEq

namespace MemorySnapshot

/-- Sets the history of a conversation, keeping the identifiers in rising order. -/
def setHistory (id : RequestId) (h : List ConversationEntry) :
    List (RequestId × List ConversationEntry) → List (RequestId × List ConversationEntry)
  | [] => [(id, h)]
  | (i, h') :: rest =>
    if i = id then (id, h) :: rest
    else if id.le i then (id, h) :: (i, h') :: rest
    else (i, h') :: setHistory id h rest

/-- The history of a conversation; empty if nothing was said. -/
def history (s : MemorySnapshot) (id : RequestId) : List ConversationEntry :=
  (s.conversations.lookup id).getD []

/-- The pieces of knowledge that answer a query best. -/
def search (s : MemorySnapshot) (query : String) (limit : Nat) (threshold : Float) :
    List KnowledgeSnippet :=
  (Relevance.rank query (s.knowledge.map (·.content)) threshold limit).filterMap fun r =>
    s.knowledge[r.1]?.map fun k => ⟨k.content, r.2, k.source⟩

/-- How much is kept. -/
def usage (s : MemorySnapshot) : MemoryUsage where
  conversations := s.conversations.length
  messages := (s.conversations.map fun c => c.2.length).foldr (· + ·) 0
  knowledgeEntries := s.knowledge.length
  approxBytes :=
    (s.conversations.flatMap fun c => c.2.map fun e => e.content.utf8ByteSize).foldr (· + ·) 0 +
      (s.knowledge.map fun k => k.content.utf8ByteSize).foldr (· + ·) 0

/-- The snapshot as a value. -/
def toJson (s : MemorySnapshot) : Json :=
  .obj [("conversations", .obj (s.conversations.map fun c =>
      (c.1.text, Json.ofList ConversationEntry.toJson c.2))),
    ("knowledge", Json.ofList KnowledgeEntry.toJson s.knowledge)]

/-- The histories of a list; of two of one conversation the later counts. -/
def ofHistories (l : List (RequestId × List ConversationEntry)) :
    List (RequestId × List ConversationEntry) :=
  l.foldl (fun acc c => setHistory c.1 c.2 acc) []

/-- Reads the histories. -/
def readConversations : Json.Reader (List (RequestId × List ConversationEntry)) :=
  Json.readAs (Json.readMap RequestId.ofKey (Json.readList ConversationEntry.read)) fun l =>
    .ok (ofHistories l)

/-- Reads a snapshot; what is absent is empty. -/
def read : Json.Reader MemorySnapshot :=
  Json.readRecord (MemorySnapshot.mk <$> Json.orElse "conversations" [] readConversations
    <*> Json.orElse "knowledge" [] (Json.readList KnowledgeEntry.read))

end MemorySnapshot

/-! ## Stores -/

/-- The bound on knowledge if none is given. -/
def defaultMaxKnowledge : Nat := 1000

/-- A snapshot with a bound on the knowledge that later additions respect. -/
structure MemoryStore extends MemorySnapshot where
  maxKnowledge : Nat := defaultMaxKnowledge
deriving DecidableEq

/-- A change of what is kept. -/
inductive MemoryUpdate where
  /-- An exchange in a conversation. -/
  | append (id : RequestId) (user assistant : String)
  | add (content source : String)
  | clear
deriving DecidableEq

/-- When the parts of a change are made. The clock is read for each of them. -/
structure Stamps where
  user : Timestamp
  assistant : Timestamp
  knowledge : Timestamp
deriving Repr, DecidableEq

/-- All parts at one point in time. -/
def Stamps.once (now : Timestamp) : Stamps :=
  ⟨now, now, now⟩

instance : Coe Timestamp Stamps := ⟨Stamps.once⟩

namespace MemoryStore

/-- An empty store with a bound of at least one. -/
def withMaxKnowledge (n : Nat) : MemoryStore :=
  { maxKnowledge := max n 1 }

/-- The store of a snapshot, with the default bound. -/
def ofSnapshot (s : MemorySnapshot) : MemoryStore :=
  { s with }

/-- Adds a piece of knowledge and forgets the oldest ones beyond the bound. -/
def push (s : MemoryStore) (k : KnowledgeEntry) : MemoryStore :=
  let all := s.knowledge ++ [k]
  { s with knowledge := all.drop (all.length - s.maxKnowledge) }

/-- The two entries of an exchange. -/
def exchange (user assistant : String) (t : Stamps) : List ConversationEntry :=
  [⟨.user, user, t.user⟩, ⟨.assistant, assistant, t.assistant⟩]

/-- What is known of an exchange. -/
def exchangeKnowledge (id : RequestId) (user assistant : String) (t : Stamps) :
    KnowledgeEntry :=
  ⟨user ++ "\n" ++ assistant, id.conversationSource, t.knowledge⟩

/-- Adds an exchange to the history of a conversation. -/
def converse (s : MemoryStore) (id : RequestId) (entries : List ConversationEntry) :
    MemoryStore :=
  let history := s.history id ++ entries
  { s with conversations := MemorySnapshot.setHistory id history s.conversations }

/-- Carries out a change. -/
def update (s : MemoryStore) (t : Stamps) : MemoryUpdate → MemoryStore
  | .append id user assistant =>
    (s.converse id (exchange user assistant t)).push (exchangeKnowledge id user assistant t)
  | .add content source => s.push ⟨content, source, t.knowledge⟩
  | .clear => { s with conversations := [], knowledge := [] }

end MemoryStore

end Switchboard
