import Switchboard.Memory.FileStore
import Switchboard.Failure.Json

/-!
# Kinds of memory

A memory is lost when the program ends, or is kept in a file, or follows a script: its
reads and appends wait for a while and then perhaps fail. The state a failed change leaves
behind depends on the kind: a file that cannot be written does not undo the change, a
scripted failure prevents it.
-/

namespace Switchboard

/-- How a scripted memory behaves. -/
structure MemoryScript where
  appendDelay : Nat := 0
  readDelay : Nat := 0
  appendFailure : Option MemoryFailure := none
  historyFailure : Option MemoryFailure := none
  searchFailure : Option MemoryFailure := none

/-- Reads a script. -/
def MemoryScript.read : Json.Reader MemoryScript :=
  Json.readRecord (MemoryScript.mk <$> Json.orElse "append_delay_ms" 0 (Json.readNat 64)
    <*> Json.orElse "read_delay_ms" 0 (Json.readNat 64)
    <*> Json.mayHave "append_error" MemoryFailure.read
    <*> Json.mayHave "history_error" MemoryFailure.read
    <*> Json.mayHave "search_error" MemoryFailure.read)

/-- A memory of some kind. -/
inductive Memory where
  | transient (store : MemoryStore)
  | filed (store : FileStore)
  | scripted (script : MemoryScript) (store : MemoryStore)

namespace Memory

/-- What is kept. -/
def store : Memory → MemoryStore
  | transient s => s
  | filed f => f.store
  | scripted _ s => s

/-- The script a memory follows; without one nothing waits or fails. -/
def script : Memory → MemoryScript
  | scripted script _ => script
  | _ => {}

/-- Fails if there is something to fail with. -/
def failWith {α : Type} (f : Option MemoryFailure) (a : α) : Except MemoryFailure α :=
  match f with
  | some f => .error f
  | none => .ok a

/-- The history of a conversation. -/
def history (m : Memory) (id : RequestId) : Except MemoryFailure (List ConversationEntry) :=
  failWith m.script.historyFailure (m.store.history id)

/-- The pieces of knowledge that answer a query best. -/
def search (m : Memory) (query : String) (limit : Nat) (threshold : Float) :
    Except MemoryFailure (List KnowledgeSnippet) :=
  failWith m.script.searchFailure (m.store.search query limit threshold)

/-- How long reading takes. -/
def readDelay (m : Memory) : Nat :=
  m.script.readDelay

/-- How long a change takes before it happens. -/
def writeDelay (m : Memory) : MemoryUpdate → Nat
  | .append .. => m.script.appendDelay
  | _ => 0

/-- Why a scripted change does not happen. -/
def scriptedFailure (script : MemoryScript) : MemoryUpdate → Option MemoryFailure
  | .append .. => script.appendFailure
  | _ => none

/-- Carries out a change. -/
def update (m : Memory) (fs : FileSystem) (t : Stamps) (u : MemoryUpdate) :
    Except MemoryFailure Unit × Memory × FileSystem :=
  match m with
  | transient s => (.ok (), transient (s.update t u), fs)
  | filed f =>
    let r := f.update fs t u
    (r.1, filed r.2.1, r.2.2)
  | scripted script s =>
    match scriptedFailure script u with
    | some f => (.error f, scripted script s, fs)
    | none => (.ok (), scripted script (s.update t u), fs)

end Memory

end Switchboard
