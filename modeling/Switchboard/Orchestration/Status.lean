import Switchboard.Memory.Knowledge
import Switchboard.Orchestration.Orchestrator

/-!
# Status

What can be seen of an orchestrator at a moment: the requests in flight, the model chosen last,
and how much is remembered.
-/

namespace Switchboard

/-- What can be seen of an orchestrator at a moment. -/
structure Status where
  isProcessing : Bool
  activeRequests : List RequestId
  currentModel : Option String
  memoryUsage : MemoryUsage

namespace Status

/-- The status as a value. -/
def toJson (s : Status) : Json :=
  .obj [("is_processing", .bool s.isProcessing),
    ("active_requests", Json.ofList RequestId.toJson s.activeRequests),
    ("current_model", Json.ofOption .str s.currentModel),
    ("memory_usage", s.memoryUsage.toJson)]

/-- Reads a status. -/
def read : Json.Reader Status :=
  Json.readRecord (Status.mk <$> Json.need "is_processing" Json.readBool
    <*> Json.need "active_requests" (Json.readList RequestId.read)
    <*> Json.mayHave "current_model" Json.readString
    <*> Json.need "memory_usage" MemoryUsage.read)

end Status

/-- What can be seen of the orchestrator now. -/
def Orchestrator.status (o : Orchestrator) : Status :=
  let active := o.board.inFlight.active
  ⟨!active.isEmpty, active, o.board.currentModel, o.board.memory.store.usage⟩

end Switchboard
