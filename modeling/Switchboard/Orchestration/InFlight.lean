import Switchboard.Failure

/-!
# Requests in flight

At most one execution of an identifier is in flight. Every execution has a generation of its
own, so one whose identifier has been given to another does not end the other.
-/

namespace Switchboard

/-- The identifiers in flight with the generations of their executions. -/
structure InFlight where
  entries : List (RequestId × Nat) := []
  /-- The last generation that was given out. -/
  lastGeneration : Nat := 0

namespace InFlight

/-- The generation of the execution of an identifier that is in flight. -/
def generation? (f : InFlight) (id : RequestId) : Option Nat :=
  f.entries.lookup id

/-- Takes in an identifier that is not in flight, with a new generation. -/
def register (f : InFlight) (id : RequestId) : Except RequestFailure (Nat × InFlight) :=
  match f.generation? id with
  | some _ => .error (.duplicate id)
  | none =>
    let generation := f.lastGeneration + 1
    .ok (generation, ⟨f.entries ++ [(id, generation)], generation⟩)

/-- Takes out an identifier, whichever execution it belongs to. -/
def remove (f : InFlight) (id : RequestId) : InFlight :=
  { f with entries := f.entries.filter fun e => e.1 ≠ id }

/-- Whether an execution is in flight. -/
def holds (f : InFlight) (id : RequestId) (generation : Nat) : Bool :=
  f.generation? id = some generation

/-- Takes out an identifier if it still belongs to an execution. -/
def deregister (f : InFlight) (id : RequestId) (generation : Nat) : InFlight :=
  if f.holds id generation then f.remove id else f

/-- The identifiers in flight in rising order. -/
def active (f : InFlight) : List RequestId :=
  (f.entries.map (·.1)).mergeSort RequestId.le

end InFlight

end Switchboard
