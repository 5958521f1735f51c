import Switchboard.CallLog
import Switchboard.Events.Event
import Switchboard.Model.Basic

/-!
# The journal

What executions do to the outside, in order and each with the generation of the execution:
they publish events, run tools, and call models. The events on the channel and the logs of
the calls are views of the journal.
-/

namespace Switchboard

/-- What an execution does to the outside. -/
inductive Deed where
  | publish (e : Event)
  | runTool (name : String) (args : Json)
  | callModel (provider : String) (call : ModelCall)

namespace Deed

/-- The event of a deed that publishes one. -/
def event? : Deed → Option Event
  | publish e => some e
  | _ => none

@[simp] theorem event?_publish (e : Event) : (publish e).event? = some e :=
  rfl

@[simp] theorem event?_runTool (name : String) (args : Json) : (runTool name args).event? = none :=
  rfl

@[simp] theorem event?_callModel (provider : String) (call : ModelCall) :
    (callModel provider call).event? = none :=
  rfl

/-- The tool and arguments of a deed that runs one. -/
def toolCall? : Deed → Option (String × Json)
  | runTool name args => some (name, args)
  | _ => none

/-- The provider and call of a deed that calls a model. -/
def modelCall? : Deed → Option (String × ModelCall)
  | callModel provider call => some (provider, call)
  | _ => none

end Deed

/-- The deeds of all executions in order, each with a generation. -/
structure Journal where
  entries : List (Nat × Deed) := []

namespace Journal

/-- Adds deeds of one execution. -/
def note (j : Journal) (generation : Nat) (deeds : List Deed) : Journal :=
  ⟨j.entries ++ deeds.map fun d => (generation, d)⟩

/-- The deeds of one execution. -/
def deedsOf (j : Journal) (generation : Nat) : List Deed :=
  (j.entries.filter fun e => e.1 = generation).map (·.2)

/-- The published events. -/
def events (j : Journal) : List Event :=
  j.entries.filterMap fun e => e.2.event?

/-- The events that one execution published. -/
def eventsOf (j : Journal) (generation : Nat) : List Event :=
  (j.deedsOf generation).filterMap Deed.event?

/-- The runs of tools. -/
def toolCalls (j : Journal) : CallLog Json :=
  ⟨j.entries.filterMap fun e => e.2.toolCall?⟩

/-- The calls of models. -/
def modelCalls (j : Journal) : CallLog ModelCall :=
  ⟨j.entries.filterMap fun e => e.2.modelCall?⟩

variable {j : Journal} {g g' : Nat} {deeds : List Deed}

@[simp] theorem deedsOf_note_self : (j.note g deeds).deedsOf g = j.deedsOf g ++ deeds := by
  simp [deedsOf, note, List.filter_append, List.filter_map, Function.comp_def]

theorem mem_deedsOf {d : Deed} : d ∈ j.deedsOf g ↔ (g, d) ∈ j.entries := by
  simp [deedsOf]

theorem deedsOf_note_of_ne (h : g' ≠ g) : (j.note g deeds).deedsOf g' = j.deedsOf g' := by
  simp [deedsOf, note, List.filter_append, List.filter_map, Function.comp_def, h.symm]

@[simp] theorem eventsOf_note_self :
    (j.note g deeds).eventsOf g = j.eventsOf g ++ deeds.filterMap Deed.event? := by
  simp [eventsOf]

end Journal

end Switchboard
