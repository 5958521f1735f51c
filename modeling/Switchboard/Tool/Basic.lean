import Switchboard.Capability
import Switchboard.Failure
import Switchboard.FileSystem.Basic
import Switchboard.Timer

/-!
# Tools

A tool is described by what it is good for and what arguments it takes. It is run in a context
that says for which request and in which directory. A run takes some time and ends in a value,
in a failure or in a panic; it is given up at the time limit of its context.
-/

namespace Switchboard

/-- The description of a tool. -/
structure ToolDescriptor where
  name : String
  description : String
  /-- What arguments the tool takes. -/
  parameters : Json := .obj [("type", .str "object")]
  capabilities : CapabilitySet

namespace ToolDescriptor

/-- The description as a value. -/
def toJson (d : ToolDescriptor) : Json :=
  .obj [("name", .str d.name), ("description", .str d.description),
    ("parameter_spec", d.parameters), ("capabilities", d.capabilities.toJson)]

/-- Reads a description. -/
def read : Json.Reader ToolDescriptor :=
  Json.readRecord (ToolDescriptor.mk <$> Json.need "name" Json.readString
    <*> Json.need "description" Json.readString
    <*> Json.orElse "parameter_spec" .null Json.readJson
    <*> Json.need "capabilities" CapabilitySet.read)

end ToolDescriptor

/-- For which request and where a tool is run. -/
structure ToolContext where
  requestId : RequestId
  workspaceRoot : Option String := none
  workingDirectory : String
  timeoutMillis : Nat := 30000

/-- The directory a tool works in. -/
def ToolContext.base (c : ToolContext) : String :=
  c.workspaceRoot.getD c.workingDirectory

/-- How a run ends. -/
inductive ToolReaction where
  | value (j : Json)
  | failure (f : ToolFailure)
  | panic

/-- A tool. -/
structure Tool where
  descriptor : ToolDescriptor
  available : Bool := true
  /-- How long a run takes. -/
  delay : Json → Nat := fun _ => 0
  run : FileSystem → ToolContext → Json → ToolReaction

namespace Tool

/-- The name of a tool. -/
def name (t : Tool) : String :=
  t.descriptor.name

end Tool

/-- The end of a run as the caller of a tool sees it. -/
def ToolReaction.outcome (tool : String) : ToolReaction → Except ToolFailure Json
  | value j => .ok j
  | failure f => .error f
  | panic => .error (.panicked tool)

/-- A tool that is being run. -/
structure PendingTool where
  toolName : String
  timed : Timed
  limit : Nat
  outcome : Except ToolFailure Json

/-- Begins a run. -/
def Tool.begin (t : Tool) (fs : FileSystem) (ctx : ToolContext) (args : Json) (now : Nat) :
    PendingTool where
  toolName := t.name
  timed := .start now (t.delay args) ctx.timeoutMillis
  limit := ctx.timeoutMillis
  outcome := (t.run fs ctx args).outcome t.name

/-- The end of a run at an instant, if it has come. -/
def PendingTool.poll (p : PendingTool) (now : Nat) : Option (Except ToolFailure Json) :=
  match p.timed.progress now with
  | .finished => some p.outcome
  | .expired => some (.error (.timeout p.toolName p.limit))
  | .waiting => none

/-- A run has not ended until it wakes. -/
theorem PendingTool.poll_eq_none_iff {p : PendingTool} {now : Nat} :
    p.poll now = none ↔ now < p.timed.wake := by
  rw [← Timed.progress_eq_waiting_iff]
  unfold poll
  split <;> simp_all

end Switchboard
