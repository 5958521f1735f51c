import Switchboard.Tool.Basic
import Switchboard.Tool.Eligibility
import Switchboard.Response

/-!
# The registry of tools

Tools are registered under distinct names, and may be restricted to enabled ones. For a request
every tool that is enabled, eligible for the kind of the request and available is run, one
after the other in the order of registration. Each run leaves a record, and no failure keeps
the next tool from being run.
-/

namespace Switchboard

/-- The registered tools in order, and which of them may be run for what. -/
structure ToolRegistry where
  tools : List Tool := []
  /-- The names of the enabled tools; all if none are given. -/
  enabled : Option (List String) := none
  table : EligibilityTable := .default

namespace ToolRegistry

/-- The tool of a name. -/
def tool? (r : ToolRegistry) (name : String) : Option Tool :=
  r.tools.find? fun t => t.name = name

/-- Adds a tool whose name is free. -/
def register (r : ToolRegistry) (t : Tool) : Except ToolFailure ToolRegistry :=
  match r.tool? t.name with
  | some _ => .error (.duplicate t.name)
  | none => .ok { r with tools := r.tools ++ [t] }

/-- The descriptions of the registered tools. -/
def descriptors (r : ToolRegistry) : List ToolDescriptor :=
  r.tools.map (·.descriptor)

/-- Restricts the registry to enabled tools. -/
def withEnabled (r : ToolRegistry) (names : List String) : ToolRegistry :=
  { r with enabled := some names }

/-- Whether a tool of that name is enabled. -/
def isEnabled (r : ToolRegistry) (name : String) : Bool :=
  match r.enabled with
  | some names => names.contains name
  | none => true

/-- Whether a tool is run for requests of a kind. -/
def isDispatched (r : ToolRegistry) (kind : RequestKind) (t : Tool) : Bool :=
  r.isEnabled t.name && r.table.isEligible kind t.descriptor.capabilities && t.available

/-- The tools that are run for requests of a kind. -/
def eligible (r : ToolRegistry) (kind : RequestKind) : List Tool :=
  r.tools.filter (r.isDispatched kind)

end ToolRegistry

/-- How a run that begins at instant 0 went, and how long it took. -/
def Tool.invoke (t : Tool) (fs : FileSystem) (ctx : ToolContext) (args : Json) :
    Except ToolFailure Json × Nat :=
  let p := t.begin fs ctx args 0
  ((p.poll p.timed.wake).getD (.error (.timeout t.name p.limit)), p.timed.wake)

/-- Runs a tool of the registry. -/
def ToolRegistry.invoke (r : ToolRegistry) (fs : FileSystem) (ctx : ToolContext) (name : String)
    (args : Json) : Except ToolFailure Json × Nat :=
  match r.tool? name with
  | some t => t.invoke fs ctx args
  | none => (.error (.notFound name), 0)

/-- The record of a run. -/
def ToolRecord.ofOutcome (tool : String) (outcome : Except ToolFailure Json) (millis : Nat) :
    ToolRecord :=
  match outcome with
  | .ok j => .success tool j millis
  | .error f => .failure tool f.message millis

/-! ## Running tools in a row -/

/-- Tools that are run in a row for one request. -/
structure Dispatch where
  context : ToolContext
  args : Json
  /-- When the current run began, and the run. -/
  running : Option (Nat × PendingTool) := none
  queue : List Tool
  records : List ToolRecord := []

namespace Dispatch

/-- Begins one run after the other until one has to wait. -/
def startNext (d : Dispatch) (fs : FileSystem) (now : Nat) (records : List ToolRecord) :
    List Tool → Dispatch
  | [] => { d with running := none, queue := [], records }
  | t :: rest =>
    let p := t.begin fs d.context d.args now
    match p.poll now with
    | some outcome => startNext d fs now (records ++ [.ofOutcome t.name outcome 0]) rest
    | none => { d with running := some (now, p), queue := rest, records }

/-- Begins to run tools. -/
def start (fs : FileSystem) (context : ToolContext) (args : Json) (tools : List Tool)
    (now : Nat) : Dispatch :=
  startNext { context, args, queue := tools } fs now [] tools

/-- Goes on at an instant. -/
def poll (d : Dispatch) (fs : FileSystem) (now : Nat) : Dispatch :=
  match d.running with
  | none => d
  | some (began, p) =>
    match p.poll now with
    | none => d
    | some outcome =>
      startNext d fs now (d.records ++ [.ofOutcome p.toolName outcome (now - began)]) d.queue

/-- Whether all tools have been run. -/
def isDone (d : Dispatch) : Bool :=
  d.running.isNone

/-- The names of the tools whose run has begun. -/
def started (d : Dispatch) : List String :=
  d.records.map (·.toolName) ++ (d.running.map fun r => r.2.toolName).toList

/-- The instant at which there is something to do. -/
def wake (d : Dispatch) : Option Nat :=
  d.running.map fun r => r.2.timed.wake

/-- A bound on the number of instants at which there still is something to do. -/
def waits (d : Dispatch) : Nat :=
  if d.isDone then 0 else d.queue.length + 1

/-- Runs to the end alone, at most `fuel` waits long; the end and its instant. -/
def finish (fs : FileSystem) : (fuel : Nat) → (now : Nat) → Dispatch → Dispatch × Nat
  | 0, now, d => (d, now)
  | fuel + 1, now, d =>
    match d.wake with
    | none => (d, now)
    | some t => finish fs fuel t (d.poll fs t)

end Dispatch

/-- Runs every tool for a kind of request; the records in order. -/
def ToolRegistry.dispatchAll (r : ToolRegistry) (fs : FileSystem) (ctx : ToolContext)
    (kind : RequestKind) (args : Json) : List ToolRecord :=
  let tools := r.eligible kind
  (Dispatch.finish fs tools.length 0 (.start fs ctx args tools 0)).1.records

end Switchboard
