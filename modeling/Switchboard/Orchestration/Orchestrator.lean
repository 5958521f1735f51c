import Switchboard.Events.Channel
import Switchboard.Orchestration.Execution

/-!
# The orchestrator

The orchestrator admits requests and holds their executions. It is driven by actions: requests
are submitted and cancelled, executions are dropped and polled, and time passes. Every
interleaving of executions is a list of actions.
-/

namespace Switchboard

/-- The executions of requests in the order of their start, and what they share. -/
structure Orchestrator where
  setup : Setup
  board : Board
  executions : List Execution := []

namespace Orchestrator

/-- An orchestrator without executions. -/
def new (setup : Setup) (memory : Memory) (files : FileSystem) : Orchestrator :=
  { setup, board := { memory, files } }

/-- An orchestrator without executions, if there can be a channel for its events. -/
def new? (setup : Setup) (memory : Memory) (files : FileSystem) : Option Orchestrator :=
  let channel : Option (Channel Event) := Channel.ofCapacity? setup.config.eventCapacity
  channel.map fun _ => new setup memory files

/-- The current instant. -/
def now (o : Orchestrator) : Nat :=
  o.board.now

/-- The channel on which events are published. -/
def channel (o : Orchestrator) : Channel Event :=
  ⟨Channel.slotsFor o.setup.config.eventCapacity, o.board.journal.events⟩

/-- The execution of a generation. -/
def execution? (o : Orchestrator) (generation : Nat) : Option Execution :=
  o.executions.find? fun e => e.generation = generation

/-- Whether an execution has come to an end. -/
def isOver (o : Orchestrator) (generation : Nat) : Bool :=
  (o.execution? generation).all (·.phase.isOver)

/-- The response of an execution that ended. -/
def response? (o : Orchestrator) (generation : Nat) : Option Response :=
  (o.execution? generation).bind (·.phase.response?)

/-- Puts an execution in the place of the one of its generation. -/
def replace (l : List Execution) (e : Execution) : List Execution :=
  l.map fun x => if x.generation = e.generation then e else x

/-- Lets one execution do something. -/
def letExecution (o : Orchestrator) (generation : Nat)
    (f : Execution → Board → Execution × Board) : Orchestrator :=
  match o.execution? generation with
  | some e =>
    let r := f e o.board
    { o with board := r.2, executions := replace o.executions r.1 }
  | none => o

/-! ## Actions -/

/-- Begins the execution of a request, unless its identifier is in flight; the generation of
the execution. -/
def submit (o : Orchestrator) (r : Request) : Except RequestFailure Nat × Orchestrator :=
  match o.board.inFlight.register r.id with
  | .error f => (.error f, o)
  | .ok (generation, inFlight) =>
    let begun := Execution.start o.setup ⟨generation, r, o.now, false⟩ { o.board with inFlight }
    (.ok generation, { o with board := begun.2, executions := o.executions ++ [begun.1] })

/-- Tells an execution that it is cancelled. -/
def notify (generation : Nat) (e : Execution) : Execution :=
  if e.generation = generation then { e with cancelled := true } else e

/-- Cancels the execution of an identifier that is in flight; its generation. -/
def cancel (o : Orchestrator) (id : RequestId) : Option Nat × Orchestrator :=
  match o.board.inFlight.generation? id with
  | some generation =>
    (some generation, { o with
      board := { o.board with inFlight := o.board.inFlight.remove id }
      executions := o.executions.map (notify generation) })
  | none => (none, o)

/-- Gives up an execution. -/
def drop (o : Orchestrator) (generation : Nat) : Orchestrator :=
  o.letExecution generation Execution.drop

/-- Lets an execution go on until it has to wait. -/
def poll (o : Orchestrator) (generation : Nat) : Orchestrator :=
  o.letExecution generation (Execution.poll o.setup)

/-- Lets time pass. -/
def pass (o : Orchestrator) (millis : Nat) : Orchestrator :=
  { o with board := { o.board with now := o.now + millis } }

/-- A step from outside. -/
inductive Action where
  | submit (r : Request)
  | cancel (id : RequestId)
  | drop (generation : Nat)
  | poll (generation : Nat)
  | pass (millis : Nat)

/-- What is said to a step. -/
inductive Reply where
  | admitted (generation : Nat)
  | rejected (f : RequestFailure)
  /-- A cancellation, with the generation that was cancelled. -/
  | cancelled (generation : Option Nat)
  | done

/-- Carries out a step. -/
def perform (o : Orchestrator) : Action → Reply × Orchestrator
  | .submit r =>
    match o.submit r with
    | (.ok generation, o') => (.admitted generation, o')
    | (.error f, o') => (.rejected f, o')
  | .cancel id => (.cancelled (o.cancel id).1, (o.cancel id).2)
  | .drop generation => (.done, o.drop generation)
  | .poll generation => (.done, o.poll generation)
  | .pass millis => (.done, o.pass millis)

/-- Carries out steps one after the other; what is said to each. -/
def run (o : Orchestrator) : List Action → List Reply × Orchestrator
  | [] => ([], o)
  | a :: rest =>
    let first := o.perform a
    let others := first.2.run rest
    (first.1 :: others.1, others.2)

end Orchestrator

end Switchboard
