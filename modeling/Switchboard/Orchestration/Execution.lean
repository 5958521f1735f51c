import Switchboard.Orchestration.Account
import Switchboard.Orchestration.InFlight
import Switchboard.Orchestration.Journal
import Switchboard.Orchestration.Setup

/-!
# Executions

An execution takes one request from its start to its end. It learns which models there are and
chooses one, reads the memory while it runs the tools, calls the model, and adds the exchange to
the memory. Between these it waits; whenever it is polled it goes on as far as it can, and a poll
that finds nothing to do changes nothing.

An execution that is cancelled learns of it when it calls the model or waits for it, when the
model has answered, and when the exchange has been written. Wherever an execution ends, it
leaves the requests in flight and publishes its end.
-/

namespace Switchboard

/-- What executions share. -/
structure Board where
  /-- The current instant. -/
  now : Nat := 0
  inFlight : InFlight := {}
  /-- The name of the model chosen last. -/
  currentModel : Option String := none
  memory : Memory
  files : FileSystem
  journal : Journal := {}

/-- How far an execution has come. -/
inductive Phase where
  /-- The models to choose from are known at the instant `due`. -/
  | selecting (due : Nat)
  /-- The memory is read, which is done at the instant `readDue`, while tools are run. -/
  | gathering (model : ModelDescriptor) (readDue : Nat) (known : Option Recollection)
      (tools : Dispatch)
  | calling (account : Account) (pending : PendingCall)
  | saving (account : Account) (answer : Answer) (write : Timed)
  | ended (response : Response)
  /-- Given up by its caller before it ended. -/
  | dropped

/-- A request that was admitted. -/
structure Ticket where
  generation : Nat
  request : Request
  startedAt : Nat
  cancelled : Bool := false

/-- The execution of a request. -/
structure Execution extends Ticket where
  phase : Phase

/-- Notes what an execution does. -/
def Board.note (b : Board) (generation : Nat) (deeds : List Deed) : Board :=
  { b with journal := b.journal.note generation deeds }

namespace Ticket

/-! ## The end -/

/-- How long the execution has taken. -/
def elapsed (t : Ticket) (b : Board) : Nat :=
  b.now - t.startedAt

/-- Leaves the requests in flight and publishes the end. -/
def leave (t : Ticket) (b : Board) (deeds : List Deed) (state : RequestState) : Board :=
  { b with inFlight := b.inFlight.deregister t.request.id t.generation }.note t.generation
    (deeds ++ [Deed.publish (.requestEnded t.request.id state)])

/-- The state in which a failure ends a request. -/
def stateAfter (f : RequestFailure) : RequestState :=
  if f.isCancellation then .cancelled else .failed

/-- Ends with a failure. -/
def fail (t : Ticket) (b : Board) (account : Account) (f : RequestFailure) : Phase × Board :=
  (.ended (account.failure t.request.id f.message (t.elapsed b)), t.leave b [] (stateAfter f))

/-- Ends with an answer. -/
def complete (t : Ticket) (b : Board) (account : Account) (answer : Answer) : Phase × Board :=
  let response := account.success t.request.id answer (t.elapsed b)
  (.ended response, t.leave b [.publish (.responseReceived response)] .completed)

/-- The change of the memory that adds the exchange. -/
def exchange (t : Ticket) (answer : Answer) : MemoryUpdate :=
  .append t.request.id t.request.content answer.content

/-- Adds the exchange to the memory. That it cannot be written is not reported. -/
def save (s : Setup) (t : Ticket) (b : Board) (answer : Answer) : Board :=
  let r := b.memory.update b.files (s.clock b.now) (t.exchange answer)
  { b with memory := r.2.1, files := r.2.2 }

/-- The request is answered if it is still in flight. -/
def settle (t : Ticket) (b : Board) (account : Account) (answer : Answer) : Phase × Board :=
  if b.inFlight.holds t.request.id t.generation then t.complete b account answer
  else t.fail b account .cancelled

/-- Goes on with saving. A write that takes too long is given up. -/
def pollSaving (s : Setup) (t : Ticket) (b : Board) (account : Account) (answer : Answer)
    (write : Timed) : Phase × Board :=
  match write.progress b.now with
  | .finished => t.settle (t.save s b answer) account answer
  | .expired => t.settle b account answer
  | .waiting => (.saving account answer write, b)

/-- Begins to save, unless the execution is cancelled. -/
def beginSaving (s : Setup) (t : Ticket) (b : Board) (account : Account)
    (output : ModelOutput) : Phase × Board :=
  if t.cancelled then t.fail b account .cancelled
  else
    let answer := account.answer output
    let delay := b.memory.writeDelay (t.exchange answer)
    t.pollSaving s b account answer (.start b.now delay s.config.persistTimeout)

/-- Goes on with the call of the model. -/
def pollCalling (s : Setup) (t : Ticket) (b : Board) (account : Account)
    (pending : PendingCall) : Phase × Board :=
  match pending.poll b.now t.cancelled with
  | some (.ok output) => t.beginSaving s b account output
  | some (.error f) => t.fail b account f
  | none => (.calling account pending, b)

/-- Calls the model. -/
def beginCalling (s : Setup) (t : Ticket) (b : Board) (model : ModelDescriptor)
    (known : Recollection) (records : List ToolRecord) : Phase × Board :=
  let account : Account := ⟨some model, records⟩
  let call := s.call t.request model known
  match s.models.beginCall model call b.now (s.callLimit t.request) t.cancelled with
  | .error f => t.fail b account f
  | .ok pending =>
    t.pollCalling s (b.note t.generation [.callModel pending.providerName call]) account pending

/-- The deeds of running tools one after the other. -/
def toolDeeds (tools : Dispatch) (names : List String) : List Deed :=
  names.map fun name => .runTool name tools.args

/-- Reads the memory if it is time to. -/
def recollect (s : Setup) (t : Ticket) (b : Board) (readDue : Nat)
    (known : Option Recollection) : Option Recollection :=
  known.or (if readDue ≤ b.now then some (s.recollect b.memory t.request) else none)

/-- Goes on with reading the memory and running tools. -/
def pollGathering (s : Setup) (t : Ticket) (b : Board) (model : ModelDescriptor)
    (readDue : Nat) (known : Option Recollection) (tools : Dispatch) : Phase × Board :=
  let known := t.recollect s b readDue known
  let tools' := tools.poll b.files b.now
  let b := b.note t.generation (toolDeeds tools (tools'.started.drop tools.started.length))
  match known, tools'.isDone with
  | some known, true => t.beginCalling s b model known tools'.records
  | known, _ => (.gathering model readDue known tools', b)

/-- Begins to run the tools. -/
def dispatch (s : Setup) (t : Ticket) (b : Board) : Dispatch :=
  .start b.files (s.toolContext t.request) (Setup.toolArguments t.request)
    (s.toolsFor t.request) b.now

/-- Begins to read the memory and to run tools. -/
def beginGathering (s : Setup) (t : Ticket) (b : Board) (model : ModelDescriptor) :
    Phase × Board :=
  let tools := t.dispatch s b
  let b := { b with currentModel := some model.name }.note t.generation
    (toolDeeds tools tools.started)
  t.pollGathering s b model (b.now + b.memory.readDelay) none tools

/-- Chooses a model if it is known which there are. -/
def pollSelecting (s : Setup) (t : Ticket) (b : Board) (due : Nat) : Phase × Board :=
  if due ≤ b.now then
    match s.selectModel t.request with
    | .ok model => t.beginGathering s b model
    | .error f => t.fail b {} f
  else (.selecting due, b)

/-! ## From start to end -/

/-- Begins the execution, and goes on until it has to wait. -/
def begin (s : Setup) (t : Ticket) (b : Board) : Phase × Board :=
  let b := b.note t.generation [.publish (.requestStarted t.request)]
  t.pollSelecting s b (b.now + s.models.listingDelay)

/-- Goes on from a phase until the execution has to wait. -/
def poll (s : Setup) (t : Ticket) (b : Board) : Phase → Phase × Board
  | .selecting due => t.pollSelecting s b due
  | .gathering model readDue known tools => t.pollGathering s b model readDue known tools
  | .calling account pending => t.pollCalling s b account pending
  | .saving account answer write => t.pollSaving s b account answer write
  | .ended r => (.ended r, b)
  | .dropped => (.dropped, b)

end Ticket

namespace Phase

/-- Whether the execution has come to an end. -/
def isOver : Phase → Bool
  | ended _ => true
  | dropped => true
  | _ => false

/-- The response of an execution that ended. -/
def response? : Phase → Option Response
  | ended r => some r
  | _ => none

/-- The instant at which there is something to do. -/
def wake : Phase → Option Nat
  | selecting due => some due
  | gathering _ readDue known tools =>
    let read := if known.isNone then [readDue] else []
    (read ++ tools.wake.toList).min?
  | calling _ pending => some pending.timed.wake
  | saving _ _ write => some write.wake
  | ended _ => none
  | dropped => none

/-- A bound on the number of instants at which the execution of a request with `toolCount` tools
still has to be polled. -/
def waits (toolCount : Nat) : Phase → Nat
  | selecting _ => toolCount + 4
  | gathering _ _ known tools => (if known.isNone then 1 else 0) + tools.waits + 2
  | calling .. => 2
  | saving .. => 1
  | ended _ => 0
  | dropped => 0

end Phase

namespace Execution

/-- Begins the execution of an admitted request. -/
def start (s : Setup) (t : Ticket) (b : Board) : Execution × Board :=
  let r := t.begin s b
  ({ t with phase := r.1 }, r.2)

/-- Goes on until it has to wait. -/
def poll (s : Setup) (e : Execution) (b : Board) : Execution × Board :=
  let r := e.toTicket.poll s b e.phase
  ({ e with phase := r.1 }, r.2)

/-- Ends where it stands, without a response. -/
def drop (e : Execution) (b : Board) : Execution × Board :=
  if e.phase.isOver then (e, b)
  else ({ e with phase := .dropped }, e.leave b [] .cancelled)

end Execution

end Switchboard
