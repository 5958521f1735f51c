import Switchboard.Events.Audience
import Switchboard.Orchestration.Orchestrator

/-!
# The schedule

Time moves from one instant at which some execution has something to do to the next. At an
instant all executions that are due are polled in the order of their start. So what happens is
determined by what is asked and when.
-/

namespace Switchboard.Orchestrator

/-- The next instant at which an execution has something to do. -/
def nextWake (o : Orchestrator) : Option Nat :=
  (o.executions.filterMap (·.phase.wake)).min?

/-- The executions that have something to do at the current instant. -/
def due (o : Orchestrator) : List Nat :=
  (o.executions.filter fun e => e.phase.wake.any (· ≤ o.now)).map (·.generation)

/-- Moves to an instant and polls what is due. -/
def reach (o : Orchestrator) (instant : Nat) : Orchestrator :=
  let o := o.pass (instant - o.now)
  o.due.foldl poll o

/-- A bound on the number of instants to come. -/
def waits (o : Orchestrator) : Nat :=
  (o.executions.map fun e => e.phase.waits (o.setup.toolsFor e.request).length).foldr (· + ·) 0

/-- Moves from instant to instant until `stop` holds or the next instant is beyond `limit`, at
most `fuel` times. -/
def driveFor (stop : Orchestrator → Bool) (limit : Option Nat) :
    (fuel : Nat) → Orchestrator → Orchestrator
  | 0, o => o
  | fuel + 1, o =>
    if stop o then o
    else match o.nextWake with
      | some instant =>
        if limit.all (instant ≤ ·) then driveFor stop limit fuel (o.reach instant) else o
      | none => o

/-- Moves from instant to instant until `stop` holds or the next instant is beyond `limit`. -/
def drive (o : Orchestrator) (stop : Orchestrator → Bool) (limit : Option Nat) : Orchestrator :=
  driveFor stop limit (o.waits + 1) o

/-! ## Letting time pass -/

/-- Lets time pass, with all that happens up to and at its end. -/
def advance (o : Orchestrator) (millis : Nat) : Orchestrator :=
  let target := o.now + millis
  let o := o.drive (fun _ => false) (some target)
  o.pass (target - o.now)

/-- Waits until executions have come to an end. -/
def await (o : Orchestrator) (generations : List Nat) : Orchestrator :=
  o.drive (fun o => generations.all o.isOver) none

/-- Submits requests one after the other. -/
def submitAll (o : Orchestrator) (requests : List Request) :
    List (Except RequestFailure Nat) × Orchestrator :=
  requests.foldl (fun acc r =>
    let next := acc.2.submit r
    (acc.1 ++ [next.1], next.2)) ([], o)

/-- Executes a request; the response, and none if it was dropped. -/
def execute (o : Orchestrator) (r : Request) :
    Except RequestFailure (Option Response) × Orchestrator :=
  let submitted := o.submit r
  let o := submitted.2.await submitted.1.toOption.toList
  (submitted.1.map o.response?, o)

/-- Executes requests together. -/
def executeAll (o : Orchestrator) (requests : List Request) :
    List (Except RequestFailure (Option Response)) × Orchestrator :=
  let submitted := o.submitAll requests
  let o := submitted.2.await (submitted.1.filterMap Except.toOption)
  (submitted.1.map fun t => t.map o.response?, o)

/-- Cancels the execution of an identifier, which goes on until it has to wait; whether there
was one. -/
def interrupt (o : Orchestrator) (id : RequestId) : Bool × Orchestrator :=
  match o.cancel id with
  | (some generation, o) => (true, o.poll generation)
  | (none, o) => (false, o)

/-- Whether a subscriber has gone on from one audience to another. -/
def hasMoved (i : Nat) (before after : Audience Event) : Bool :=
  (before.member? i).map (·.next) != (after.member? i).map (·.next)

/-- Waits for the next event that satisfies `p`, for each event no longer than `timeout` and
for the first until `deadline`, moving on at most `fuel` times. -/
def nextEventFor (p : Event → Bool) (i timeout : Nat) :
    (fuel deadline : Nat) → Orchestrator → Audience Event →
      Option (Option Event × Orchestrator × Audience Event)
  | 0, _, o, a => some (none, o, a)
  | fuel + 1, deadline, o, a =>
    match a.next o.channel i p with
    | none => none
    | some (some e, a) => some (some e, o, a)
    | some (none, a') =>
      let deadline := if hasMoved i a a' then o.now + timeout else deadline
      match o.nextWake with
      | some instant =>
        if instant ≤ deadline then nextEventFor p i timeout fuel deadline (o.reach instant) a'
        else some (none, o.pass (deadline - o.now), a')
      | none => some (none, o.pass (deadline - o.now), a')

/-- Waits for the next event for a subscriber that satisfies `p`, for each event no longer than
`timeout`. -/
def nextEvent (o : Orchestrator) (a : Audience Event) (i timeout : Nat) (p : Event → Bool) :
    Option (Option Event × Orchestrator × Audience Event) :=
  nextEventFor p i timeout (o.waits + 1) (o.now + timeout) o a

end Switchboard.Orchestrator
