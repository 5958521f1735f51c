import Switchboard.Proofs.Orchestration.Failure
import Switchboard.Proofs.Orchestration.InFlight
import Switchboard.Proofs.Orchestration.Move

/-!
# Turns of an execution

`Ticket.Traced` says what an execution has published by the time it has come to a phase, and what
is settled about its request. Every move keeps it (`Move.traced`), and every move leaves the
requests in flight alone unless it is the last, which takes out the entry of the execution and
no other (`Move.inFlight_eq`).

A `Turn` is all that letting an execution do something amounts to for the others: polling and
dropping an execution that is not over are turns (`turn_poll`, `turn_drop`).
-/

namespace Switchboard

section Board

variable {t : Ticket} {b : Board} {g : Nat} {deeds : List Deed} {state : RequestState}

@[simp] theorem Board.journal_note : (b.note g deeds).journal = b.journal.note g deeds :=
  rfl

namespace Ticket

@[simp] theorem journal_leave :
    (t.leave b deeds state).journal = b.journal.note t.generation
      (deeds ++ [.publish (.requestEnded t.request.id state)]) :=
  rfl

variable {s : Setup} {answer : Answer}

@[simp] theorem inFlight_save : (t.save s b answer).inFlight = b.inFlight :=
  rfl

@[simp] theorem journal_save : (t.save s b answer).journal = b.journal :=
  rfl

/-- Running tools publishes nothing. -/
@[simp] theorem filterMap_event?_toolDeeds (tools : Dispatch) (names : List String) :
    (toolDeeds tools names).filterMap Deed.event? = [] := by
  simp [toolDeeds]

end Ticket

end Board

namespace Ticket

variable {s : Setup} {t : Ticket} {x y : Phase × Board}

/-- Why a request fails: because it is unserved, or else because it is cancelled if and only if
it is. -/
def FailsWith (s : Setup) (t : Ticket) (f : RequestFailure) : Prop :=
  match s.unserved? t.request with
  | some reason => f = reason
  | none => f = .cancelled ↔ t.cancelled = true

/-- How an execution ends with a response, and the events it has published then. -/
inductive Ends (s : Setup) (t : Ticket) : Response → List Event → Prop where
  | completed (account : Account) (answer : Answer) (millis : Nat)
      (hserved : s.unserved? t.request = none) (hcancelled : t.cancelled = false) :
      Ends s t (account.success t.request.id answer millis)
        [.requestStarted t.request,
          .responseReceived (account.success t.request.id answer millis),
          .requestEnded t.request.id .completed]
  | failed (account : Account) (f : RequestFailure) (millis : Nat) (hf : t.FailsWith s f) :
      Ends s t (account.failure t.request.id f.message millis)
        [.requestStarted t.request, .requestEnded t.request.id (stateAfter f)]

/-- The events that an execution has published when it has come to a phase, and what is settled
about its request by then. -/
def Traced (s : Setup) (t : Ticket) (events : List Event) : Phase → Prop
  | .selecting _ => events = [.requestStarted t.request]
  | .gathering model _ _ _ =>
    events = [.requestStarted t.request] ∧ s.selectModel t.request = .ok model
  | .calling _ _ => events = [.requestStarted t.request] ∧ s.unserved? t.request = none
  | .saving _ _ _ => events = [.requestStarted t.request] ∧ s.unserved? t.request = none
  | .ended r => t.Ends s r events
  | .dropped => events = [.requestStarted t.request, .requestEnded t.request.id .cancelled]

/-- A request that is not served fails with what it is refused for. -/
theorem FailsWith.of_unserved {f : RequestFailure} (h : s.unserved? t.request = some f) :
    t.FailsWith s f := by
  simp [FailsWith, h]

/-- A request that is served fails as cancelled exactly if it is. -/
theorem FailsWith.of_served {f : RequestFailure} (h : s.unserved? t.request = none)
    (hf : f = .cancelled ↔ t.cancelled = true) : t.FailsWith s f := by
  simpa [FailsWith, h] using hf

/-- As long as an execution is not over, it has published that it started and nothing else. -/
theorem Traced.events_eq {events : List Event} {phase : Phase} (h : t.Traced s events phase)
    (hover : phase.isOver = false) : events = [.requestStarted t.request] := by
  cases phase with
  | selecting due => exact h
  | gathering model readDue known tools => exact h.1
  | calling account pending => exact h.1
  | saving account answer write => exact h.1
  | ended r => simp [Phase.isOver] at hover
  | dropped => simp [Phase.isOver] at hover

/-- Telling an execution that it is cancelled does not change its trace before it is over. -/
theorem Traced.cancel {events : List Event} {phase : Phase} (h : t.Traced s events phase)
    (hover : phase.isOver = false) :
    Traced s { t with cancelled := true } events phase := by
  cases phase with
  | ended r => simp [Phase.isOver] at hover
  | dropped => simp [Phase.isOver] at hover
  | _ => exact h

/-! ## What one move does -/

/-- An execution that fails has ended with that failure in its events. -/
theorem traced_fail {b : Board} {account : Account} {f : RequestFailure}
    (hb : b.journal.eventsOf t.generation = [.requestStarted t.request])
    (hf : t.FailsWith s f) :
    t.Traced s ((t.fail b account f).2.journal.eventsOf t.generation)
      (t.fail b account f).1 := by
  have hevents : (t.fail b account f).2.journal.eventsOf t.generation =
      [.requestStarted t.request, .requestEnded t.request.id (stateAfter f)] := by
    simp [fail, hb]
  rw [hevents]
  exact .failed account f _ hf

/-- An execution that settles has ended with its response in its events, or was cancelled. -/
theorem traced_settle {b : Board} {account : Account} {answer : Answer}
    (hb : b.journal.eventsOf t.generation = [.requestStarted t.request])
    (hserved : s.unserved? t.request = none)
    (hholds : b.inFlight.holds t.request.id t.generation = !t.cancelled) :
    t.Traced s ((t.settle b account answer).2.journal.eventsOf t.generation)
      (t.settle b account answer).1 := by
  unfold settle
  cases hc : t.cancelled with
  | true =>
    rw [if_neg (by simp [hholds, hc])]
    exact traced_fail hb (.of_served hserved (by simp [hc]))
  | false =>
    rw [if_pos (by simp [hholds, hc])]
    have hevents : (t.complete b account answer).2.journal.eventsOf t.generation =
        [.requestStarted t.request,
          .responseReceived (account.success t.request.id answer (t.elapsed b)),
          .requestEnded t.request.id .completed] := by
      simp [complete, hb]
    rw [hevents]
    exact .completed account answer _ hserved hc

/-- A move keeps the trace of an execution, provided that the execution is in flight exactly
if it is not cancelled. -/
theorem Move.traced (h : Move s t x y)
    (hholds : x.2.inFlight.holds t.request.id t.generation = !t.cancelled)
    (hx : t.Traced s (x.2.journal.eventsOf t.generation) x.1) :
    t.Traced s (y.2.journal.eventsOf t.generation) y.1 := by
  cases h with
  | select hdue hmodel => exact ⟨by simpa [Traced] using hx, hmodel⟩
  | unselected hdue hf =>
    exact traced_fail hx (.of_unserved (Setup.unserved?_of_selectModel_error hf))
  | gather => exact ⟨by simpa using hx.1, hx.2⟩
  | uncalled hdone hf =>
    refine traced_fail hx.1 ?_
    rcases ModelRegistry.beginCall_eq_error_iff.mp hf with ⟨hp, rfl⟩ | ⟨hp, hc, rfl⟩
    · exact .of_unserved (Setup.unserved?_of_provider?_eq_none hx.2 hp)
    · exact .of_served (Setup.unserved?_eq_none_of_isSome hx.2 hp) (by simp [hc])
  | call hdone hpending =>
    have hp := ModelRegistry.isSome_provider?_of_beginCall hpending
    exact ⟨by simpa [List.filterMap_cons] using hx.1, Setup.unserved?_eq_none_of_isSome hx.2 hp⟩
  | unanswered hf =>
    exact traced_fail hx.1 (.of_served hx.2 (PendingCall.eq_cancelled_iff_of_poll hf))
  | answer houtput => exact hx
  | saved hwrite => exact traced_settle (by simpa using hx.1) hx.2 (by simpa using hholds)
  | unsaved hwrite => exact traced_settle hx.1 hx.2 hholds

/-- An execution that moves is not over. -/
theorem Move.isOver_eq_false (h : Move s t x y) : x.1.isOver = false := by
  cases h <;> rfl

/-- The last move takes the execution out of flight; no other changes what is in flight. -/
theorem Move.inFlight_eq (h : Move s t x y) :
    y.2.inFlight =
      if y.1.isOver then x.2.inFlight.deregister t.request.id t.generation else x.2.inFlight := by
  have hsettle : ∀ {b : Board} {account answer}, (t.settle b account answer).2.inFlight =
      if (t.settle b account answer).1.isOver
      then b.inFlight.deregister t.request.id t.generation else b.inFlight := by
    intro b account answer
    unfold settle
    split <;> rfl
  cases h with
  | saved hwrite => exact hsettle
  | unsaved hwrite => exact hsettle
  | _ => rfl

/-- A move notes only what the execution itself does. -/
theorem Move.deedsOf_eq (h : Move s t x y) {g : Nat} (hg : g ≠ t.generation) :
    y.2.journal.deedsOf g = x.2.journal.deedsOf g := by
  have hsettle : ∀ {b : Board} {account answer},
      (t.settle b account answer).2.journal.deedsOf g = b.journal.deedsOf g := by
    intro b account answer
    unfold settle
    split <;> exact Journal.deedsOf_note_of_ne hg
  cases h with
  | answer houtput => rfl
  | saved hwrite => exact hsettle
  | unsaved hwrite => exact hsettle
  | _ => exact Journal.deedsOf_note_of_ne hg

/-! ## Turns -/

/-- What letting an execution do something amounts to. Its entry is taken out if it is over then,
it notes only what it does itself, and it keeps its trace. -/
structure Turn (s : Setup) (t : Ticket) (b : Board) (r : Phase × Board) : Prop where
  inFlight_eq : r.2.inFlight =
    if r.1.isOver then b.inFlight.deregister t.request.id t.generation else b.inFlight
  deedsOf_eq : ∀ g, g ≠ t.generation → r.2.journal.deedsOf g = b.journal.deedsOf g
  traced : t.Traced s (r.2.journal.eventsOf t.generation) r.1

variable {b : Board} {phase : Phase}

/-- A move after a turn makes one turn. -/
theorem Move.turn (h : Move s t x y)
    (hholds : b.inFlight.holds t.request.id t.generation = !t.cancelled) (hx : Turn s t b x) :
    Turn s t b y := by
  have hsame : x.2.inFlight = b.inFlight := by
    simpa [h.isOver_eq_false] using hx.inFlight_eq
  refine ⟨?_, fun g hg => ?_, h.traced (by rw [hsame, hholds]) hx.traced⟩
  · rw [h.inFlight_eq, hsame]
  · rw [h.deedsOf_eq hg, hx.deedsOf_eq g hg]

/-- A poll is a turn, if the execution is in flight exactly if it is not cancelled. -/
theorem turn_poll (hover : phase.isOver = false)
    (hholds : b.inFlight.holds t.request.id t.generation = !t.cancelled)
    (ht : t.Traced s (b.journal.eventsOf t.generation) phase) :
    Turn s t b (t.poll s b phase) := by
  have hstay : Turn s t b (phase, b) := ⟨by simp [hover], fun _ _ => rfl, ht⟩
  exact poll_induction (fun _ _ hmove hx => hmove.turn hholds hx) hstay

theorem poll_eq_of_isOver (hover : phase.isOver = true) : t.poll s b phase = (phase, b) := by
  cases phase with
  | ended r => rfl
  | dropped => rfl
  | _ => simp [Phase.isOver] at hover

namespace Turn

variable {r : Phase × Board}

theorem lastGeneration_eq (h : Turn s t b r) :
    r.2.inFlight.lastGeneration = b.inFlight.lastGeneration := by
  rw [h.inFlight_eq]
  split
  · exact InFlight.lastGeneration_deregister
  · rfl

theorem distinct (h : Turn s t b r) (hb : b.inFlight.Distinct) : r.2.inFlight.Distinct := by
  rw [h.inFlight_eq]
  split
  · exact hb.deregister
  · exact hb

/-- The entry of the execution is all that a turn can take out of flight. -/
theorem mem_entries_iff (h : Turn s t b r) (hb : b.inFlight.Distinct) {entry : RequestId × Nat} :
    entry ∈ r.2.inFlight.entries ↔ entry ∈ b.inFlight.entries ∧
      (r.1.isOver = true → entry ≠ (t.request.id, t.generation)) := by
  rw [h.inFlight_eq]
  cases hr : r.1.isOver with
  | true => simpa using hb.mem_deregister
  | false => simp

end Turn

end Ticket

namespace Execution

variable {s : Setup} {e : Execution} {b : Board}

/-- Whether an execution is in flight: it is neither cancelled nor over. -/
def isInFlight (e : Execution) : Bool :=
  !e.cancelled && !e.phase.isOver

@[simp] theorem toTicket_poll : (e.poll s b).1.toTicket = e.toTicket :=
  rfl

@[simp] theorem toTicket_drop : (e.drop b).1.toTicket = e.toTicket := by
  unfold drop
  split <;> rfl

@[simp] theorem poll_of_isOver (hover : e.phase.isOver = true) : e.poll s b = (e, b) := by
  simp [poll, Ticket.poll_eq_of_isOver hover]

@[simp] theorem drop_of_isOver (hover : e.phase.isOver = true) : e.drop b = (e, b) := by
  simp [drop, hover]

/-- To drop an execution is a turn. -/
theorem turn_drop (hover : e.phase.isOver = false)
    (ht : e.Traced s (b.journal.eventsOf e.generation) e.phase) :
    e.Turn s b ((e.drop b).1.phase, (e.drop b).2) := by
  have hstarted := ht.events_eq hover
  rw [drop, if_neg (by simp [hover])]
  refine ⟨rfl, fun g hg => Journal.deedsOf_note_of_ne hg, ?_⟩
  simp [Ticket.Traced, hstarted]

end Execution

end Switchboard
