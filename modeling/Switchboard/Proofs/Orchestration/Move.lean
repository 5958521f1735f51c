import Mathlib.Logic.Relation
import Switchboard.Orchestration.Execution
import Switchboard.Proofs.Model.Call

/-!
# Moves of an execution

An execution that is polled makes moves until it has to wait. A `Move` says all that one of
them does: to how far the execution has come, to the board, and under which condition. A poll is
a series of moves (`poll_moves`), so what every move keeps is kept by a poll (`poll_induction`).
-/

namespace Switchboard

namespace Ticket

/-- One move of an execution: how far it has come and the board, before and after. -/
inductive Move (s : Setup) (t : Ticket) : Phase × Board → Phase × Board → Prop where
  /-- A model is chosen, the memory is asked and the first tools are run. -/
  | select {due : Nat} {b : Board} {model : ModelDescriptor} (hdue : due ≤ b.now)
      (hmodel : s.selectModel t.request = .ok model) :
      Move s t (.selecting due, b)
        (.gathering model (b.now + b.memory.readDelay) none (t.dispatch s b),
          { b with currentModel := some model.name }.note t.generation
            (toolDeeds (t.dispatch s b) (t.dispatch s b).started))
  /-- There is no model to choose. -/
  | unselected {due : Nat} {b : Board} {f : RequestFailure} (hdue : due ≤ b.now)
      (hf : s.selectModel t.request = .error f) :
      Move s t (.selecting due, b) (t.fail b {} f)
  /-- The memory is read if it is time to, and the next tools are run. -/
  | gather {model : ModelDescriptor} {readDue : Nat} {known : Option Recollection}
      {tools : Dispatch} {b : Board} :
      Move s t (.gathering model readDue known tools, b)
        (.gathering model readDue (t.recollect s b readDue known) (tools.poll b.files b.now),
          b.note t.generation (toolDeeds tools
            ((tools.poll b.files b.now).started.drop tools.started.length)))
  /-- The call is not handed to a provider. -/
  | uncalled {model : ModelDescriptor} {readDue : Nat} {known : Recollection} {tools : Dispatch}
      {b : Board} {f : RequestFailure} (hdone : tools.isDone = true)
      (hf : s.models.beginCall model (s.call t.request model known) b.now (s.callLimit t.request)
        t.cancelled = .error f) :
      Move s t (.gathering model readDue (some known) tools, b)
        (t.fail b ⟨some model, tools.records⟩ f)
  /-- The call is handed to a provider. -/
  | call {model : ModelDescriptor} {readDue : Nat} {known : Recollection} {tools : Dispatch}
      {b : Board} {pending : PendingCall} (hdone : tools.isDone = true)
      (hpending : s.models.beginCall model (s.call t.request model known) b.now
        (s.callLimit t.request) t.cancelled = .ok pending) :
      Move s t (.gathering model readDue (some known) tools, b)
        (.calling ⟨some model, tools.records⟩ pending,
          b.note t.generation [.callModel pending.providerName (s.call t.request model known)])
  /-- The call has failed. -/
  | unanswered {account : Account} {pending : PendingCall} {b : Board} {f : RequestFailure}
      (hf : pending.poll b.now t.cancelled = some (.error f)) :
      Move s t (.calling account pending, b) (t.fail b account f)
  /-- The model has answered, and the exchange is to be written. -/
  | answer {account : Account} {pending : PendingCall} {b : Board} {output : ModelOutput}
      (houtput : pending.poll b.now t.cancelled = some (.ok output)) :
      Move s t (.calling account pending, b)
        (.saving account (account.answer output)
          (.start b.now (b.memory.writeDelay (t.exchange (account.answer output)))
            s.config.persistTimeout), b)
  /-- The exchange is written. -/
  | saved {account : Account} {answer : Answer} {write : Timed} {b : Board}
      (hwrite : write.progress b.now = .finished) :
      Move s t (.saving account answer write, b) (t.settle (t.save s b answer) account answer)
  /-- Writing the exchange is given up. -/
  | unsaved {account : Account} {answer : Answer} {write : Timed} {b : Board}
      (hwrite : write.progress b.now = .expired) :
      Move s t (.saving account answer write, b) (t.settle b account answer)

variable {s : Setup} {t : Ticket} {b : Board}

/-- Moves one after the other. -/
abbrev Moves (s : Setup) (t : Ticket) : Phase × Board → Phase × Board → Prop :=
  Relation.ReflTransGen (Move s t)

theorem pollSaving_moves (account : Account) (answer : Answer) (write : Timed) :
    Moves s t (.saving account answer write, b) (t.pollSaving s b account answer write) := by
  unfold pollSaving
  split
  case h_1 h => exact .single (.saved h)
  case h_2 h => exact .single (.unsaved h)
  case h_3 => exact .refl

theorem pollCalling_moves (account : Account) (pending : PendingCall) :
    Moves s t (.calling account pending, b) (t.pollCalling s b account pending) := by
  unfold pollCalling
  split
  case h_1 output h =>
    have hc := PendingCall.cancelled_eq_false_of_poll h
    rw [beginSaving, if_neg (by simp [hc])]
    exact .head (.answer h) (pollSaving_moves ..)
  case h_2 f h => exact .single (.unanswered h)
  case h_3 => exact .refl

/-- Calling the model once the tools are done is moving. -/
theorem beginCalling_moves (model : ModelDescriptor) (readDue : Nat) (known : Recollection)
    {tools : Dispatch} (hdone : tools.isDone = true) :
    Moves s t (.gathering model readDue (some known) tools, b)
      (t.beginCalling s b model known tools.records) := by
  unfold beginCalling
  dsimp only
  split
  case h_1 f h => exact .single (.uncalled hdone h)
  case h_2 pending h => exact .head (.call hdone h) (pollCalling_moves ..)

/-- Gathering is moving, from the tools to the call. -/
theorem pollGathering_moves (model : ModelDescriptor) (readDue : Nat)
    (known : Option Recollection) (tools : Dispatch) :
    Moves s t (.gathering model readDue known tools, b)
      (t.pollGathering s b model readDue known tools) := by
  refine .head .gather ?_
  unfold pollGathering
  dsimp only
  split
  case h_1 known' hknown hdone =>
    rw [hknown]
    exact beginCalling_moves model readDue known' hdone
  case h_2 => exact .refl

theorem pollSelecting_moves (due : Nat) :
    Moves s t (.selecting due, b) (t.pollSelecting s b due) := by
  unfold pollSelecting
  split
  case isTrue hdue =>
    split
    case h_1 model h => exact .head (.select hdue h) (pollGathering_moves ..)
    case h_2 f h => exact .single (.unselected hdue h)
  case isFalse => exact .refl

/-- A poll is a series of moves. -/
theorem poll_moves (phase : Phase) : Moves s t (phase, b) (t.poll s b phase) := by
  cases phase with
  | selecting due => exact pollSelecting_moves due
  | gathering model readDue known tools => exact pollGathering_moves model readDue known tools
  | calling account pending => exact pollCalling_moves account pending
  | saving account answer write => exact pollSaving_moves account answer write
  | ended r => exact .refl
  | dropped => exact .refl

variable {P : Phase × Board → Prop}

/-- What every move keeps is kept by a poll. -/
theorem poll_induction (hP : ∀ x y, Move s t x y → P x → P y) {phase : Phase}
    (h : P (phase, b)) : P (t.poll s b phase) := by
  have hmoves : Moves s t (phase, b) (t.poll s b phase) := poll_moves phase
  generalize t.poll s b phase = y at hmoves ⊢
  induction hmoves with
  | refl => exact h
  | tail _ hmove ih => exact hP _ _ hmove ih

end Ticket

end Switchboard
