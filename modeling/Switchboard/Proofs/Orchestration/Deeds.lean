import Switchboard.Proofs.Orchestration.Silence

/-!
# What executions have done so far

Many facts about an execution speak of what it has done and how far it has come. Such a fact holds
of every execution in every run if it holds when an execution begins and is kept by its moves, when
it is cancelled and when it is given up (`Ticket.Kept`, `shows_after`).
-/

namespace Switchboard

namespace Ticket

variable {s : Setup} {t : Ticket} {b : Board} {P : Ticket → List Deed → Phase → Prop}

/-- What holds of an execution by what it has done and how far it has come when it begins, and is
kept by all that can happen to it. -/
structure Kept (s : Setup) (P : Ticket → List Deed → Phase → Prop) : Prop where
  begins : ∀ t due, P t [.publish (.requestStarted t.request)] (.selecting due)
  move : ∀ t x y, Move s t x y → x.2.inFlight.holds t.request.id t.generation = !t.cancelled →
    P t (x.2.journal.deedsOf t.generation) x.1 → P t (y.2.journal.deedsOf t.generation) y.1
  cancel : ∀ t deeds phase, P t deeds phase → P { t with cancelled := true } deeds phase
  drop : ∀ t deeds phase, P t deeds phase →
    P t (deeds ++ [.publish (.requestEnded t.request.id .cancelled)]) .dropped

namespace Kept

/-- A poll keeps what every move keeps. -/
theorem poll (h : Kept s P) {phase : Phase}
    (hholds : phase.isOver = false →
      b.inFlight.holds t.request.id t.generation = !t.cancelled)
    (hP : P t (b.journal.deedsOf t.generation) phase) :
    P t ((t.poll s b phase).2.journal.deedsOf t.generation) (t.poll s b phase).1 := by
  -- The entry is needed until the last move, which takes it out.
  let Q (x : Phase × Board) : Prop :=
    (x.1.isOver = false → x.2.inFlight.holds t.request.id t.generation = !t.cancelled) ∧
      P t (x.2.journal.deedsOf t.generation) x.1
  have hmove : ∀ x y, Move s t x y → Q x → Q y := by
    rintro x y hmove ⟨hholds, hP⟩
    have hholds := hholds hmove.isOver_eq_false
    refine ⟨fun hover => ?_, h.move t x y hmove hholds hP⟩
    rwa [hmove.inFlight_eq, hover]
  exact (poll_induction hmove ⟨hholds, hP⟩).2

theorem dropping (h : Kept s P) {e : Execution}
    (hP : P e.toTicket (b.journal.deedsOf e.generation) e.phase) :
    P e.toTicket ((e.drop b).2.journal.deedsOf e.generation) (e.drop b).1.phase := by
  cases hover : e.phase.isOver with
  | true => rwa [Execution.drop_of_isOver hover]
  | false =>
    rw [Execution.drop, if_neg (by simp [hover])]
    simpa using h.drop e.toTicket _ _ hP

end Kept

end Ticket

namespace Orchestrator

variable {o : Orchestrator} {P : Ticket → List Deed → Phase → Prop}
  {f : Execution → Board → Execution × Board}

/-- What holds of every execution by what it has done and how far it has come. -/
def Shows (o : Orchestrator) (P : Ticket → List Deed → Phase → Prop) : Prop :=
  ∀ e ∈ o.executions, P e.toTicket (o.board.journal.deedsOf e.generation) e.phase

namespace Consistent

/-- A turn keeps what holds of the deeds of all executions if it keeps what holds of its own. -/
theorem shows_letExecution (h : o.Consistent) (hf : o.Turns f) (hP : o.Shows P)
    (hself : ∀ e ∈ o.executions,
      P e.toTicket ((f e o.board).2.journal.deedsOf e.generation) (f e o.board).1.phase)
    (g : Nat) : (o.letExecution g f).Shows P := by
  refine h.forall_letExecution hf (fun e he hne => ?_) fun e he hg => ?_
  · rw [h.deedsOf_letExecution_of_ne hf hne]
    exact hP e he
  · subst hg
    rw [h.letExecution_eq he, hf.toTicket_eq e o.board]
    exact hself e he

/-- A poll keeps what holds of the deeds of all executions. -/
theorem shows_poll (h : o.Consistent) (hkept : Ticket.Kept o.setup P) (hP : o.Shows P)
    (g : Nat) : (o.poll g).Shows P := by
  refine h.shows_letExecution h.turns_poll hP (fun e he => ?_) g
  exact hkept.poll (fun hover => by simp [h.holds_eq he, Execution.isInFlight, hover]) (hP e he)

theorem shows_enrol (h : o.Consistent) (hkept : Ticket.Kept o.setup P) (hP : o.Shows P)
    {r : Request} {g : Nat} {taken : InFlight}
    (hr : o.board.inFlight.register r.id = .ok (g, taken)) : (o.enrol r g taken).Shows P := by
  have hlt := fun e he => h.lt_of_register (e := e) hr he
  intro e he
  rcases mem_executions_enrol.mp he with he | rfl
  · rw [journal_enrol, Journal.deedsOf_note_of_ne (Nat.ne_of_lt (hlt e he))]
    exact hP e he
  · have hnew : g ∉ o.executions.map (·.generation) := by
      simpa using fun x hx => Nat.ne_of_lt (hlt x hx)
    have hdeeds : (o.enrol r g taken).board.journal.deedsOf (o.entrant r g).generation =
        [.publish (.requestStarted r)] := by
      simp [entrant, h.unnoted g hnew]
    rw [hdeeds]
    exact hkept.begins (o.entrant r g).toTicket _

/-- Every step keeps what executions show. -/
theorem shows_perform (h : o.Consistent) (hkept : Ticket.Kept o.setup P) (hP : o.Shows P)
    (a : Action) : (o.perform a).2.Shows P := by
  cases a with
  | submit r =>
    cases hr : o.board.inFlight.register r.id with
    | error f => rwa [perform_submit_of_error hr]
    | ok taken =>
      obtain ⟨g, taken⟩ := taken
      rw [h.perform_submit_of_ok hr]
      exact (h.enrol hr).shows_poll hkept (h.shows_enrol hkept hP hr) g
  | cancel id =>
    rw [perform_cancel]
    unfold Shows
    rw [journal_cancel]
    exact forall_cancel id hP fun e he => hkept.cancel e.toTicket _ _ (hP e he)
  | drop g => exact h.shows_letExecution h.turns_drop hP (fun e he => hkept.dropping (hP e he)) g
  | poll g => exact h.shows_poll hkept hP g
  | pass millis => exact hP

end Consistent

/-- What is kept by all that can happen to an execution holds in every run. -/
theorem shows_after {setup : Setup} (hkept : Ticket.Kept setup P) (memory : Memory)
    (files : FileSystem) (as : List Action) : ((new setup memory files).after as).Shows P := by
  induction as using List.reverseRecOn with
  | nil => exact fun e he => by simp [new] at he
  | append_singleton as a ih =>
    rw [after_concat]
    exact consistent_after.shows_perform (by rwa [setup_after]) ih a

end Orchestrator

end Switchboard
