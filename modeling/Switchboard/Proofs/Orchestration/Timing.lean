import Switchboard.Proofs.Orchestration.Punctual

/-!
# What executions keep on time

Many facts about when something happens to an execution hold only as long as no instant passes for
which it waits. Such a fact holds of every execution at every instant of a run on time if it holds
when an execution begins and is kept by its moves, by time that passes until it wakes, when it is
cancelled and when it is given up (`Ticket.KeptOnTime`, `lasts_after`).
-/

namespace Switchboard

namespace Ticket

variable {s : Setup} {script : MemoryScript} {P : Ticket → Nat → Phase → Prop}

/-- What holds of an execution at an instant, by how far it has come, when it begins, and is kept by
all that can happen to it over a memory that follows a script, provided that no instant passes for
which it waits. -/
structure KeptOnTime (s : Setup) (script : MemoryScript) (P : Ticket → Nat → Phase → Prop) :
    Prop where
  begins : ∀ t, P t t.startedAt (.selecting (t.startedAt + s.models.listingDelay))
  move : ∀ t x y, Move s t x y → x.2.memory.script = script →
    x.2.inFlight.holds t.request.id t.generation = !t.cancelled → P t x.2.now x.1 → P t y.2.now y.1
  pass : ∀ t now later phase, now ≤ later → phase.Rests →
    (∀ i, phase.wake = some i → later ≤ i) → P t now phase → P t later phase
  cancel : ∀ t now phase, P t now phase → P { t with cancelled := true } now phase
  drop : ∀ t now phase, P t now phase → P t now .dropped

namespace KeptOnTime

/-- A poll keeps what every move on time keeps. -/
theorem poll (h : KeptOnTime s script P) {t : Ticket} {b : Board} {phase : Phase}
    (hscript : b.memory.script = script)
    (hholds : phase.isOver = false →
      b.inFlight.holds t.request.id t.generation = !t.cancelled)
    (hP : P t b.now phase) : P t b.now (t.poll s b phase).1 := by
  -- The entry is needed until the last move, which takes it out.
  let Q (x : Phase × Board) : Prop := x.2.memory.script = script ∧
    (x.1.isOver = false → x.2.inFlight.holds t.request.id t.generation = !t.cancelled) ∧
      P t x.2.now x.1
  have hmove : ∀ x y, Move s t x y → Q x → Q y := by
    rintro x y hmove ⟨hscript, hholds, hP⟩
    have hholds := hholds hmove.isOver_eq_false
    refine ⟨hmove.now_and_script.2.trans hscript, fun hover => ?_,
      h.move t x y hmove hscript hholds hP⟩
    rwa [hmove.inFlight_eq, hover]
  have hpoll : Q (t.poll s b phase) := poll_induction hmove ⟨hscript, hholds, hP⟩
  have hnow : (t.poll s b phase).2.now = b.now := poll_now_and_script.1
  rw [← hnow]
  exact hpoll.2.2

end KeptOnTime

end Ticket

namespace Orchestrator

variable {o : Orchestrator} {a : Action} {as : List Action} {script : MemoryScript}
  {P : Ticket → Nat → Phase → Prop}

/-- The memory follows the script, and the fact holds of every execution at the present instant. -/
structure Lasts (o : Orchestrator) (script : MemoryScript) (P : Ticket → Nat → Phase → Prop) :
    Prop where
  script_eq : o.board.memory.script = script
  holds : ∀ e ∈ o.executions, P e.toTicket o.now e.phase

namespace Lasts

theorem poll (h : o.Lasts script P) (hconsistent : o.Consistent)
    (hkept : Ticket.KeptOnTime o.setup script P) (g : Nat) : (o.poll g).Lasts script P where
  script_eq := script_poll.trans h.script_eq
  holds := by
    rw [now_poll]
    refine hconsistent.forall_letExecution hconsistent.turns_poll (fun e he _ => h.holds e he)
      fun e he _ => ?_
    refine hkept.poll h.script_eq (fun hover => ?_) (h.holds e he)
    simp [hconsistent.holds_eq he, Execution.isInFlight, hover]

theorem drop (h : o.Lasts script P) (hconsistent : o.Consistent)
    (hkept : Ticket.KeptOnTime o.setup script P) (g : Nat) : (o.drop g).Lasts script P where
  script_eq := script_drop.trans h.script_eq
  holds := by
    rw [now_drop]
    refine hconsistent.forall_letExecution hconsistent.turns_drop (fun e he _ => h.holds e he)
      fun e he _ => ?_
    unfold Execution.drop
    split
    · exact h.holds e he
    · exact hkept.drop e.toTicket o.now e.phase (h.holds e he)

theorem cancel (h : o.Lasts script P) (hkept : Ticket.KeptOnTime o.setup script P)
    (id : RequestId) : (o.cancel id).2.Lasts script P where
  script_eq := script_cancel.trans h.script_eq
  holds := by
    rw [now_cancel]
    exact forall_cancel id h.holds fun e he => hkept.cancel e.toTicket o.now _ (h.holds e he)

theorem submit (h : o.Lasts script P) (hconsistent : o.Consistent)
    (hkept : Ticket.KeptOnTime o.setup script P) (r : Request) :
    (o.submit r).2.Lasts script P := by
  cases hr : o.board.inFlight.register r.id with
  | error f => rwa [submit_eq_error hr]
  | ok taken =>
    obtain ⟨g, f⟩ := taken
    rw [hconsistent.submit_eq_ok hr]
    have henrol : (o.enrol r g f).Lasts script P := by
      refine ⟨h.script_eq, fun e he => ?_⟩
      rcases mem_executions_enrol.mp he with he | rfl
      · exact h.holds e he
      · exact hkept.begins (o.entrant r g).toTicket
    exact henrol.poll (hconsistent.enrol hr) hkept g

/-- A step that lets no instant pass for which an execution waits keeps what executions keep. -/
theorem perform (h : o.Lasts script P) (hconsistent : o.Consistent)
    (hkept : Ticket.KeptOnTime o.setup script P) (hrests : ∀ e ∈ o.executions, e.phase.Rests)
    (ha : o.Allows a) : (o.perform a).2.Lasts script P := by
  cases a with
  | submit r => simpa using h.submit hconsistent hkept r
  | cancel id => exact h.cancel hkept id
  | drop g => exact h.drop hconsistent hkept g
  | poll g => exact h.poll hconsistent hkept g
  | pass millis =>
    refine ⟨h.script_eq, fun e he => ?_⟩
    exact hkept.pass e.toTicket o.now _ e.phase (Nat.le_add_right _ _) (hrests e he) (ha e he)
      (h.holds e he)

end Lasts

/-- What is kept by all that can happen to an execution on time holds in every run on time. -/
theorem lasts_after {setup : Setup} {memory : Memory} {files : FileSystem}
    (hkept : Ticket.KeptOnTime setup memory.script P) (has : (new setup memory files).OnTime as) :
    ((new setup memory files).after as).Lasts memory.script P := by
  induction as using List.reverseRecOn with
  | nil => exact ⟨rfl, fun e he => by simp [new] at he⟩
  | append_singleton as a ih =>
    obtain ⟨has, ha⟩ := onTime_concat.mp has
    rw [after_concat]
    exact (ih has).perform consistent_after (by rwa [setup_after]) (fun _ he => rests_of_mem he) ha

end Orchestrator

end Switchboard
