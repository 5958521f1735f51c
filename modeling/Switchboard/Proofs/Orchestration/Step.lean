import Switchboard.Proofs.Orchestration.Consistent

/-!
# Steps

A step lets an execution go on (`Follows`) or begins one (`Begins`), and there is nothing else
that it does to the executions: they go on in their order, and those that begin come after them
(`advances_perform`). So no execution is lost (`exists_follows`), and each has an origin
(`mem_executions_perform`).
-/

namespace Switchboard

/-- A poll does not drop an execution. -/
theorem Ticket.poll_ne_dropped {s : Setup} {t : Ticket} {b : Board} {phase : Phase}
    (h : phase ≠ .dropped) : (t.poll s b phase).1 ≠ .dropped := by
  have hsettle : ∀ {b : Board} {account answer}, (t.settle b account answer).1 ≠ .dropped := by
    intro b account answer
    unfold settle
    split <;> simp [fail, complete]
  refine poll_induction (P := fun x => x.1 ≠ .dropped) (fun x y hmove _ => ?_) h
  cases hmove with
  | saved hwrite => exact hsettle
  | unsaved hwrite => exact hsettle
  | _ => simp [fail]

namespace Orchestrator

section Perform

variable {o : Orchestrator}

@[simp] theorem setup_letExecution {g : Nat} {f : Execution → Board → Execution × Board} :
    (o.letExecution g f).setup = o.setup := by
  unfold letExecution
  split <;> rfl

@[simp] theorem setup_poll {g : Nat} : (o.poll g).setup = o.setup :=
  setup_letExecution

@[simp] theorem perform_cancel (id : RequestId) :
    o.perform (.cancel id) = (.cancelled (o.cancel id).1, (o.cancel id).2) :=
  rfl

@[simp] theorem perform_pass (millis : Nat) : o.perform (.pass millis) = (.done, o.pass millis) :=
  rfl

/-- A request with an identifier in flight is rejected and changes nothing. -/
theorem perform_submit_of_error {r : Request} {f : RequestFailure}
    (h : o.board.inFlight.register r.id = .error f) :
    o.perform (.submit r) = (.rejected f, o) := by
  simp [perform, submit_eq_error h]

/-- A request with a free identifier is admitted and polled. -/
theorem Consistent.perform_submit_of_ok (h : o.Consistent) {r : Request} {g : Nat} {f : InFlight}
    (hr : o.board.inFlight.register r.id = .ok (g, f)) :
    o.perform (.submit r) = (.admitted g, (o.enrol r g f).poll g) := by
  simp [Orchestrator.perform, h.submit_eq_ok hr]

/-- The setup is fixed for the run. -/
@[simp] theorem setup_perform (a : Action) : (o.perform a).2.setup = o.setup := by
  cases a with
  | submit r =>
    rw [snd_perform_submit, submit]
    split <;> rfl
  | cancel id =>
    rw [perform_cancel, cancel]
    split <;> rfl
  | drop g => exact setup_letExecution
  | poll g => exact setup_poll
  | pass millis => rfl

end Perform

/-- How an execution goes on in a step. -/
structure Follows (o : Orchestrator) (a : Action) (e e' : Execution) : Prop where
  generation_eq : e'.generation = e.generation
  request_eq : e'.request = e.request
  cancelled_iff : e'.cancelled = true ↔ e.cancelled = true ∨
    (a = .cancel e.request.id ∧ (o.perform a).1 = .cancelled (some e.generation))
  dropped_iff : e'.phase = .dropped ↔
    e.phase = .dropped ∨ (a = .drop e.generation ∧ e.phase.isOver = false)
  phase_eq_of_isOver : e.phase.isOver = true → e'.phase = e.phase
  phase_eq : e'.phase = e.phase ∨ e'.phase = .dropped ∨
    ∃ b, e'.phase = (e.toTicket.poll o.setup b e.phase).1

/-- How an execution begins in a step. -/
structure Begins (o : Orchestrator) (a : Action) (e : Execution) : Prop where
  action_eq : a = .submit e.request
  reply_eq : (o.perform a).1 = .admitted e.generation
  newest : ∀ x ∈ o.executions, x.generation < e.generation
  cancelled_eq_false : e.cancelled = false
  phase_eq : ∃ b due, e.phase = (e.toTicket.poll o.setup b (.selecting due)).1

variable {o : Orchestrator} {a : Action} {e e' : Execution}

theorem Follows.refl (hreply : (o.perform a).1 ≠ .cancelled (some e.generation))
    (hdrop : a = .drop e.generation → e.phase.isOver = true) : o.Follows a e e where
  generation_eq := rfl
  request_eq := rfl
  cancelled_iff := by simp [hreply]
  dropped_iff := by simpa using fun ha hover => by simp [hdrop ha] at hover
  phase_eq_of_isOver _ := rfl
  phase_eq := Or.inl rfl

/-- A polled execution follows the one before. -/
theorem follows_poll (e : Execution) (g : Nat) :
    o.Follows (.poll g) e (e.poll o.setup o.board).1 where
  generation_eq := rfl
  request_eq := rfl
  cancelled_iff := by simp [Execution.poll]
  dropped_iff := by
    by_cases hphase : e.phase = .dropped
    · simp [Execution.poll, hphase, Ticket.poll]
    · simp [Execution.poll, hphase, Ticket.poll_ne_dropped hphase]
  phase_eq_of_isOver hover := by rw [Execution.poll_of_isOver hover]
  phase_eq := Or.inr (Or.inr ⟨o.board, rfl⟩)

theorem follows_drop (e : Execution) :
    o.Follows (.drop e.generation) e (e.drop o.board).1 where
  generation_eq := congrArg Ticket.generation Execution.toTicket_drop
  request_eq := congrArg Ticket.request Execution.toTicket_drop
  cancelled_iff := by simp
  dropped_iff := by
    cases hover : e.phase.isOver with
    | true => simp [Execution.drop_of_isOver hover]
    | false => simp [Execution.drop, hover]
  phase_eq_of_isOver hover := by rw [Execution.drop_of_isOver hover]
  phase_eq := by
    cases hover : e.phase.isOver with
    | true => simp [Execution.drop_of_isOver hover]
    | false => simp [Execution.drop, hover]

theorem Begins.phase_ne_dropped (h : o.Begins a e) : e.phase ≠ .dropped := by
  obtain ⟨b, due, hphase⟩ := h.phase_eq
  rw [hphase]
  exact Ticket.poll_ne_dropped (by simp)

/-- The executions go on in their order in a step, and those that begin come after them. -/
def Advances (o : Orchestrator) (a : Action) (l : List Execution) : Prop :=
  ∃ (f : Execution → Execution) (new : List Execution), l = o.executions.map f ++ new ∧
    (∀ e ∈ o.executions, o.Follows a e (f e)) ∧ ∀ e ∈ new, o.Begins a e

theorem advances_map {f : Execution → Execution} (hf : ∀ e ∈ o.executions, o.Follows a e (f e)) :
    o.Advances a (o.executions.map f) :=
  ⟨f, [], (List.append_nil _).symm, hf, by simp⟩

theorem advances_self (hreply : ∀ g, (o.perform a).1 ≠ .cancelled (some g))
    (hdrop : ∀ g, a ≠ .drop g) : o.Advances a o.executions := by
  rw [← List.map_id o.executions]
  exact advances_map fun e _ => .refl (hreply _) fun ha => absurd ha (hdrop _)

namespace Consistent

theorem follows_notify (h : o.Consistent) (he : e ∈ o.executions) {id : RequestId} {g : Nat}
    (hg : (o.cancel id).1 = some g) : o.Follows (.cancel id) e (notify g e) where
  generation_eq := generation_notify
  request_eq := request_notify
  cancelled_iff := by
    obtain ⟨x, hx, -, rfl, rfl⟩ := h.fst_cancel_eq_some_iff.mp hg
    by_cases hxe : e.generation = x.generation
    · simp [notify, hg, h.eq_of_generation_eq he hx hxe]
    · simpa [notify_of_ne hxe, hg] using fun _ heq => absurd heq.symm hxe
  dropped_iff := by simp
  phase_eq_of_isOver _ := phase_notify
  phase_eq := Or.inl phase_notify

/-- A request continues all executions and may begin one. -/
theorem advances_submit (h : o.Consistent) (r : Request) :
    o.Advances (.submit r) (o.perform (.submit r)).2.executions := by
  cases hr : o.board.inFlight.register r.id with
  | error f =>
    rw [perform_submit_of_error hr]
    exact advances_self (by simp [perform_submit_of_error hr]) (by simp)
  | ok taken =>
    obtain ⟨g, f⟩ := taken
    have hperform := h.perform_submit_of_ok hr
    have hpoll := (h.enrol hr).executions_letExecution (h.enrol hr).turns_poll g
    rw [executions_enrol, List.map_append, List.map_singleton, entrant, if_pos rfl] at hpoll
    refine ⟨_, _, by rw [hperform]; exact hpoll, fun e he => ?_, fun e he => ?_⟩
    · rw [if_neg (Nat.ne_of_lt (h.lt_of_register hr he))]
      exact .refl (by simp [hperform]) (by simp)
    · obtain rfl := List.mem_singleton.mp he
      exact ⟨rfl, by rw [hperform]; rfl, fun x hx => h.lt_of_register hr hx, rfl, _, _, rfl⟩

theorem advances_cancel (h : o.Consistent) (id : RequestId) :
    o.Advances (.cancel id) (o.cancel id).2.executions := by
  cases hg : (o.cancel id).1 with
  | none =>
    rw [snd_cancel_of_none ((fst_cancel o id).symm.trans hg)]
    exact advances_self (by simp [hg]) (by simp)
  | some g =>
    rw [snd_cancel_of_some ((fst_cancel o id).symm.trans hg)]
    exact advances_map fun e he => h.follows_notify he hg

/-- A turn continues all executions. -/
theorem advances_letExecution (h : o.Consistent) {f : Execution → Board → Execution × Board}
    (hf : o.Turns f) {g : Nat} (hreply : (o.perform a).1 = .done)
    (hdrop : ∀ g', a = .drop g' → g' = g)
    (hfollows : ∀ e, e.generation = g → o.Follows a e (f e o.board).1) :
    o.Advances a (o.letExecution g f).executions := by
  rw [h.executions_letExecution hf]
  refine advances_map fun e _ => ?_
  by_cases he : e.generation = g
  · rw [if_pos he]
    exact hfollows e he
  · rw [if_neg he]
    exact .refl (by simp [hreply]) fun ha => absurd (hdrop _ ha) he

/-- What a step does to the executions. -/
theorem advances_perform (h : o.Consistent) (a : Action) :
    o.Advances a (o.perform a).2.executions := by
  cases a with
  | submit r => exact h.advances_submit r
  | cancel id => exact h.advances_cancel id
  | drop g =>
    refine h.advances_letExecution h.turns_drop rfl (by simp) fun e he => ?_
    rw [← he]
    exact follows_drop e
  | poll g => exact h.advances_letExecution h.turns_poll rfl (by simp) fun e _ => follows_poll e g
  | pass millis => exact advances_self (by simp) (by simp)

/-- An execution after a step goes on from one before it, or begins. -/
theorem mem_executions_perform (h : o.Consistent) (he' : e' ∈ (o.perform a).2.executions) :
    (∃ e ∈ o.executions, o.Follows a e e') ∨ o.Begins a e' := by
  obtain ⟨f, new, heq, hfollows, hbegins⟩ := h.advances_perform a
  rw [heq, List.mem_append, List.mem_map] at he'
  rcases he' with ⟨e, he, rfl⟩ | hnew
  · exact Or.inl ⟨e, he, hfollows e he⟩
  · exact Or.inr (hbegins e' hnew)

/-- No execution is lost in a step. -/
theorem exists_follows (h : o.Consistent) (a : Action) (he : e ∈ o.executions) :
    ∃ e' ∈ (o.perform a).2.executions, o.Follows a e e' := by
  obtain ⟨f, new, heq, hfollows, -⟩ := h.advances_perform a
  refine ⟨f e, ?_, hfollows e he⟩
  rw [heq]
  exact List.mem_append_left _ (List.mem_map_of_mem he)

/-- For a request that is admitted an execution begins. -/
theorem exists_begins (h : o.Consistent) {r : Request} {g : Nat}
    (hg : (o.perform (.submit r)).1 = .admitted g) :
    ∃ e ∈ (o.perform (.submit r)).2.executions, e.generation = g ∧ e.request = r ∧
      o.Begins (.submit r) e := by
  cases hr : o.board.inFlight.register r.id with
  | error f => simp [perform_submit_of_error hr] at hg
  | ok taken =>
    obtain ⟨g', f⟩ := taken
    have hperform := h.perform_submit_of_ok hr
    obtain rfl : g' = g := by simpa [hperform] using hg
    obtain ⟨e, he, hpolled⟩ := (h.enrol hr).exists_follows (.poll g')
      (mem_executions_enrol.mpr (Or.inr rfl))
    have he : e ∈ (o.perform (.submit r)).2.executions := by rwa [hperform]
    refine ⟨e, he, hpolled.generation_eq, hpolled.request_eq, ?_⟩
    rcases h.mem_executions_perform he with ⟨x, hx, hfollows⟩ | hbegins
    · have heq : x.generation = g' := hfollows.generation_eq.symm.trans hpolled.generation_eq
      exact absurd heq (Nat.ne_of_lt (h.lt_of_register hr hx))
    · exact hbegins

end Consistent

end Orchestrator

end Switchboard
