import Switchboard.Proofs.Orchestration.Lifecycle

/-!
# Cancelling and completing

An execution with which a cancellation was answered does not complete, and one that was never
cancelled nor given up does not end as cancelled. So in every run cancelling and completing
exclude each other, and each cancellation is answered with one execution (`cancellation`).

A cancelled execution ends as cancelled, except that a request that is unserved fails for that
reason all the same: that there is no model, or no provider for the model, is found out without
asking whether the execution is cancelled (`end_of_cancelled`).
-/

namespace Switchboard

namespace Ticket

variable {s : Setup} {t : Ticket} {events : List Event} {phase : Phase} {id : RequestId}

/-- A request fails as cancelled only if it is cancelled. -/
theorem FailsWith.cancelled (h : t.FailsWith s .cancelled) : t.cancelled = true := by
  unfold FailsWith at h
  split at h
  case h_1 reason hu =>
    have := Setup.isCancellation_eq_false_of_unserved? (h ▸ hu)
    simp [RequestFailure.isCancellation] at this
  case h_2 => exact h.mp rfl

/-- An execution that completed is not cancelled. -/
theorem Traced.cancelled_eq_false (h : t.Traced s events phase)
    (hmem : .requestEnded id .completed ∈ events) : t.cancelled = false := by
  cases hover : phase.isOver with
  | false => simp [h.events_eq hover] at hmem
  | true =>
    cases phase with
    | ended r =>
      cases h with
      | completed account answer millis hserved hcancelled => exact hcancelled
      | failed account f millis hf => cases hc : f.isCancellation <;> simp [stateAfter, hc] at hmem
    | dropped =>
      rw [show events = _ from h] at hmem
      simp at hmem
    | _ => simp [Phase.isOver] at hover

/-- An execution that ended as cancelled was given up or is cancelled. -/
theorem Traced.dropped_or_cancelled (h : t.Traced s events phase)
    (hmem : .requestEnded id .cancelled ∈ events) : phase = .dropped ∨ t.cancelled = true := by
  cases hover : phase.isOver with
  | false => simp [h.events_eq hover] at hmem
  | true =>
    cases phase with
    | ended r =>
      cases h with
      | completed account answer millis hserved hcancelled => simp at hmem
      | failed account f millis hf =>
        cases hc : f.isCancellation with
        | false => simp [stateAfter, hc] at hmem
        | true =>
          obtain rfl := RequestFailure.isCancellation_iff.mp hc
          exact Or.inr hf.cancelled
    | dropped => exact Or.inl rfl
    | _ => simp [Phase.isOver] at hover

/-- A cancelled execution that ended with a response failed because its request is unserved, or
was cancelled. -/
theorem Ends.eq_of_cancelled {r : Response} (h : t.Ends s r events)
    (hc : t.cancelled = true) :
    ∃ (account : Account) (millis : Nat), r = account.failure t.request.id
        ((s.unserved? t.request).getD .cancelled).message millis ∧
      events = [.requestStarted t.request, .requestEnded t.request.id
        (stateAfter ((s.unserved? t.request).getD .cancelled))] := by
  cases h with
  | completed account answer millis hserved hcancelled => simp [hcancelled] at hc
  | failed account f millis hf =>
    have hreason : f = (s.unserved? t.request).getD .cancelled := by
      unfold FailsWith at hf
      split at hf
      case h_1 reason hu => simpa [hu] using hf
      case h_2 hu => simpa [hu] using hf.mpr hc
    rw [← hreason]
    exact ⟨account, millis, rfl, rfl⟩

end Ticket

namespace Orchestrator

/-! ## Cancelling -/

/-- In every run, an execution that completed was never answered to a cancellation, and once it
is over a cancellation of its identifier is answered with a later one that is in flight, or with
none. An execution that ended as cancelled was given up, or exactly one cancellation was answered
with it, while it was in flight. A cancellation concerns no other execution. -/
theorem cancellation (setup : Setup) (memory : Memory) (files : FileSystem)
    (as : List Action) :
    let start := new setup memory files
    let o := start.after as
    (∀ e ∈ o.executions,
      (.requestEnded e.request.id .completed ∈ o.board.journal.eventsOf e.generation →
        ∀ before id, ¬ start.Answered as before (.cancel id) (.cancelled (some e.generation))) ∧
      (e.phase.isOver = true →
        (o.perform (.cancel e.request.id)).1 = .cancelled none ∨
          ∃ e' ∈ o.executions, e'.isInFlight = true ∧ e'.request.id = e.request.id ∧
            e.generation < e'.generation ∧
            (o.perform (.cancel e.request.id)).1 = .cancelled (some e'.generation)) ∧
      (.requestEnded e.request.id .cancelled ∈ o.board.journal.eventsOf e.generation →
        start.GivenUp as e.generation ∨
          ∃! before, start.Answered as before (.cancel e.request.id)
              (.cancelled (some e.generation)) ∧
            ∃ x ∈ (start.after before).executions,
              x.generation = e.generation ∧ x.isInFlight = true)) ∧
    (∀ before id id' g g', start.Answered as before (.cancel id) (.cancelled (some g)) →
      start.Answered as before (.cancel id') (.cancelled (some g')) → g = g') ∧
    ∀ id g, (o.perform (.cancel id)).1 = .cancelled (some g) →
      (o.perform (.cancel id)).2.board.journal = o.board.journal ∧
        ∀ x ∈ o.executions, x.generation ≠ g → x ∈ (o.perform (.cancel id)).2.executions := by
  intro start o
  have h : o.Consistent := consistent_after
  refine ⟨fun e he => ⟨fun hmem before id ha => ?_, fun hover => ?_, fun hmem => ?_⟩,
    fun before id id' g g' ha ha' => ?_, fun id g hg => ?_⟩
  · have hc := (h.traced e he).cancelled_eq_false hmem
    simp [(cancelled_of_answered ha he).1] at hc
  · cases hg : (o.cancel e.request.id).1 with
    | none => exact Or.inl (by simp [hg])
    | some g =>
      obtain ⟨x, hx, hin, hid, rfl⟩ := h.fst_cancel_eq_some_iff.mp hg
      have hentry := (h.mem_entries_iff _ _).mpr ⟨x, hx, hin, hid, rfl⟩
      have hne : e.generation ≠ x.generation := fun heq => by
        obtain rfl := h.eq_of_generation_eq he hx heq
        simp [Execution.isInFlight, hover] at hin
      exact Or.inr ⟨x, hx, hin, hid, Nat.lt_of_le_of_ne (h.latest e he _ hentry) hne,
        by simp [hg]⟩
  · rcases (h.traced e he).dropped_or_cancelled hmem with hphase | hc
    · exact Or.inl ((dropped_iff he).mp hphase)
    · obtain ⟨before, ha⟩ := (cancelled_iff he).mp hc
      exact Or.inr ⟨before, ⟨ha, (cancelled_of_answered ha he).2.2⟩,
        fun _ hb => before_eq_of_cancelled hb.1 ha⟩
  · obtain ⟨-, hreply⟩ := ha.unique ha'
    simpa using hreply
  · have hcancel : (o.cancel id).1 = some g := by simpa using hg
    rw [perform_cancel, snd_cancel_of_some ((fst_cancel o id).symm.trans hcancel)]
    exact ⟨rfl, fun x hx hne => List.mem_map.mpr ⟨x, hx, notify_of_ne hne⟩⟩

/-- An execution with which a cancellation was answered ends as cancelled if it is given up or
its request is served. If its request is unserved, it fails for that reason. -/
theorem end_of_cancelled (setup : Setup) (memory : Memory) (files : FileSystem)
    (as before : List Action) (e : Execution)
    (he : e ∈ ((new setup memory files).after as).executions) (hover : e.phase.isOver = true)
    (ha : (new setup memory files).Answered as before (.cancel e.request.id)
      (.cancelled (some e.generation))) :
    let events := ((new setup memory files).after as).board.journal.eventsOf e.generation
    (.requestEnded e.request.id .failed ∈ events ↔
      ¬ (new setup memory files).GivenUp as e.generation ∧
        setup.unserved? e.request ≠ none) ∧
    ((new setup memory files).GivenUp as e.generation →
      events = [.requestStarted e.request, .requestEnded e.request.id .cancelled]) ∧
    (¬ (new setup memory files).GivenUp as e.generation → setup.unserved? e.request = none →
      events = [.requestStarted e.request, .requestEnded e.request.id .cancelled] ∧
        ∃ r, e.phase.response? = some r ∧
          r.error = some (RequestFailure.message .cancelled)) ∧
    ∀ f, ¬ (new setup memory files).GivenUp as e.generation →
      setup.unserved? e.request = some f →
      events = [.requestStarted e.request, .requestEnded e.request.id .failed] ∧
        ∃ r, e.phase.response? = some r ∧ r.error = some f.message := by
  intro events
  have htraced : e.Traced setup events e.phase := traced_of_mem he
  have hc := (cancelled_of_answered ha he).1
  rw [← dropped_iff he]
  cases hphase : e.phase with
  | dropped =>
    rw [hphase] at htraced
    have hevents : events = [.requestStarted e.request, .requestEnded e.request.id .cancelled] :=
      htraced
    simp [hevents]
  | ended r =>
    rw [hphase] at htraced
    obtain ⟨account, millis, rfl, hevents⟩ := Ticket.Ends.eq_of_cancelled htraced hc
    cases hu : setup.unserved? e.request with
    | none =>
      have hstate : Ticket.stateAfter .cancelled = .cancelled := rfl
      simp [hevents, hu, hstate, Phase.response?, Account.failure, Response.failure]
    | some f =>
      have hstate : Ticket.stateAfter f = .failed :=
        if_neg (by simp [Setup.isCancellation_eq_false_of_unserved? hu])
      simp [hevents, hu, hstate, Phase.response?, Account.failure, Response.failure]
  | _ => simp [hphase, Phase.isOver] at hover

namespace Stray

/-- A provider that lists a model of another, which is not registered. -/
def provider : Provider where
  name := "local"
  kind := .local
  listing := .ok [{ name := "gpt-4o", providerName := "elsewhere", kind := .remote,
                    capabilities := .single .general, contextLength := 8192 }]
  answer _ := .ok { content := "" }

/-- The provider by itself, and a clock that stands still. -/
def setup : Setup where
  config := { workingDirectory := "" }
  models := ⟨[provider]⟩
  clock _ := ⟨1970, 1, 1, 0, 0, 0, 0⟩

/-- A request that names no model. -/
def request : Request where
  id := ⟨"r1", by decide +kernel⟩
  kind := .chat
  content := "hello"

/-- Reading the memory takes a while. -/
def start : Orchestrator :=
  new setup (.scripted { readDelay := 50 } {}) .empty

/-- The request is cancelled while the memory is read. -/
def steps : List Action :=
  [.submit request, .cancel request.id, .pass 50, .poll 1]

end Stray

/-- A request for a model of no registered provider ends as failed, although it was cancelled. -/
theorem exists_failed_of_cancelled :
    ∃ e ∈ (Stray.start.after Stray.steps).executions,
      Stray.start.Answered Stray.steps [.submit Stray.request] (.cancel e.request.id)
        (.cancelled (some e.generation)) ∧
      .requestEnded e.request.id .failed ∈
        (Stray.start.after Stray.steps).board.journal.eventsOf e.generation := by
  let e := (Stray.start.after Stray.steps).executions.head (by decide +kernel)
  have hcancelled : Stray.start.Answered Stray.steps [.submit Stray.request]
      (.cancel e.request.id) (.cancelled (some e.generation)) := ⟨⟨_, rfl⟩, rfl⟩
  have hgivenUp : ¬ Stray.start.GivenUp Stray.steps e.generation := by
    rintro ⟨before, ⟨rest, hsteps⟩, -⟩
    have hdrop : Action.drop e.generation ∈ Stray.steps := by simp [← hsteps]
    simp [Stray.steps] at hdrop
  have hunserved : Stray.setup.unserved? Stray.request ≠ none := by decide +kernel
  exact ⟨e, List.head_mem _, hcancelled,
    (end_of_cancelled _ _ _ _ _ e (List.head_mem _) rfl hcancelled).1.mpr ⟨hgivenUp, hunserved⟩⟩

end Orchestrator

end Switchboard
