import Switchboard.Proofs.Orchestration.Progress

/-!
# The life of a request

An execution that is over has published that it started, its response if it completed, and that
it ended, in this order and nothing else. The state in which it ended is told by its response:
`Execution.Concludes` says how. So it is in every run (`lifecycle`), and to execute a request is
to wait until it is so (`execute_of_admitted`).
-/

namespace Switchboard

/-- An execution is over in the state `state`, with the response `received` if it completed, and
has published `events`. -/
structure Execution.Concludes (e : Execution) (events : List Event) (received : Option Response)
    (state : RequestState) : Prop where
  events_eq : events = .requestStarted e.request ::
    (received.map .responseReceived).toList ++ [.requestEnded e.request.id state]
  terminal : state.isTerminal = true
  received_iff : received.isSome ↔ state = .completed
  received_eq : ∀ r, received = some r → e.phase.response? = some r
  completed_iff : state = .completed ↔ ∃ r, e.phase.response? = some r ∧ r.error = none
  cancelled_iff : state = .cancelled ↔ e.phase = .dropped ∨
    ∃ r, e.phase.response? = some r ∧ r.error = some (RequestFailure.message .cancelled)
  failed_iff : state = .failed ↔ ∃ r text, e.phase.response? = some r ∧ r.error = some text ∧
    text ≠ RequestFailure.message .cancelled

namespace Ticket

variable {s : Setup} {t : Ticket} {events : List Event}

theorem stateAfter_of_ne {f : RequestFailure} (h : f ≠ .cancelled) : stateAfter f = .failed :=
  if_neg fun hf => h (RequestFailure.isCancellation_iff.mp hf)

/-- The response of an execution and its events tell how it ended. -/
theorem Ends.exists_concludes {r : Response} (h : t.Ends s r events) :
    ∃ received state, Execution.Concludes ⟨t, .ended r⟩ events received state := by
  cases h with
  | completed account answer millis hserved hcancelled =>
    refine ⟨some _, .completed, rfl, rfl, ?_, ?_, ?_, ?_, ?_⟩
    all_goals simp [Phase.response?, Account.success]
  | failed account f millis hf =>
    by_cases hc : f = .cancelled
    · subst hc
      refine ⟨none, .cancelled, rfl, rfl, ?_, ?_, ?_, ?_, ?_⟩
      all_goals simp [Phase.response?, Account.failure, Response.failure]
    · have hne : f.message ≠ RequestFailure.message .cancelled :=
        fun heq => hc (RequestFailure.eq_cancelled_of_message heq)
      rw [stateAfter_of_ne hc]
      refine ⟨none, .failed, rfl, rfl, ?_, ?_, ?_, ?_, ?_⟩
      all_goals simp [Phase.response?, Account.failure, Response.failure, hne]

end Ticket

/-- An execution that is over has concluded. -/
theorem Execution.exists_concludes {s : Setup} {e : Execution} {events : List Event}
    (h : e.Traced s events e.phase) (hover : e.phase.isOver = true) :
    ∃ received state, e.Concludes events received state := by
  obtain ⟨t, phase⟩ := e
  cases phase with
  | ended r => exact Ticket.Ends.exists_concludes h
  | dropped =>
    refine ⟨none, .cancelled, h, rfl, ?_, ?_, ?_, ?_, ?_⟩
    all_goals simp [Phase.response?]
  | _ => simp [Phase.isOver] at hover

namespace Orchestrator

variable {setup : Setup} {memory : Memory} {files : FileSystem} {as : List Action}

/-- A response is there exactly if the execution has ended with it. -/
theorem Consistent.response?_eq_some_iff {o : Orchestrator} (h : o.Consistent) {e : Execution}
    (he : e ∈ o.executions) {response : Response} :
    o.response? e.generation = some response ↔ e.phase = .ended response := by
  rw [response?, h.execution?_eq_some he, Option.bind_some]
  cases e.phase <;> simp [Phase.response?]

/-- An execution that is over and was not given up has a response. -/
theorem Consistent.exists_ended {o : Orchestrator} (h : o.Consistent) {e : Execution}
    (he : e ∈ o.executions) (hover : o.isOver e.generation = true) (hdropped : e.phase ≠ .dropped) :
    ∃ response, e.phase = .ended response := by
  have hover : e.phase.isOver = true := by simpa [isOver, h.execution?_eq_some he] using hover
  cases hphase : e.phase with
  | ended response => exact ⟨response, rfl⟩
  | dropped => exact absurd hphase hdropped
  | _ => simp [hphase, Phase.isOver] at hover

/-! ## Executing a request -/

/-- A request that is rejected changes nothing. -/
theorem execute_of_error {o : Orchestrator} {r : Request} {f : RequestFailure}
    (h : o.board.inFlight.register r.id = .error f) : o.execute r = (.error f, o) := by
  have hstay : o.await [] = o := by simp [await, drive, driveFor]
  simp [execute, submit_eq_error h, Except.map, Except.toOption, hstay]

/-- A request that is admitted was submitted with success. -/
theorem submit_of_admitted {o : Orchestrator} {r : Request} {g : Nat}
    (hg : (o.perform (.submit r)).1 = .admitted g) :
    o.submit r = (.ok g, (o.perform (.submit r)).2) := by
  cases hs : o.submit r with
  | mk result o' =>
    cases result with
    | error f => simp [perform, hs] at hg
    | ok g' => simpa [perform, hs] using hg

/-- An execution that only the schedule has let do something is not given up. -/
theorem phase_ne_dropped_of_internal {r : Request} {g : Nat} {bs : List Action} {e : Execution}
    (hg : (((new setup memory files).after as).perform (.submit r)).1 = .admitted g)
    (hbs : ∀ a ∈ bs, a.isInternal = true)
    (he : e ∈ ((new setup memory files).after (as ++ .submit r :: bs)).executions)
    (hge : e.generation = g) : e.phase ≠ .dropped := by
  intro hphase
  rw [List.append_cons, after_append, after_concat] at he
  have hconsistent := (consistent_new setup memory files).after as |>.perform (.submit r)
  obtain ⟨x, hx, hgx, hphase⟩ := hconsistent.exists_dropped hbs he hphase
  obtain ⟨y, hy, hgy, -, hbegins⟩ := consistent_after.exists_begins hg
  have hxy := hconsistent.eq_of_generation_eq hx hy (hgx.trans (hge.trans hgy.symm))
  exact hbegins.phase_ne_dropped (hxy ▸ hphase)

/-- A request that is admitted is executed by waiting for the end of its execution, which is a
response, since no step of the schedule gives it up. -/
theorem execute_of_admitted {r : Request} {g : Nat}
    (hg : (((new setup memory files).after as).perform (.submit r)).1 = .admitted g) :
    ∃ bs response, (∀ a ∈ bs, a.isInternal = true) ∧
      ((new setup memory files).after as).execute r =
        (.ok (some response), (new setup memory files).after (as ++ .submit r :: bs)) ∧
      ((new setup memory files).after (as ++ .submit r :: bs)).response? g = some response := by
  obtain ⟨bs, hbs, hawait, hover⟩ :=
    exists_await setup memory files (as ++ [.submit r]) [g]
  rw [after_concat, ← List.append_cons] at hawait
  rw [← List.append_cons] at hover
  have hadmitted : (new setup memory files).Answered (as ++ .submit r :: bs) as (.submit r)
      (.admitted g) := ⟨⟨bs, (List.append_cons ..).symm⟩, hg⟩
  obtain ⟨e, he, rfl, -⟩ := exists_execution_of_admitted hadmitted
  obtain ⟨response, hended⟩ := consistent_after.exists_ended he
    (hover _ (List.mem_singleton_self _)) (phase_ne_dropped_of_internal hg hbs he rfl)
  have hresponse := (consistent_after.response?_eq_some_iff he).mpr hended
  refine ⟨bs, response, hbs, ?_, hresponse⟩
  simp only [execute, submit_of_admitted hg, Except.map, Except.toOption, Option.toList_some,
    hawait, hresponse]

/-! ## Runs -/

/-- Every event is one of an execution. -/
theorem Consistent.exists_mem_eventsOf {o : Orchestrator} (h : o.Consistent) {event : Event}
    (hevent : event ∈ o.board.journal.events) :
    ∃ e ∈ o.executions, event ∈ o.board.journal.eventsOf e.generation := by
  obtain ⟨⟨g, d⟩, hmem, hd⟩ := List.mem_filterMap.mp hevent
  have hdeed : d ∈ o.board.journal.deedsOf g := Journal.mem_deedsOf.mpr hmem
  by_cases hg : g ∈ o.executions.map (·.generation)
  · obtain ⟨e, he, rfl⟩ := List.mem_map.mp hg
    exact ⟨e, he, List.mem_filterMap.mpr ⟨d, hdeed, hd⟩⟩
  · simp [h.unnoted g hg] at hdeed

/-- In every run, an execution that was admitted has published that it started, and when it is
over, as it is in the end, it has concluded; nothing else is published. A request that is
rejected changes nothing, and to execute one that is admitted ends with its response. -/
theorem lifecycle (setup : Setup) (memory : Memory) (files : FileSystem) (as : List Action) :
    let start := new setup memory files
    let o := start.after as
    (∀ before r g, start.Answered as before (.submit r) (.admitted g) →
      ∃ e ∈ o.executions, e.generation = g ∧ e.request = r ∧
        (e.phase = .dropped ↔ start.GivenUp as g) ∧
        (e.phase.isOver = false → o.board.journal.eventsOf g = [.requestStarted r]) ∧
        (e.phase.isOver = true →
          ∃ received state, e.Concludes (o.board.journal.eventsOf g) received state) ∧
        ∃ bs, (∀ a ∈ bs, a.isInternal = true) ∧ (start.after (as ++ bs)).isOver g = true) ∧
    (∀ event ∈ o.board.journal.events, ∃ before r g,
      start.Answered as before (.submit r) (.admitted g) ∧ event ∈ o.board.journal.eventsOf g) ∧
    (∀ r f, (o.perform (.submit r)).1 = .rejected f → o.execute r = (.error f, o)) ∧
    ∀ r g, (o.perform (.submit r)).1 = .admitted g →
      ∃ bs response, (∀ a ∈ bs, a.isInternal = true) ∧
        o.execute r = (.ok (some response), start.after (as ++ .submit r :: bs)) ∧
        (start.after (as ++ .submit r :: bs)).response? g = some response := by
  intro start o
  have hconsistent : o.Consistent := consistent_after
  refine ⟨fun before r g hadmitted => ?_, fun event hevent => ?_, fun r f hf => ?_,
    fun r g hg => ?_⟩
  · obtain ⟨e, he, rfl, rfl⟩ := exists_execution_of_admitted hadmitted
    have htraced := hconsistent.traced e he
    obtain ⟨bs, hbs, -, hover⟩ := exists_await setup memory files as [e.generation]
    exact ⟨e, he, rfl, rfl, dropped_iff he, htraced.events_eq, Execution.exists_concludes htraced,
      bs, hbs, hover _ (List.mem_singleton_self _)⟩
  · obtain ⟨e, he, hmem⟩ := hconsistent.exists_mem_eventsOf hevent
    obtain ⟨before, hadmitted⟩ := exists_admitted_of_mem he
    exact ⟨before, e.request, e.generation, hadmitted, hmem⟩
  · cases hr : o.board.inFlight.register r.id with
    | error f' =>
      obtain rfl : f' = f := by simpa [perform_submit_of_error hr] using hf
      exact execute_of_error hr
    | ok taken => simp [hconsistent.perform_submit_of_ok hr] at hf
  · exact execute_of_admitted hg

end Orchestrator

end Switchboard
