import Switchboard.Proofs.Orchestration.Lifecycle

/-!
# Admission

In every run the requests in flight are those of the executions that were admitted and are
neither over nor cancelled, one for each identifier, and a request is rejected exactly if its
identifier is among them; that changes nothing. No execution takes out the entry of another: a
cancelled one leaves the requests in flight alone, also when its identifier has been given to a
later one.
-/

namespace Switchboard.Orchestrator

variable {setup : Setup} {memory : Memory} {files : FileSystem} {as : List Action}
  {o : Orchestrator} {e : Execution}

/-- What is in flight was admitted, and is neither over nor cancelled. -/
theorem mem_entries_iff_admitted {id : RequestId} {g : Nat} :
    (id, g) ∈ ((new setup memory files).after as).board.inFlight.entries ↔
      (∃ before r, (new setup memory files).Answered as before (.submit r) (.admitted g) ∧
        r.id = id) ∧
      ((new setup memory files).after as).isOver g = false ∧
      ∀ before, ¬ (new setup memory files).Answered as before (.cancel id)
        (.cancelled (some g)) := by
  rw [consistent_after.mem_entries_iff]
  constructor
  · rintro ⟨e, he, hin, rfl, rfl⟩
    obtain ⟨before, ha⟩ := exists_admitted_of_mem he
    simp only [Execution.isInFlight, Bool.and_eq_true, Bool.not_eq_true'] at hin
    refine ⟨⟨before, e.request, ha, rfl⟩, ?_, fun before ha => ?_⟩
    · simp [isOver, consistent_after.execution?_eq_some he, hin.2]
    · simp [(cancelled_of_answered ha he).1] at hin
  · rintro ⟨⟨before, r, ha, rfl⟩, hover, hcancel⟩
    obtain ⟨e, he, rfl, rfl⟩ := exists_execution_of_admitted ha
    have hc : e.cancelled = false := by
      simpa using fun hc => not_exists.mpr hcancel ((cancelled_iff he).mp hc)
    have hover : e.phase.isOver = false := by
      simpa [isOver, consistent_after.execution?_eq_some he] using hover
    exact ⟨e, he, by simp [Execution.isInFlight, hc, hover], rfl, rfl⟩

/-- A request is rejected exactly if its identifier is in flight. -/
theorem fst_execute_eq_error_iff {r : Request} {f : RequestFailure} :
    (((new setup memory files).after as).execute r).1 = .error f ↔
      f = .duplicate r.id ∧
        ∃ g, (r.id, g) ∈ ((new setup memory files).after as).board.inFlight.entries := by
  rw [← InFlight.register_eq_error_iff]
  cases hr : ((new setup memory files).after as).board.inFlight.register r.id with
  | error f' => simp [execute_of_error hr]
  | ok taken =>
    have hg := congrArg Prod.fst (consistent_after.perform_submit_of_ok hr)
    obtain ⟨bs, response, -, hexecute, -⟩ := execute_of_admitted hg
    simp [hexecute]

namespace Consistent

variable {f : Execution → Board → Execution × Board}

/-- A cancelled execution leaves the requests in flight alone. -/
theorem inFlight_letExecution_of_cancelled (h : o.Consistent) (hf : o.Turns f)
    (he : e ∈ o.executions) (hc : e.cancelled = true) :
    (o.letExecution e.generation f).board.inFlight = o.board.inFlight := by
  have hholds : o.board.inFlight.holds e.request.id e.generation = false := by
    simp [h.holds_eq he, Execution.isInFlight, hc]
  rcases h.inFlight_letExecution hf he with heq | heq
  · exact heq
  · rw [heq, InFlight.deregister_of_not_holds hholds]

/-- An execution takes out no entry but its own. -/
theorem mem_entries_letExecution_of_ne (h : o.Consistent) (hf : o.Turns f)
    (he : e ∈ o.executions) {entry : RequestId × Nat} (hne : entry.2 ≠ e.generation) :
    entry ∈ (o.letExecution e.generation f).board.inFlight.entries ↔
      entry ∈ o.board.inFlight.entries := by
  rcases h.inFlight_letExecution hf he with heq | heq
  · rw [heq]
  · rw [heq, h.distinct.mem_deregister]
    exact and_iff_left fun heq => hne (congrArg Prod.snd heq)

end Consistent

/-- In every run at most one execution of each identifier is in flight, and it is one that was
admitted and is neither over nor cancelled. No generation is given out twice. A request is
rejected as a duplicate if and only if its identifier is in flight, and that changes nothing.
What executions do takes out no entry of another, and none at all if they are cancelled. -/
theorem admission (setup : Setup) (memory : Memory) (files : FileSystem) (as : List Action) :
    let start := new setup memory files
    let o := start.after as
    (o.board.inFlight.entries.map (·.1)).Nodup ∧
    (∀ id g, (id, g) ∈ o.board.inFlight.entries ↔
      (∃ before r, start.Answered as before (.submit r) (.admitted g) ∧ r.id = id) ∧
        o.isOver g = false ∧
        ∀ before, ¬ start.Answered as before (.cancel id) (.cancelled (some g))) ∧
    (∀ before before' r r' g, start.Answered as before (.submit r) (.admitted g) →
      start.Answered as before' (.submit r') (.admitted g) → before = before') ∧
    (∀ r f, (o.execute r).1 = .error f ↔
      f = .duplicate r.id ∧ ∃ g, (r.id, g) ∈ o.board.inFlight.entries) ∧
    (∀ r f, (o.execute r).1 = .error f →
      o.perform (.submit r) = (.rejected f, o) ∧ (o.execute r).2 = o) ∧
    (∀ e ∈ o.executions, e.cancelled = true →
      (o.poll e.generation).board.inFlight = o.board.inFlight ∧
        (o.drop e.generation).board.inFlight = o.board.inFlight) ∧
    ∀ e ∈ o.executions, ∀ entry : RequestId × Nat, entry.2 ≠ e.generation →
      (entry ∈ (o.poll e.generation).board.inFlight.entries ↔
        entry ∈ o.board.inFlight.entries) ∧
      (entry ∈ (o.drop e.generation).board.inFlight.entries ↔
        entry ∈ o.board.inFlight.entries) := by
  intro start o
  have h : o.Consistent := consistent_after
  refine ⟨h.distinct, fun _ _ => mem_entries_iff_admitted, fun _ _ _ _ _ => before_eq_of_admitted,
    fun _ _ => fst_execute_eq_error_iff, fun r f hf => ?_, fun e he hc => ?_,
    fun e he entry hne => ?_⟩
  · have hr := InFlight.register_eq_error_iff.mpr (fst_execute_eq_error_iff.mp hf)
    exact ⟨perform_submit_of_error hr, congrArg Prod.snd (execute_of_error hr)⟩
  · exact ⟨h.inFlight_letExecution_of_cancelled h.turns_poll he hc,
      h.inFlight_letExecution_of_cancelled h.turns_drop he hc⟩
  · exact ⟨h.mem_entries_letExecution_of_ne h.turns_poll he hne,
      h.mem_entries_letExecution_of_ne h.turns_drop he hne⟩

end Switchboard.Orchestrator
