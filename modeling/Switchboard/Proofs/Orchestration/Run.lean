import Mathlib.Data.List.Induction
import Switchboard.Proofs.Orchestration.Step

/-!
# Runs

What a run has said to its steps (`Answered`) can be read off the executions it has come to:
there is one for every request that was admitted (`exists_execution_of_admitted`), it is
cancelled if and only if a cancellation was answered with its generation (`cancelled_iff`), and it
is dropped if and only if it was given up before it was over (`dropped_iff`). What holds of an
execution when it begins and stays so as it goes on holds of all (`execution_induction`).
-/

namespace Switchboard

namespace Orchestrator

variable {o : Orchestrator} {a : Action}

/-- The orchestrator after steps. -/
def after (o : Orchestrator) (as : List Action) : Orchestrator :=
  (o.run as).2

/-- The steps `as` come to the step `a` after the steps `before`, and `r` is said to it. -/
structure Answered (o : Orchestrator) (as before : List Action) (a : Action) (r : Reply) :
    Prop where
  comes : before ++ [a] <+: as
  reply_eq : ((o.after before).perform a).1 = r

/-- The steps `as` give up an execution that is not over. -/
def GivenUp (o : Orchestrator) (as : List Action) (generation : Nat) : Prop :=
  ∃ before, before ++ [.drop generation] <+: as ∧ ∃ e ∈ (o.after before).executions,
    e.generation = generation ∧ e.phase.isOver = false

variable {as bs before : List Action} {b : Action} {r : Reply}

theorem run_append (o : Orchestrator) (as bs : List Action) :
    o.run (as ++ bs) = ((o.run as).1 ++ ((o.after as).run bs).1, ((o.after as).run bs).2) := by
  induction as generalizing o with
  | nil => rfl
  | cons a as ih => simp [run, after, ih]

@[simp] theorem after_nil : o.after [] = o :=
  rfl

theorem after_append : o.after (as ++ bs) = (o.after as).after bs := by
  simp [after, run_append]

@[simp] theorem after_concat : o.after (as ++ [a]) = ((o.after as).perform a).2 := by
  rw [after_append]
  rfl

@[simp] theorem setup_after : (o.after as).setup = o.setup := by
  induction as using List.reverseRecOn with
  | nil => rfl
  | append_singleton as a ih => simp [ih]

theorem length_run (o : Orchestrator) (as : List Action) : (o.run as).1.length = as.length := by
  induction as generalizing o with
  | nil => rfl
  | cons a as ih => simp [run, ih]

/-- What is said to a step stands at its place among the replies of the run. -/
theorem answered_iff :
    o.Answered as before a r ↔ before ++ [a] <+: as ∧ (o.run as).1[before.length]? = some r := by
  constructor
  · rintro ⟨⟨rest, rfl⟩, rfl⟩
    refine ⟨List.prefix_append .., ?_⟩
    rw [List.append_assoc, run_append, List.getElem?_append_right (by simp [length_run])]
    simp [length_run, run]
  · rintro ⟨⟨rest, rfl⟩, hr⟩
    refine ⟨List.prefix_append .., ?_⟩
    rw [List.append_assoc, run_append, List.getElem?_append_right (by simp [length_run])] at hr
    simpa [length_run, run] using hr

/-- One more step is the last to be answered. -/
theorem answered_concat :
    o.Answered (as ++ [b]) before a r ↔
      o.Answered as before a r ∨ (before = as ∧ a = b ∧ ((o.after as).perform b).1 = r) := by
  constructor
  · rintro ⟨hcomes, hr⟩
    rcases List.prefix_concat_iff.mp hcomes with heq | hcomes
    · obtain ⟨rfl, hab⟩ := List.append_inj' heq rfl
      obtain rfl : a = b := by simpa using hab
      exact Or.inr ⟨rfl, rfl, hr⟩
    · exact Or.inl ⟨hcomes, hr⟩
  · rintro (⟨hcomes, hr⟩ | ⟨rfl, rfl, hr⟩)
    · exact ⟨hcomes.trans (List.prefix_append ..), hr⟩
    · exact ⟨List.prefix_refl _, hr⟩

/-- After the same steps a run comes to one step, to which one thing is said. -/
theorem Answered.unique {a' : Action} {r' : Reply} (h : o.Answered as before a r)
    (h' : o.Answered as before a' r') : a = a' ∧ r = r' := by
  have hsame : before ++ [a] = before ++ [a'] :=
    (List.prefix_of_prefix_length_le h.comes h'.comes (by simp)).eq_of_length (by simp)
  obtain rfl : a = a' := by simpa using hsame
  exact ⟨rfl, h.reply_eq.symm.trans h'.reply_eq⟩

/-- Of two steps that a run comes to, one is first unless they are the same. -/
theorem Answered.eq_or_answered {before' : List Action} {a' : Action} {r' : Reply}
    (h : o.Answered as before a r) (h' : o.Answered as before' a' r') :
    before = before' ∨ o.Answered before' before a r ∨ o.Answered before before' a' r' := by
  rcases List.prefix_or_prefix_of_prefix h.comes h'.comes with hcomes | hcomes
  · rcases List.prefix_concat_iff.mp hcomes with heq | hcomes
    · exact Or.inl (List.append_inj' heq rfl).1
    · exact Or.inr (Or.inl ⟨hcomes, h.reply_eq⟩)
  · rcases List.prefix_concat_iff.mp hcomes with heq | hcomes
    · exact Or.inl (List.append_inj' heq rfl).1.symm
    · exact Or.inr (Or.inr ⟨hcomes, h'.reply_eq⟩)

/-- Steps keep the orchestrator consistent. -/
theorem Consistent.after (h : o.Consistent) (as : List Action) : (o.after as).Consistent := by
  induction as using List.reverseRecOn with
  | nil => exact h
  | append_singleton as a ih =>
    rw [after_concat]
    exact ih.perform a

end Orchestrator

/-- An execution that another has become in the course of time. -/
structure Execution.Continues (e e' : Execution) : Prop where
  generation_eq : e'.generation = e.generation
  request_eq : e'.request = e.request
  cancelled : e.cancelled = true → e'.cancelled = true
  phase_eq_of_isOver : e.phase.isOver = true → e'.phase = e.phase

theorem Execution.Continues.trans {e e' e'' : Execution} (h : e.Continues e')
    (h' : e'.Continues e'') : e.Continues e'' where
  generation_eq := h'.generation_eq.trans h.generation_eq
  request_eq := h'.request_eq.trans h.request_eq
  cancelled hc := h'.cancelled (h.cancelled hc)
  phase_eq_of_isOver hover := by
    have heq := h.phase_eq_of_isOver hover
    rw [h'.phase_eq_of_isOver (by rw [heq, hover]), heq]

namespace Orchestrator

variable {o : Orchestrator} {as before : List Action} {a : Action} {r : Reply} {e e' : Execution}

theorem Follows.continues (h : o.Follows a e e') : e.Continues e' :=
  ⟨h.generation_eq, h.request_eq, fun hc => h.cancelled_iff.mpr (Or.inl hc), h.phase_eq_of_isOver⟩

namespace Consistent

/-- No execution is lost. -/
theorem exists_continues (h : o.Consistent) (he : e ∈ o.executions) (as : List Action) :
    ∃ e' ∈ (o.after as).executions, e.Continues e' := by
  induction as using List.reverseRecOn with
  | nil => exact ⟨e, he, rfl, rfl, id, fun _ => rfl⟩
  | append_singleton as a ih =>
    obtain ⟨e', he', hcontinues⟩ := ih
    obtain ⟨e'', he'', hfollows⟩ := (h.after as).exists_follows a he'
    rw [after_concat]
    exact ⟨e'', he'', hcontinues.trans hfollows.continues⟩

/-- What an execution has become in a step, it still is when more steps have followed. -/
theorem continues_of_answered (h : o.Consistent) (ha : o.Answered as before a r)
    (he : e ∈ ((o.after before).perform a).2.executions) (he' : e' ∈ (o.after as).executions)
    (hg : e'.generation = e.generation) : e.Continues e' := by
  obtain ⟨rest, rfl⟩ := ha.comes
  rw [← after_concat] at he
  obtain ⟨x, hx, hcontinues⟩ := (h.after (before ++ [a])).exists_continues he rest
  rw [← after_append] at hx
  rwa [← (h.after _).eq_of_generation_eq hx he' (hcontinues.generation_eq.trans hg.symm)]

end Consistent

/-! ## What a run has said -/

section New

variable {setup : Setup} {memory : Memory} {files : FileSystem}

/-- Every run leaves the orchestrator consistent. -/
theorem consistent_after : ((new setup memory files).after as).Consistent :=
  (consistent_new setup memory files).after as

/-- What holds of an execution when it begins and stays so as it goes on holds of all. -/
theorem execution_induction {P : List Action → Execution → Prop}
    (hbegins : ∀ as a e, ((new setup memory files).after as).Begins a e → P (as ++ [a]) e)
    (hfollows : ∀ as a e e', e ∈ ((new setup memory files).after as).executions → P as e →
      ((new setup memory files).after as).Follows a e e' → P (as ++ [a]) e')
    (he : e ∈ ((new setup memory files).after as).executions) : P as e := by
  induction as using List.reverseRecOn generalizing e with
  | nil => simp [new] at he
  | append_singleton as a ih =>
    rw [after_concat] at he
    rcases consistent_after.mem_executions_perform he with ⟨x, hx, hgoes⟩ | hnew
    · exact hfollows as a x e hx (ih hx) hgoes
    · exact hbegins as a e hnew

/-- An execution has published what its phase says. -/
theorem traced_of_mem (he : e ∈ ((new setup memory files).after as).executions) :
    e.Traced setup (((new setup memory files).after as).board.journal.eventsOf e.generation)
      e.phase := by
  have h := consistent_after.traced e he
  rw [setup_after] at h
  exact h

/-- Every execution is of a request that was admitted. -/
theorem exists_admitted_of_mem (he : e ∈ ((new setup memory files).after as).executions) :
    ∃ before, (new setup memory files).Answered as before (.submit e.request)
      (.admitted e.generation) := by
  refine execution_induction (P := fun as e => ∃ before, (new setup memory files).Answered as
    before (.submit e.request) (.admitted e.generation))
    (fun as a e hbegins => ?_) (fun as a e e' _ ih hfollows => ?_) he
  · exact ⟨as, answered_concat.mpr (Or.inr ⟨rfl, hbegins.action_eq.symm, hbegins.reply_eq⟩)⟩
  · obtain ⟨before, ha⟩ := ih
    rw [hfollows.generation_eq, hfollows.request_eq]
    exact ⟨before, answered_concat.mpr (Or.inl ha)⟩

/-- For every request that was admitted there is an execution. -/
theorem exists_execution_of_admitted {r : Request} {g : Nat}
    (ha : (new setup memory files).Answered as before (.submit r) (.admitted g)) :
    ∃ e ∈ ((new setup memory files).after as).executions, e.generation = g ∧ e.request = r := by
  obtain ⟨e, he, rfl, rfl, -⟩ := consistent_after.exists_begins ha.reply_eq
  obtain ⟨rest, rfl⟩ := ha.comes
  rw [← after_concat] at he
  obtain ⟨x, hx, hcontinues⟩ := consistent_after.exists_continues he rest
  rw [← after_append] at hx
  exact ⟨x, hx, hcontinues.generation_eq, hcontinues.request_eq⟩

/-- A generation that was given out is not given out again. -/
theorem not_admitted_of_admitted {r r' : Request} {g : Nat}
    (ha : (new setup memory files).Answered as before (.submit r) (.admitted g)) :
    (((new setup memory files).after as).perform (.submit r')).1 ≠ .admitted g := by
  intro hagain
  obtain ⟨e, he, hge, -⟩ := exists_execution_of_admitted ha
  obtain ⟨x, -, hgx, -, hbegins⟩ := consistent_after.exists_begins hagain
  exact absurd (hge.trans hgx.symm) (Nat.ne_of_lt (hbegins.newest e he))

/-- A generation is given out once. -/
theorem before_eq_of_admitted {before' : List Action} {r r' : Request} {g : Nat}
    (ha : (new setup memory files).Answered as before (.submit r) (.admitted g))
    (ha' : (new setup memory files).Answered as before' (.submit r') (.admitted g)) :
    before = before' := by
  rcases ha.eq_or_answered ha' with heq | hfirst | hfirst
  · exact heq
  · exact absurd ha'.reply_eq (not_admitted_of_admitted hfirst)
  · exact absurd ha.reply_eq (not_admitted_of_admitted hfirst)

/-- The execution with which a cancellation was answered is one of its identifier, was in flight,
and is cancelled since. -/
theorem cancelled_of_answered {id : RequestId}
    (ha : (new setup memory files).Answered as before (.cancel id)
      (.cancelled (some e.generation)))
    (he : e ∈ ((new setup memory files).after as).executions) :
    e.cancelled = true ∧ e.request.id = id ∧
      ∃ x ∈ ((new setup memory files).after before).executions,
        x.generation = e.generation ∧ x.isInFlight = true := by
  have hcancel : (((new setup memory files).after before).cancel id).1 = some e.generation := by
    simpa using ha.reply_eq
  obtain ⟨x, hx, hin, rfl, hg⟩ := consistent_after.fst_cancel_eq_some_iff.mp hcancel
  obtain ⟨x', hx', hfollows⟩ := consistent_after.exists_follows (.cancel x.request.id) hx
  have hcancelled := hfollows.cancelled_iff.mpr (Or.inr ⟨rfl, ha.reply_eq.trans (by rw [hg])⟩)
  have hcontinues := (consistent_new ..).continues_of_answered ha hx' he
    (hg.symm.trans hfollows.generation_eq.symm)
  refine ⟨hcontinues.cancelled hcancelled, ?_, x, hx, hg, hin⟩
  rw [hcontinues.request_eq, hfollows.request_eq]

/-- An execution is cancelled if and only if a cancellation was answered with it. -/
theorem cancelled_iff (he : e ∈ ((new setup memory files).after as).executions) :
    e.cancelled = true ↔ ∃ before, (new setup memory files).Answered as before
      (.cancel e.request.id) (.cancelled (some e.generation)) := by
  refine ⟨?_, fun ⟨before, ha⟩ => (cancelled_of_answered ha he).1⟩
  refine execution_induction (P := fun as e => e.cancelled = true → ∃ before,
    (new setup memory files).Answered as before (.cancel e.request.id)
      (.cancelled (some e.generation)))
    (fun as a e hbegins hc => ?_) (fun as a e e' _ ih hfollows hc => ?_) he
  · simp [hbegins.cancelled_eq_false] at hc
  · rw [hfollows.generation_eq, hfollows.request_eq]
    rcases hfollows.cancelled_iff.mp hc with hc | ⟨rfl, hr⟩
    · obtain ⟨before, ha⟩ := ih hc
      exact ⟨before, answered_concat.mpr (Or.inl ha)⟩
    · exact ⟨as, answered_concat.mpr (Or.inr ⟨rfl, rfl, hr⟩)⟩

/-- An execution with which a cancellation was answered is not cancelled again. -/
theorem not_cancelled_of_cancelled {id id' : RequestId} {g : Nat}
    (ha : (new setup memory files).Answered as before (.cancel id) (.cancelled (some g))) :
    (((new setup memory files).after as).perform (.cancel id')).1 ≠ .cancelled (some g) := by
  intro hagain
  have hcancel : (((new setup memory files).after as).cancel id').1 = some g := by
    simpa using hagain
  obtain ⟨x, hx, hin, -, rfl⟩ := consistent_after.fst_cancel_eq_some_iff.mp hcancel
  simp [Execution.isInFlight, (cancelled_of_answered ha hx).1] at hin

/-- A generation is cancelled once. -/
theorem before_eq_of_cancelled {before' : List Action} {id id' : RequestId} {g : Nat}
    (ha : (new setup memory files).Answered as before (.cancel id) (.cancelled (some g)))
    (ha' : (new setup memory files).Answered as before' (.cancel id') (.cancelled (some g))) :
    before = before' := by
  rcases ha.eq_or_answered ha' with heq | hfirst | hfirst
  · exact heq
  · exact absurd ha'.reply_eq (not_cancelled_of_cancelled hfirst)
  · exact absurd ha.reply_eq (not_cancelled_of_cancelled hfirst)

/-- An execution is dropped if and only if it was given up before it was over. -/
theorem dropped_iff (he : e ∈ ((new setup memory files).after as).executions) :
    e.phase = .dropped ↔ (new setup memory files).GivenUp as e.generation := by
  constructor
  · refine execution_induction (P := fun as e => e.phase = .dropped →
      (new setup memory files).GivenUp as e.generation) (fun as a e hbegins hphase => ?_)
      (fun as a e e' hmem ih hfollows hphase => ?_) he
    · exact absurd hphase hbegins.phase_ne_dropped
    · rw [hfollows.generation_eq]
      rcases hfollows.dropped_iff.mp hphase with hphase | ⟨rfl, hover⟩
      · obtain ⟨before, hcomes, hx⟩ := ih hphase
        exact ⟨before, hcomes.trans (List.prefix_append ..), hx⟩
      · exact ⟨as, List.prefix_refl _, e, hmem, rfl, hover⟩
  · rintro ⟨before, hcomes, x, hx, hg, hover⟩
    obtain ⟨x', hx', hfollows⟩ :=
      consistent_after.exists_follows (.drop e.generation) hx
    have hdropped := hfollows.dropped_iff.mpr (Or.inr ⟨by rw [hg], hover⟩)
    have hcontinues := (consistent_new ..).continues_of_answered ⟨hcomes, rfl⟩ hx' he
      (hg.symm.trans hfollows.generation_eq.symm)
    rw [hcontinues.phase_eq_of_isOver (by simp [hdropped, Phase.isOver]), hdropped]

end New

end Orchestrator

end Switchboard
