import Switchboard.Proofs.Orchestration.Isolation

/-!
# Runs on time

The schedule lets no instant pass for which an execution waits: before every operation each
execution waits for the present or for the future (`Punctual`). Steps that keep to this are on time
(`OnTime`), whatever their interleaving. All that the schedule does is on time
(`Punctual.exists_driveFor`, `Punctual.exists_advance`), and so is a scenario
(`Punctual.exists_play`).
-/

namespace Switchboard

namespace Orchestrator

variable {o : Orchestrator} {a : Action} {as bs : List Action} {g : Nat} {r : Request}

/-- No execution waits for an instant that has passed. -/
def Punctual (o : Orchestrator) : Prop :=
  ∀ e ∈ o.executions, ∀ i, e.phase.wake = some i → o.now ≤ i

/-- A step lets no instant pass for which an execution waits. -/
def Allows (o : Orchestrator) : Action → Prop
  | .pass millis => ∀ e ∈ o.executions, ∀ i, e.phase.wake = some i → o.now + millis ≤ i
  | _ => True

/-- No instant for which an execution waits passes in the course of the steps. -/
def OnTime (o : Orchestrator) : List Action → Prop
  | [] => True
  | a :: as => o.Allows a ∧ (o.perform a).2.OnTime as

theorem onTime_append : o.OnTime (as ++ bs) ↔ o.OnTime as ∧ (o.after as).OnTime bs := by
  induction as generalizing o with
  | nil => simp [OnTime]
  | cons a as ih =>
    rw [List.cons_append, OnTime, OnTime, ih, and_assoc]
    rfl

theorem onTime_concat : o.OnTime (as ++ [a]) ↔ o.OnTime as ∧ (o.after as).Allows a := by
  simp [onTime_append, OnTime]

theorem onTime_polls (o : Orchestrator) (gs : List Nat) : o.OnTime (gs.map .poll) := by
  induction gs generalizing o with
  | nil => trivial
  | cons g gs ih => exact ⟨trivial, ih _⟩

namespace Punctual

/-- A poll keeps an orchestrator punctual. -/
theorem poll (h : o.Punctual) (hconsistent : o.Consistent) (g : Nat) : (o.poll g).Punctual := by
  unfold Punctual
  rw [now_poll]
  exact hconsistent.forall_letExecution hconsistent.turns_poll (fun e he _ => h e he)
    fun e _ _ i hi => Nat.le_of_lt (Ticket.lt_wake_poll hi)

theorem drop (h : o.Punctual) (hconsistent : o.Consistent) (g : Nat) : (o.drop g).Punctual := by
  unfold Punctual
  rw [now_drop]
  exact hconsistent.forall_letExecution hconsistent.turns_drop (fun e he _ => h e he)
    fun e _ _ i hi => by simp [Execution.wake_drop] at hi

theorem cancel (h : o.Punctual) (id : RequestId) : (o.cancel id).2.Punctual := by
  unfold Punctual
  rw [now_cancel]
  exact forall_cancel id h h

theorem submit (h : o.Punctual) (hconsistent : o.Consistent) (r : Request) :
    (o.submit r).2.Punctual := by
  cases hr : o.board.inFlight.register r.id with
  | error f => rwa [submit_eq_error hr]
  | ok taken =>
    obtain ⟨g, f⟩ := taken
    rw [hconsistent.submit_eq_ok hr]
    refine Punctual.poll (fun e he i hi => ?_) (hconsistent.enrol hr) g
    rcases mem_executions_enrol.mp he with he | rfl
    · exact h e he i hi
    · obtain rfl : o.now + o.setup.models.listingDelay = i := by
        simpa [entrant, Phase.wake] using hi
      exact Nat.le_add_right _ _

/-- A step that is allowed keeps an orchestrator punctual. -/
theorem perform (h : o.Punctual) (hconsistent : o.Consistent) (ha : o.Allows a) :
    (o.perform a).2.Punctual := by
  cases a with
  | submit r => simpa using h.submit hconsistent r
  | cancel id => exact h.cancel id
  | drop g => exact h.drop hconsistent g
  | poll g => exact h.poll hconsistent g
  | pass millis => exact ha

/-- After steps on time no execution waits for an instant that has passed. -/
theorem after (h : o.Punctual) (hconsistent : o.Consistent) (has : o.OnTime as) :
    (o.after as).Punctual := by
  induction as using List.reverseRecOn with
  | nil => exact h
  | append_singleton as a ih =>
    obtain ⟨has, ha⟩ := onTime_concat.mp has
    rw [after_concat]
    exact (ih has).perform (hconsistent.after as) ha

end Punctual

/-- A new orchestrator is punctual. -/
theorem punctual_new (setup : Setup) (memory : Memory) (files : FileSystem) :
    (new setup memory files).Punctual := by
  simp [Punctual, new]

/-! ## The schedule is on time -/

variable {stop : Orchestrator → Bool} {limit : Option Nat} {fuel t millis : Nat}

/-- The next instant is not after any that is waited for. -/
theorem le_of_nextWake {e : Execution} {i : Nat} (ht : o.nextWake = some t)
    (he : e ∈ o.executions) (hi : e.phase.wake = some i) : t ≤ i := by
  obtain ⟨t', ht', hle⟩ := exists_nextWake_le he hi
  obtain rfl := Option.some.inj (ht.symm.trans ht')
  exact hle

/-- To reach the next instant is on time. -/
theorem Punctual.onTime_reachSteps (h : o.Punctual) (ht : o.nextWake = some t) :
    o.OnTime (o.reachSteps t) := by
  refine ⟨fun e he i hi => ?_, onTime_polls _ _⟩
  have hle := le_of_nextWake ht he hi
  have hnow := h e he i hi
  omega

/-- What the schedule does from instant to instant are steps of its own on time. -/
theorem Punctual.exists_driveFor (h : o.Punctual) (hconsistent : o.Consistent)
    (stop : Orchestrator → Bool) (limit : Option Nat) (fuel : Nat) :
    ∃ bs, (∀ a ∈ bs, a.isInternal = true) ∧ o.OnTime bs ∧
      driveFor stop limit fuel o = o.after bs := by
  refine driveFor_induction (P := fun o' => ∃ bs, (∀ a ∈ bs, a.isInternal = true) ∧ o.OnTime bs ∧
    o' = o.after bs) stop limit fuel ⟨[], by simp, trivial, rfl⟩ ?_
  rintro _ t ⟨bs, hbs, hontime, rfl⟩ ht
  have hpunctual := h.after hconsistent hontime
  refine ⟨bs ++ (o.after bs).reachSteps t, fun a ha => ?_, ?_, ?_⟩
  · rcases List.mem_append.mp ha with ha | ha
    · exact hbs a ha
    · exact isInternal_of_mem_reachSteps ha
  · exact onTime_append.mpr ⟨hontime, hpunctual.onTime_reachSteps ht⟩
  · rw [after_append, reach_eq_after]

/-- Waiting for executions is a run on time. -/
theorem Punctual.exists_await (h : o.Punctual) (hconsistent : o.Consistent) (gs : List Nat) :
    ∃ bs, (∀ a ∈ bs, a.isInternal = true) ∧ o.OnTime bs ∧ o.await gs = o.after bs :=
  h.exists_driveFor hconsistent _ _ _

/-- With fuel for all waits, nothing is left to wait for within the limit. -/
theorem nextWithin_driveFor (hconsistent : o.Consistent) (limit : Option Nat)
    (hfuel : o.waits < fuel) :
    (driveFor (fun _ => false) limit fuel o).nextWithin limit = none := by
  induction fuel generalizing o with
  | zero => omega
  | succ fuel ih =>
    simp only [driveFor, Bool.false_eq_true, if_false]
    cases ht : o.nextWake with
    | none => simp [nextWithin, ht]
    | some t =>
      cases hlimit : limit.all (t ≤ ·) with
      | false => simp [nextWithin, ht, hlimit, Option.filter]
      | true =>
        have hlt := hconsistent.waits_reach_lt ht
        have hconsistent' := hconsistent.after (o.reachSteps t)
        rw [← reach_eq_after] at hconsistent'
        simp only [hlimit, if_true]
        exact ih hconsistent' (by omega)

/-- To let time pass is on time. -/
theorem Punctual.exists_advance (h : o.Punctual) (hconsistent : o.Consistent) (millis : Nat) :
    ∃ bs, (∀ a ∈ bs, a.isInternal = true) ∧ o.OnTime bs ∧ o.advance millis = o.after bs := by
  obtain ⟨bs, hbs, hontime, heq⟩ := h.exists_driveFor hconsistent (fun _ => false)
    (some (o.now + millis)) (o.waits + 1)
  have hnone := nextWithin_driveFor hconsistent (some (o.now + millis))
    (Nat.lt_succ_self o.waits)
  rw [heq] at hnone
  refine ⟨bs ++ [.pass (o.now + millis - (o.after bs).now)], ?_, ?_, ?_⟩
  · intro a ha
    rcases List.mem_append.mp ha with ha | ha
    · exact hbs a ha
    · rw [List.mem_singleton.mp ha]
      rfl
  · refine onTime_concat.mpr ⟨hontime, fun e he i hi => ?_⟩
    have hnow := h.after hconsistent hontime e he i hi
    have hlimit : ¬ i ≤ o.now + millis := fun hle => by
      have hwithin : (some (o.now + millis)).all (i ≤ ·) = true := by simpa using hle
      obtain ⟨t, ht, -⟩ := exists_nextWithin_le he hi hwithin
      simp [hnone] at ht
    omega
  · rw [after_concat, perform_pass, ← heq]
    rfl

/-- Obeying a command is a run on time. -/
theorem Punctual.exists_obey (h : o.Punctual) (hconsistent : o.Consistent) (c : Command) :
    ∃ bs, o.OnTime bs ∧ (o.obey c).2 = o.after bs := by
  have hstay : ∃ bs, o.OnTime bs ∧ o = o.after bs := ⟨[], trivial, rfl⟩
  cases c with
  | submit r => exact ⟨[.submit r], ⟨trivial, trivial⟩, (snd_perform_submit o r).symm⟩
  | cancel id =>
    simp only [obey, interrupt_eq]
    split
    case h_1 g _ => exact ⟨[.cancel id, .poll g], ⟨trivial, trivial, trivial⟩, rfl⟩
    case h_2 => exact hstay
  | drop id place =>
    simp only [obey]
    cases (o.generationsOf id)[place]? with
    | none => exact hstay
    | some g => exact ⟨[.drop g], ⟨trivial, trivial⟩, rfl⟩
  | wait millis =>
    obtain ⟨bs, -, hontime, heq⟩ := h.exists_advance hconsistent millis
    exact ⟨bs, hontime, heq⟩

/-- What happens in a scenario are steps on time. -/
theorem Punctual.exists_play (h : o.Punctual) (hconsistent : o.Consistent)
    (commands : List Command) :
    ∃ bs, o.OnTime bs ∧ (o.play commands).2 = o.after bs := by
  induction commands generalizing o with
  | nil => exact ⟨[], trivial, rfl⟩
  | cons c commands ih =>
    obtain ⟨bs, hontime, heq⟩ := h.exists_obey hconsistent c
    have hpunctual := h.after hconsistent hontime
    have hconsistent' := hconsistent.after bs
    rw [← heq] at hpunctual hconsistent'
    obtain ⟨bs', hontime', heq'⟩ := ih hpunctual hconsistent'
    refine ⟨bs ++ bs', onTime_append.mpr ⟨hontime, heq ▸ hontime'⟩, ?_⟩
    rw [after_append, ← heq, ← heq']
    rfl

end Orchestrator

end Switchboard
