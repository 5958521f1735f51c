import Switchboard.Proofs.Orchestration.Sight

/-!
# The instants at which something is seen

After every operation of the schedule the executions wait for instants that are still to come
(`Idle`). The instants of other identifiers add nothing to what is seen of one: two orchestrators
in which the same is seen of an identifier may reach different instants, but those at which its
executions have something to do are the same, and there they do the same (`Driven.sight_eq`). So
after the same time the same is seen (`sight_advance`), and in the end (`sight_awaitAll`).
-/

namespace Switchboard

namespace Dispatch

variable {d : Dispatch} {fs : FileSystem} {now i : Nat}

theorem lt_wake_startNext {records : List ToolRecord} {tools : List Tool}
    (h : (d.startNext fs now records tools).wake = some i) : now < i := by
  induction tools generalizing records with
  | nil => simp [startNext, wake] at h
  | cons t rest ih =>
    rw [startNext] at h
    split at h
    case h_1 => exact ih h
    case h_2 hnone =>
      obtain rfl : _ = i := by simpa [wake] using h
      exact PendingTool.poll_eq_none_iff.mp hnone

theorem lt_wake_poll (h : (d.poll fs now).wake = some i) : now < i := by
  unfold Dispatch.poll at h
  split at h
  case h_1 hnone => simp [wake, hnone] at h
  case h_2 began p hrunning =>
    split at h
    case h_1 hnone =>
      obtain rfl : _ = i := by simpa [wake, hrunning] using h
      exact PendingTool.poll_eq_none_iff.mp hnone
    case h_2 => exact lt_wake_startNext h

end Dispatch

namespace Ticket

variable {s : Setup} {t : Ticket} {b : Board} {i : Nat}

theorem wake_settle (account : Account) (answer : Answer) :
    (t.settle b account answer).1.wake = none := by
  unfold settle
  split <;> rfl

theorem lt_wake_pollSaving {account : Account} {answer : Answer} {write : Timed}
    (h : (t.pollSaving s b account answer write).1.wake = some i) : b.now < i := by
  unfold pollSaving at h
  split at h
  case h_1 => simp [wake_settle] at h
  case h_2 => simp [wake_settle] at h
  case h_3 hwaiting =>
    obtain rfl : write.wake = i := by simpa [Phase.wake] using h
    exact Timed.progress_eq_waiting_iff.mp hwaiting

theorem lt_wake_pollCalling {account : Account} {pending : PendingCall}
    (h : (t.pollCalling s b account pending).1.wake = some i) : b.now < i := by
  unfold pollCalling at h
  split at h
  case h_1 output houtput =>
    rw [beginSaving, if_neg (by simp [PendingCall.cancelled_eq_false_of_poll houtput])] at h
    exact lt_wake_pollSaving h
  case h_2 => simp [fail, Phase.wake] at h
  case h_3 hnone =>
    obtain rfl : pending.timed.wake = i := by simpa [Phase.wake] using h
    exact PendingCall.lt_wake_of_poll_eq_none hnone

theorem lt_wake_pollGathering {model : ModelDescriptor} {readDue : Nat}
    {known : Option Recollection} {tools : Dispatch}
    (h : (t.pollGathering s b model readDue known tools).1.wake = some i) : b.now < i := by
  unfold pollGathering at h
  dsimp only at h
  split at h
  case h_1 =>
    unfold beginCalling at h
    dsimp only at h
    split at h
    · simp [fail, Phase.wake] at h
    · exact lt_wake_pollCalling (b := b.note .. |>.note ..) h
  case h_2 =>
    rcases List.mem_append.mp (List.min?_mem h) with hread | htools
    · cases hrecollect : t.recollect s b readDue known with
      | some k => simp [hrecollect] at hread
      | none =>
        obtain rfl : i = readDue := by simpa [hrecollect] using hread
        have hnot : ¬ i ≤ b.now := by
          intro hle
          simp [recollect, hle] at hrecollect
        omega
    · exact Dispatch.lt_wake_poll (Option.mem_toList.mp htools)

/-- After a poll an execution waits for an instant that is still to come. -/
theorem lt_wake_poll {phase : Phase} (h : (t.poll s b phase).1.wake = some i) : b.now < i := by
  cases phase with
  | selecting due =>
    simp only [poll, pollSelecting] at h
    split at h
    case isTrue =>
      split at h
      · unfold beginGathering at h
        exact lt_wake_pollGathering (b := Board.note { b with currentModel := _ } ..) h
      · simp [fail, Phase.wake] at h
    case isFalse hnot =>
      obtain rfl : due = i := by simpa [Phase.wake] using h
      omega
  | gathering model readDue known tools => exact lt_wake_pollGathering h
  | calling account pending => exact lt_wake_pollCalling h
  | saving account answer write => exact lt_wake_pollSaving h
  | ended r => simp [poll, Phase.wake] at h
  | dropped => simp [poll, Phase.wake] at h

end Ticket

/-- A dropped execution waits for nothing. -/
theorem Execution.wake_drop {e : Execution} {b : Board} : (e.drop b).1.phase.wake = none := by
  unfold Execution.drop
  split
  case isTrue hover => cases hphase : e.phase <;> simp_all [Phase.isOver, Phase.wake]
  case isFalse => rfl

namespace Orchestrator

variable {o o₁ o₂ : Orchestrator} {id : RequestId} {e : Execution} {g t : Nat} {gs : List Nat}

/-- All executions wait for instants that are still to come. -/
def Idle (o : Orchestrator) : Prop :=
  ∀ e ∈ o.executions, ∀ i, e.phase.wake = some i → o.now < i

/-- A plain orchestrator between two operations of the schedule. -/
structure Steady (o : Orchestrator) : Prop extends o.Plain where
  idle : o.Idle

theorem Plain.pass (h : o.Plain) (millis : Nat) : (o.pass millis).Plain :=
  ⟨h.consistent.pass millis, h.setup, h.phase⟩

theorem Plain.foldl_poll (h : o.Plain) (gs : List Nat) : (gs.foldl Orchestrator.poll o).Plain := by
  induction gs generalizing o with
  | nil => exact h
  | cons g gs ih => exact ih (h.poll g)

theorem now_foldl_poll (gs : List Nat) : (gs.foldl Orchestrator.poll o).now = o.now := by
  induction gs generalizing o with
  | nil => rfl
  | cons g gs ih => exact ih.trans now_poll

theorem Plain.generationsOf_foldl_poll (h : o.Plain) (gs : List Nat) :
    (gs.foldl Orchestrator.poll o).generationsOf id = o.generationsOf id := by
  induction gs generalizing o with
  | nil => rfl
  | cons g gs ih => exact (ih (h.poll g)).trans h.consistent.generationsOf_poll

/-- Executions at the same places that are polled do the same, as far as is seen. -/
theorem sight_foldl_poll (h₁ : o₁.Plain) (h₂ : o₂.Plain) (hsight : o₁.sight id = o₂.sight id)
    (hnow : o₁.now = o₂.now) {gs₁ gs₂ : List Nat}
    (hmatched : List.Forall₂ (Matched id o₁ o₂) gs₁ gs₂) :
    (gs₁.foldl poll o₁).sight id = (gs₂.foldl poll o₂).sight id := by
  induction gs₁ generalizing o₁ o₂ gs₂ with
  | nil =>
    cases hmatched
    exact hsight
  | cons g₁ gs₁ ih =>
    cases hmatched with
    | cons hfirst hrest =>
      refine ih (h₁.poll _) (h₂.poll _) (sight_poll h₁ h₂ hsight hnow hfirst) ?_ ?_
      · rw [now_poll, now_poll, hnow]
      · refine hrest.imp fun a b hab => ?_
        unfold Matched at hab ⊢
        rwa [h₁.consistent.generationsOf_poll, h₂.consistent.generationsOf_poll]

/-- Polls of executions of other identifiers are not seen. -/
theorem Plain.sight_foldl_poll_filter (h : o.Plain) (gs : List Nat) :
    (gs.foldl Orchestrator.poll o).sight id =
      ((gs.filter (· ∈ o.generationsOf id)).foldl Orchestrator.poll o).sight id := by
  induction gs generalizing o with
  | nil => rfl
  | cons g gs ih =>
    have hrest := ih (h.poll g)
    rw [h.consistent.generationsOf_poll] at hrest
    rw [List.foldl_cons, hrest]
    by_cases hg : g ∈ o.generationsOf id
    · rw [List.filter_cons_of_pos (by simpa using hg), List.foldl_cons]
    · rw [List.filter_cons_of_neg (by simpa using hg)]
      refine sight_foldl_poll (h.poll g) h (h.sight_poll_of_notMem hg) now_poll ?_
      refine List.forall₂_same.mpr fun x hx => ?_
      have hx : x ∈ o.generationsOf id := by simpa using (List.mem_filter.mp hx).2
      obtain ⟨n, hn⟩ := List.mem_iff_getElem?.mp hx
      exact ⟨n, by rw [h.consistent.generationsOf_poll, hn], hn⟩

/-! ## Reaching an instant -/

/-- The executions of an identifier that have something to do at the current instant. -/
def dueOf (o : Orchestrator) (id : RequestId) : List Nat :=
  ((o.executionsOf id).filter fun e => e.phase.wake.any (· ≤ o.now)).map (·.generation)

/-- What is due for an identifier is its share of what is due. -/
theorem Consistent.filter_due (h : o.Consistent) :
    o.due.filter (· ∈ o.generationsOf id) = o.dueOf id := by
  unfold due dueOf executionsOf
  rw [List.filter_map, List.filter_filter, List.filter_filter]
  refine congrArg _ (List.filter_congr fun e he => ?_)
  simp only [Function.comp_apply, h.mem_generationsOf_iff he]
  exact Bool.and_comm ..

/-- From equal sights the executions at the same places are due. -/
theorem forall₂_matched_dueOf (hsight : o₁.sight id = o₂.sight id) (hnow : o₁.now = o₂.now) :
    List.Forall₂ (Matched id o₁ o₂) (o₁.dueOf id) (o₂.dueOf id) := by
  have hboth : List.Forall₂ (fun e₁ e₂ => Seen e₁ e₂ ∧
      Matched id o₁ o₂ e₁.generation e₂.generation) (o₁.executionsOf id) (o₂.executionsOf id) := by
    refine List.forall₂_iff_get.mpr ⟨length_executionsOf_eq hsight, fun n hn₁ hn₂ => ?_⟩
    have hget₁ := List.getElem?_eq_getElem hn₁
    have hget₂ := List.getElem?_eq_getElem hn₂
    exact ⟨seen_of_getElem? hsight hget₁ hget₂, matched_of_getElem? hget₁ hget₂⟩
  unfold dueOf
  rw [List.forall₂_map_left_iff, List.forall₂_map_right_iff]
  refine (List.rel_filter (fun e₁ e₂ he => ?_) hboth).imp fun _ _ he => he.2
  simp only [he.1.wake_eq, hnow]

theorem now_pass_of_le (hle : o.now ≤ t) : (o.pass (t - o.now)).now = t :=
  Nat.add_sub_of_le hle

/-- To an identifier, reaching an instant is polling what is due for it. -/
theorem Plain.sight_reach (h : o.Plain) :
    (o.reach t).sight id = (((o.pass (t - o.now)).dueOf id).foldl Orchestrator.poll
      (o.pass (t - o.now))).sight id := by
  rw [reach, (h.pass _).sight_foldl_poll_filter, (h.pass _).consistent.filter_due]

/-- Reaching an instant keeps an orchestrator plain. -/
theorem Plain.reach (h : o.Plain) (t : Nat) : (o.reach t).Plain :=
  (h.pass _).foldl_poll _

theorem now_reach (hle : o.now ≤ t) : (o.reach t).now = t :=
  (now_foldl_poll _).trans (now_pass_of_le hle)

theorem Plain.generationsOf_reach (h : o.Plain) :
    (o.reach t).generationsOf id = o.generationsOf id :=
  (h.pass _).generationsOf_foldl_poll _

/-- Two orchestrators in which the same is seen reach an instant in the same way. -/
theorem sight_reach (h₁ : o₁.Plain) (h₂ : o₂.Plain) (hsight : o₁.sight id = o₂.sight id)
    (hle₁ : o₁.now ≤ t) (hle₂ : o₂.now ≤ t) : (o₁.reach t).sight id = (o₂.reach t).sight id := by
  have hnow : (o₁.pass (t - o₁.now)).now = (o₂.pass (t - o₂.now)).now :=
    (now_pass_of_le hle₁).trans (now_pass_of_le hle₂).symm
  have hpass : (o₁.pass (t - o₁.now)).sight id = (o₂.pass (t - o₂.now)).sight id := hsight
  rw [h₁.sight_reach, h₂.sight_reach]
  exact sight_foldl_poll (h₁.pass _) (h₂.pass _) hpass hnow (forall₂_matched_dueOf hpass hnow)

/-- An instant at which no execution of an identifier has anything to do is not seen. -/
theorem Plain.sight_reach_of_lt (h : o.Plain) (hle : o.now ≤ t)
    (hlt : ∀ e ∈ o.executionsOf id, ∀ i, e.phase.wake = some i → t < i) :
    (o.reach t).sight id = o.sight id := by
  have hnone : (o.pass (t - o.now)).dueOf id = [] := by
    refine List.map_eq_nil_iff.mpr (List.filter_eq_nil_iff.mpr fun e he => ?_)
    rw [now_pass_of_le hle, Option.any_eq_true]
    rintro ⟨i, hi, hit⟩
    have hti : t < i := hlt e he i hi
    simp only [decide_eq_true_eq] at hit
    omega
  rw [h.sight_reach, hnone]
  rfl

theorem Plain.idle_foldl_poll (h : o.Plain) (hgs : ∀ e ∈ o.executions, e.generation ∉ gs →
    ∀ i, e.phase.wake = some i → o.now < i) : (gs.foldl Orchestrator.poll o).Idle := by
  induction gs generalizing o with
  | nil => exact fun e he => hgs e he List.not_mem_nil
  | cons g gs ih =>
    refine ih (h.poll g) ?_
    rw [now_poll]
    exact h.consistent.forall_letExecution h.consistent.turns_poll
      (fun e he hg hnot => hgs e he (by simp [hg, hnot]))
      fun e _ _ _ i hi => Ticket.lt_wake_poll hi

/-- After an instant is reached nothing is due. -/
theorem Plain.idle_reach (h : o.Plain) (t : Nat) : (o.reach t).Idle := by
  refine (h.pass _).idle_foldl_poll fun e he hnot i hi => Nat.lt_of_not_le fun hle => hnot ?_
  exact List.mem_map.mpr ⟨e, List.mem_filter.mpr ⟨he, by simpa [hi] using hle⟩, rfl⟩

theorem Consistent.map_generation_poll (h : o.Consistent) :
    (o.poll g).executions.map (·.generation) = o.executions.map (·.generation) := by
  rw [h.executions_poll, List.map_map]
  refine List.map_congr_left fun e _ => ?_
  simp only [Function.comp_apply]
  split <;> rfl

theorem Plain.map_generation_reach (h : o.Plain) :
    (o.reach t).executions.map (·.generation) = o.executions.map (·.generation) := by
  have hfoldl : ∀ (gs : List Nat) {o : Orchestrator}, o.Plain →
      (gs.foldl Orchestrator.poll o).executions.map (·.generation) =
        o.executions.map (·.generation) := by
    intro gs
    induction gs with
    | nil => exact fun _ => rfl
    | cons g gs ih => exact fun h => (ih (h.poll g)).trans h.consistent.map_generation_poll
  exact hfoldl _ (h.pass _)

/-! ## From instant to instant -/

/-- The next instant, if it is not beyond the limit. -/
def nextWithin (o : Orchestrator) (limit : Option Nat) : Option Nat :=
  o.nextWake.filter fun t => limit.all (t ≤ ·)

variable {stop stop₁ stop₂ : Orchestrator → Bool} {limit : Option Nat} {fuel fuel₁ fuel₂ : Nat}
  {i millis : Nat}

theorem nextWithin_eq_some_iff : o.nextWithin limit = some t ↔
    o.nextWake = some t ∧ limit.all (t ≤ ·) = true := by
  simp [nextWithin, Option.filter_eq_some_iff]

/-- The next instant is not after any that is waited for. -/
theorem exists_nextWake_le (he : e ∈ o.executions) (hi : e.phase.wake = some i) :
    ∃ t, o.nextWake = some t ∧ t ≤ i := by
  have hmem : i ∈ o.executions.filterMap (·.phase.wake) := List.mem_filterMap.mpr ⟨e, he, hi⟩
  obtain ⟨t, ht⟩ := Option.isSome_iff_exists.mp (List.isSome_min?_of_mem hmem)
  exact ⟨t, ht, (List.min?_eq_some_iff.mp ht).2 i hmem⟩

/-- An execution that waits for an instant within the limit does not wait for one before the
next. -/
theorem exists_nextWithin_le (he : e ∈ o.executions) (hi : e.phase.wake = some i)
    (hlimit : limit.all (i ≤ ·) = true) : ∃ t, o.nextWithin limit = some t ∧ t ≤ i := by
  obtain ⟨t, ht, hle⟩ := exists_nextWake_le he hi
  refine ⟨t, nextWithin_eq_some_iff.mpr ⟨ht, ?_⟩, hle⟩
  cases limit with
  | none => rfl
  | some l =>
    simp only [Option.all_some, decide_eq_true_eq] at hlimit ⊢
    omega

/-- The orchestrator can be driven on: there is fuel for all waits, the limit is not passed, and
it is only to stop when there is nothing to wait for. -/
structure Driven (stop : Orchestrator → Bool) (limit : Option Nat) (fuel : Nat)
    (o : Orchestrator) : Prop extends o.Steady where
  waits_lt : o.waits < fuel
  now_le : ∀ t, limit = some t → o.now ≤ t
  stops : ∀ o' : Orchestrator, o'.Consistent →
    o'.executions.map (·.generation) = o.executions.map (·.generation) →
    stop o' = true → o'.nextWake = none

namespace Driven

theorem driveFor_eq (h : Driven stop limit (fuel + 1) o) :
    driveFor stop limit (fuel + 1) o = match o.nextWithin limit with
      | some t => driveFor stop limit fuel (o.reach t)
      | none => o := by
  rw [driveFor, nextWithin]
  cases hstop : stop o with
  | true => simp [h.stops o h.consistent rfl hstop]
  | false =>
    cases hwake : o.nextWake with
    | none => simp
    | some t => cases hlimit : limit.all (t ≤ ·) <;> simp [Option.filter, hlimit]

theorem lt_of_nextWithin (h : Driven stop limit fuel o) (ht : o.nextWithin limit = some t) :
    o.now < t := by
  obtain ⟨e, he, hi⟩ := List.mem_filterMap.mp (List.min?_mem (nextWithin_eq_some_iff.mp ht).1)
  exact h.idle e he t hi

/-- Once the next instant is reached, one unit less of fuel is enough. -/
theorem reach (h : Driven stop limit (fuel + 1) o) (ht : o.nextWithin limit = some t) :
    Driven stop limit fuel (o.reach t) where
  toPlain := h.toPlain.reach t
  idle := h.toPlain.idle_reach t
  waits_lt := by
    have hlt := h.consistent.waits_reach_lt (nextWithin_eq_some_iff.mp ht).1
    have hfuel := h.waits_lt
    omega
  now_le l hl := by
    rw [now_reach (Nat.le_of_lt (h.lt_of_nextWithin ht))]
    simpa [hl] using (nextWithin_eq_some_iff.mp ht).2
  stops o' hconsistent hgenerations :=
    h.stops o' hconsistent (hgenerations.trans h.toPlain.map_generation_reach)

/-- An instant that comes before all instants of another orchestrator in which the same is seen is
not seen. -/
theorem sight_reach_eq (h : Driven stop limit fuel o₁) (hsight : o₁.sight id = o₂.sight id)
    (ht : o₁.nextWithin limit = some t) (hlt : ∀ t', o₂.nextWithin limit = some t' → t < t') :
    (o₁.reach t).sight id = o₁.sight id := by
  refine h.toPlain.sight_reach_of_lt (Nat.le_of_lt (h.lt_of_nextWithin ht)) fun e he i hi => ?_
  refine Nat.lt_of_not_le fun hle => ?_
  obtain ⟨n, hn⟩ := List.mem_iff_getElem?.mp he
  obtain ⟨hn₁, -⟩ := List.getElem?_eq_some_iff.mp hn
  have hn₂ := List.getElem?_eq_getElem (length_executionsOf_eq hsight ▸ hn₁)
  have hi₂ := (seen_of_getElem? hsight hn hn₂).wake_eq.symm.trans hi
  have hlimit : limit.all (i ≤ ·) = true := by
    have hall := (nextWithin_eq_some_iff.mp ht).2
    cases limit with
    | none => rfl
    | some l =>
      simp only [Option.all_some, decide_eq_true_eq] at hall ⊢
      omega
  obtain ⟨t', ht', hle'⟩ :=
    exists_nextWithin_le (mem_executionsOf.mp (List.mem_of_getElem? hn₂)).1 hi₂ hlimit
  have hbefore := hlt t' ht'
  omega

/-- Two orchestrators in which the same is seen are driven on alike, as far as is seen. -/
theorem sight_eq (h₁ : Driven stop₁ limit fuel₁ o₁) (h₂ : Driven stop₂ limit fuel₂ o₂)
    (hsight : o₁.sight id = o₂.sight id) :
    (driveFor stop₁ limit fuel₁ o₁).sight id = (driveFor stop₂ limit fuel₂ o₂).sight id := by
  induction hfuel : fuel₁ + fuel₂ using Nat.strong_induction_on
    generalizing fuel₁ fuel₂ o₁ o₂ with
  | _ total ih =>
    obtain ⟨fuel₁, rfl⟩ := Nat.exists_eq_succ_of_ne_zero (Nat.ne_zero_of_lt h₁.waits_lt)
    obtain ⟨fuel₂, rfl⟩ := Nat.exists_eq_succ_of_ne_zero (Nat.ne_zero_of_lt h₂.waits_lt)
    -- The one whose next instant comes first goes on alone, and what it does is not seen.
    have hleft : ∀ t₁, o₁.nextWithin limit = some t₁ →
        (∀ t', o₂.nextWithin limit = some t' → t₁ < t') →
        (driveFor stop₁ limit (fuel₁ + 1) o₁).sight id =
          (driveFor stop₂ limit (fuel₂ + 1) o₂).sight id := by
      intro t₁ ht₁ hlt
      rw [h₁.driveFor_eq, ht₁]
      exact ih _ (by omega) (h₁.reach ht₁) h₂ ((h₁.sight_reach_eq hsight ht₁ hlt).trans hsight) rfl
    have hright : ∀ t₂, o₂.nextWithin limit = some t₂ →
        (∀ t', o₁.nextWithin limit = some t' → t₂ < t') →
        (driveFor stop₁ limit (fuel₁ + 1) o₁).sight id =
          (driveFor stop₂ limit (fuel₂ + 1) o₂).sight id := by
      intro t₂ ht₂ hlt
      rw [h₂.driveFor_eq, ht₂]
      exact ih _ (by omega) h₁ (h₂.reach ht₂)
        (hsight.trans (h₂.sight_reach_eq hsight.symm ht₂ hlt).symm) rfl
    cases ht₁ : o₁.nextWithin limit with
    | none =>
      cases ht₂ : o₂.nextWithin limit with
      | none => rwa [h₁.driveFor_eq, h₂.driveFor_eq, ht₁, ht₂]
      | some t₂ => exact hright t₂ ht₂ (by simp [ht₁])
    | some t₁ =>
      cases ht₂ : o₂.nextWithin limit with
      | none => exact hleft t₁ ht₁ (by simp [ht₂])
      | some t₂ =>
        rcases Nat.lt_trichotomy t₁ t₂ with hlt | rfl | hlt
        · exact hleft t₁ ht₁ fun t' ht' => by simp_all
        · rw [h₁.driveFor_eq, h₂.driveFor_eq, ht₁, ht₂]
          have hreach := sight_reach h₁.toPlain h₂.toPlain hsight
            (Nat.le_of_lt (h₁.lt_of_nextWithin ht₁)) (Nat.le_of_lt (h₂.lt_of_nextWithin ht₂))
          exact ih _ (by omega) (h₁.reach ht₁) (h₂.reach ht₂) hreach rfl
        · exact hright t₂ ht₂ fun t' ht' => by simp_all

/-- Where the orchestrator is driven to: there is nothing left to wait for within the limit. -/
theorem driveFor (h : Driven stop limit fuel o) :
    (∃ fuel', Driven stop limit fuel' (driveFor stop limit fuel o)) ∧
      (Orchestrator.driveFor stop limit fuel o).nextWithin limit = none ∧
      ∀ id, (Orchestrator.driveFor stop limit fuel o).generationsOf id = o.generationsOf id := by
  induction fuel generalizing o with
  | zero => exact absurd h.waits_lt (Nat.not_lt_zero _)
  | succ fuel ih =>
    rw [h.driveFor_eq]
    cases ht : o.nextWithin limit with
    | none => exact ⟨⟨fuel + 1, h⟩, ht, fun _ => rfl⟩
    | some t =>
      obtain ⟨hdriven, hnone, hgenerations⟩ := ih (h.reach ht)
      exact ⟨hdriven, hnone, fun id => (hgenerations id).trans h.toPlain.generationsOf_reach⟩

end Driven

/-! ## Letting time pass -/

theorem Steady.driven_advance (h : o.Steady) (millis : Nat) :
    Driven (fun _ => false) (some (o.now + millis)) (o.waits + 1) o where
  toSteady := h
  waits_lt := Nat.lt_succ_self _
  now_le t ht := by
    obtain rfl := Option.some.inj ht
    exact Nat.le_add_right _ _
  stops _ _ _ hstop := by simp at hstop

/-- Letting time pass keeps an orchestrator steady, takes that time and admits nothing. -/
theorem Steady.advance_spec (h : o.Steady) (millis : Nat) :
    (o.advance millis).Steady ∧ (o.advance millis).now = o.now + millis ∧
      ∀ id, (o.advance millis).generationsOf id = o.generationsOf id := by
  obtain ⟨⟨fuel, hdriven⟩, hnone, hgenerations⟩ := (h.driven_advance millis).driveFor
  have hnow : (o.advance millis).now = o.now + millis :=
    now_pass_of_le (hdriven.now_le _ rfl)
  refine ⟨⟨hdriven.toPlain.pass _, fun e he i hi => ?_⟩, hnow, hgenerations⟩
  rw [hnow]
  refine Nat.lt_of_not_le fun hle => ?_
  have hlimit : (some (o.now + millis)).all (i ≤ ·) = true := by simpa using hle
  obtain ⟨t, ht, -⟩ := exists_nextWithin_le he hi hlimit
  have hnone' : (o.advance millis).nextWithin (some (o.now + millis)) = none := hnone
  simp [hnone'] at ht

/-- After the same time the same is seen. -/
theorem sight_advance (h₁ : o₁.Steady) (h₂ : o₂.Steady) (hsight : o₁.sight id = o₂.sight id)
    (hnow : o₁.now = o₂.now) (millis : Nat) :
    (o₁.advance millis).sight id = (o₂.advance millis).sight id := by
  have hdriven := h₂.driven_advance millis
  rw [← hnow] at hdriven
  have hdrive := (h₁.driven_advance millis).sight_eq hdriven hsight
  unfold advance drive
  rw [← hnow]
  exact hdrive

/-- Waits until all executions have come to an end. -/
def awaitAll (o : Orchestrator) : Orchestrator :=
  o.await (o.executions.map (·.generation))

theorem Steady.driven_awaitAll (h : o.Steady) :
    Driven (fun o' => (o.executions.map (·.generation)).all o'.isOver) none (o.waits + 1) o where
  toSteady := h
  waits_lt := Nat.lt_succ_self _
  now_le t ht := by simp at ht
  stops o' hconsistent hgenerations hstop := by
    rw [← hgenerations, List.all_eq_true] at hstop
    unfold nextWake
    rw [List.filterMap_eq_nil_iff.mpr fun e he => ?_]
    · rfl
    · have hover := hstop e.generation (List.mem_map_of_mem he)
      rw [isOver, hconsistent.execution?_eq_some he, Option.all_some] at hover
      cases hphase : e.phase <;> simp [hphase, Phase.isOver, Phase.wake] at hover ⊢

/-- Waiting for the end keeps an orchestrator steady and admits nothing. -/
theorem Steady.awaitAll_spec (h : o.Steady) :
    o.awaitAll.Steady ∧ ∀ id, o.awaitAll.generationsOf id = o.generationsOf id := by
  obtain ⟨⟨fuel, hdriven⟩, -, hgenerations⟩ := h.driven_awaitAll.driveFor
  exact ⟨hdriven.toSteady, hgenerations⟩

/-- In the end the same is seen. -/
theorem sight_awaitAll (h₁ : o₁.Steady) (h₂ : o₂.Steady) (hsight : o₁.sight id = o₂.sight id) :
    o₁.awaitAll.sight id = o₂.awaitAll.sight id :=
  h₁.driven_awaitAll.sight_eq h₂.driven_awaitAll hsight

end Orchestrator

end Switchboard
