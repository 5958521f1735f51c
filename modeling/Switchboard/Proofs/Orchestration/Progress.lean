import Mathlib.Algebra.Order.BigOperators.Group.List
import Mathlib.Algebra.Order.Group.Nat
import Switchboard.Orchestration.Schedule
import Switchboard.Proofs.Orchestration.Run
import Switchboard.Proofs.Tool.Dispatch

/-!
# Progress

An execution that is not over waits for an instant (`rests_poll`), and a poll at that
instant brings it closer to its end (`waits_poll_lt`). So every step of the schedule lowers the
number of instants to come (`waits_reach_lt`), and the executions that are waited for have all
come to an end when the schedule stops (`exists_await`). What the schedule does are steps of its
own: it polls and lets time pass.
-/

namespace Switchboard

namespace Phase

/-- The execution is over or waits for an instant. -/
def Rests (phase : Phase) : Prop :=
  phase.isOver = true ∨ phase.wake.isSome

/-- While something is missing, gathering has an instant to wait for. -/
theorem isSome_wake_gathering {model : ModelDescriptor} {readDue : Nat}
    {known : Option Recollection} {tools : Dispatch}
    (h : known = none ∨ tools.isDone = false) :
    (gathering model readDue known tools).wake.isSome := by
  rcases h with rfl | hdone
  · exact List.isSome_min?_of_mem (List.mem_append_left _ (List.mem_singleton_self readDue))
  · obtain ⟨run, hrunning⟩ := Option.isSome_iff_exists.mp (by simpa [Dispatch.isDone] using hdone)
    have htool : run.2.timed.wake ∈ tools.wake.toList := by simp [Dispatch.wake, hrunning]
    exact List.isSome_min?_of_mem (List.mem_append_right _ htool)

variable (n : Nat)

@[simp] theorem waits_selecting (due : Nat) : (selecting due).waits n = n + 4 :=
  rfl

@[simp] theorem waits_gathering (model : ModelDescriptor) (readDue : Nat)
    (known : Option Recollection) (tools : Dispatch) :
    (gathering model readDue known tools).waits n =
      (if known.isNone then 1 else 0) + tools.waits + 2 :=
  rfl

@[simp] theorem waits_calling (account : Account) (pending : PendingCall) :
    (calling account pending).waits n = 2 :=
  rfl

@[simp] theorem waits_saving (account : Account) (answer : Answer) (write : Timed) :
    (saving account answer write).waits n = 1 :=
  rfl

end Phase

namespace Ticket

variable {s : Setup} {t : Ticket} {b : Board} {x y : Phase × Board} {phase : Phase} {n : Nat}

@[simp] theorem waits_fail (account : Account) (f : RequestFailure) :
    (t.fail b account f).1.waits n = 0 :=
  rfl

@[simp] theorem waits_settle (account : Account) (answer : Answer) :
    (t.settle b account answer).1.waits n = 0 := by
  unfold settle
  split <;> rfl

theorem waits_dispatch_le : (t.dispatch s b).waits ≤ (s.toolsFor t.request).length :=
  Dispatch.waits_start_le ..

theorem waits_recollect_le (readDue : Nat) (known : Option Recollection) :
    (if (t.recollect s b readDue known).isNone then 1 else 0) ≤ if known.isNone then 1 else 0 := by
  cases known with
  | none =>
    rw [Option.isNone_none, if_pos rfl]
    split <;> omega
  | some known => simp [recollect]

/-- A move does not lengthen the wait for the end. -/
theorem Move.waits_le (h : Move s t x y) :
    y.1.waits (s.toolsFor t.request).length ≤ x.1.waits (s.toolsFor t.request).length := by
  cases h with
  | @select due b model hdue hmodel =>
    have htools := waits_dispatch_le (s := s) (t := t) (b := b)
    simp only [Phase.waits_selecting, Phase.waits_gathering, Option.isNone_none, if_true]
    omega
  | @gather model readDue known tools b =>
    have hknown := waits_recollect_le (s := s) (t := t) (b := b) readDue known
    have htools : (tools.poll b.files b.now).waits ≤ tools.waits := Dispatch.waits_poll_le
    simp only [Phase.waits_gathering]
    omega
  | call hdone hpending => simp
  | _ => simp

/-- No move adds to what an execution waits for. -/
theorem Moves.waits_le (h : Moves s t x y) :
    y.1.waits (s.toolsFor t.request).length ≤ x.1.waits (s.toolsFor t.request).length := by
  induction h with
  | refl => exact Nat.le_refl _
  | tail _ hmove ih => exact hmove.waits_le.trans ih

/-- No poll adds to what an execution waits for. -/
theorem waits_poll_le :
    (t.poll s b phase).1.waits (s.toolsFor t.request).length ≤
      phase.waits (s.toolsFor t.request).length :=
  (poll_moves phase).waits_le

theorem waits_beginCalling_le (model : ModelDescriptor) (known : Recollection)
    (records : List ToolRecord) :
    (t.beginCalling s b model known records).1.waits (s.toolsFor t.request).length ≤ 2 := by
  -- The call begins when the tools are done, and then only their records matter.
  let tools : Dispatch := ⟨s.toolContext t.request, .null, none, [], records⟩
  have hmoves : Moves s t (.gathering model 0 (some known) tools, b)
      (t.beginCalling s b model known records) := beginCalling_moves model 0 known rfl
  exact hmoves.waits_le

/-- What is gathered at the instant for which an execution waits brings it closer to its end. -/
theorem waits_gather_lt {model : ModelDescriptor} {readDue instant : Nat}
    {known : Option Recollection} {tools : Dispatch}
    (hwake : (Phase.gathering model readDue known tools).wake = some instant)
    (hnow : instant ≤ b.now) :
    (Phase.gathering model readDue (t.recollect s b readDue known)
        (tools.poll b.files b.now)).waits n <
      (Phase.gathering model readDue known tools).waits n := by
  have hknown := waits_recollect_le (s := s) (t := t) (b := b) readDue known
  have htools : (tools.poll b.files b.now).waits ≤ tools.waits := Dispatch.waits_poll_le
  simp only [Phase.waits_gathering]
  have hmem := List.min?_mem hwake
  rcases List.mem_append.mp hmem with hread | htool
  · cases known with
    | none =>
      obtain rfl : instant = readDue := by simpa using hread
      have hread : (t.recollect s b instant none).isNone = false := by simp [recollect, hnow]
      simp only [hread, Option.isNone_none, if_true, Bool.false_eq_true, if_false]
      omega
    | some known => simp at hread
  · have htools : (tools.poll b.files b.now).waits < tools.waits :=
      Dispatch.waits_poll_lt (Option.mem_toList.mp htool) hnow
    omega

/-- A poll at the instant for which an execution waits brings it closer to its end. -/
theorem waits_poll_lt {instant : Nat} (hwake : phase.wake = some instant)
    (hnow : instant ≤ b.now) :
    (t.poll s b phase).1.waits (s.toolsFor t.request).length <
      phase.waits (s.toolsFor t.request).length := by
  cases phase with
  | selecting due =>
    obtain rfl : due = instant := by simpa [Phase.wake] using hwake
    simp only [poll, pollSelecting, if_pos hnow]
    cases hmodel : s.selectModel t.request with
    | error f => simp
    | ok model =>
      have htools := waits_dispatch_le (s := s) (t := t) (b := b)
      refine Nat.lt_of_le_of_lt (pollGathering_moves ..).waits_le ?_
      simp only [Phase.waits_selecting, Phase.waits_gathering, Option.isNone_none, if_true]
      omega
  | gathering model readDue known tools =>
    refine Nat.lt_of_le_of_lt ?_ (waits_gather_lt (s := s) (t := t) hwake hnow)
    simp only [poll, pollGathering]
    split
    case h_1 known' hknown hdone =>
      refine (waits_beginCalling_le ..).trans ?_
      simp
    case h_2 => exact Nat.le_refl _
  | calling account pending =>
    obtain rfl : pending.timed.wake = instant := by simpa [Phase.wake] using hwake
    simp only [poll, pollCalling]
    split
    case h_1 output h =>
      rw [beginSaving, if_neg (by simp [PendingCall.cancelled_eq_false_of_poll h])]
      exact Nat.lt_of_le_of_lt (pollSaving_moves ..).waits_le (by simp)
    case h_2 f h => simp
    case h_3 h => exact absurd (PendingCall.lt_wake_of_poll_eq_none h) (Nat.not_lt.mpr hnow)
  | saving account answer write =>
    obtain rfl : write.wake = instant := by simpa [Phase.wake] using hwake
    simp only [poll, pollSaving]
    cases hprogress : write.progress b.now with
    | waiting => exact absurd (Timed.progress_eq_waiting_iff.mp hprogress) (Nat.not_lt.mpr hnow)
    | _ => simp
  | ended r => simp [Phase.wake] at hwake
  | dropped => simp [Phase.wake] at hwake

/-! ## Rests of an execution -/

/-- A settled execution rests. -/
theorem rests_settle (account : Account) (answer : Answer) :
    (t.settle b account answer).1.Rests := by
  unfold settle
  split <;> exact Or.inl rfl

theorem rests_pollSaving (account : Account) (answer : Answer) (write : Timed) :
    (t.pollSaving s b account answer write).1.Rests := by
  unfold pollSaving
  split
  · exact rests_settle ..
  · exact rests_settle ..
  · exact Or.inr rfl

theorem rests_pollCalling (account : Account) (pending : PendingCall) :
    (t.pollCalling s b account pending).1.Rests := by
  unfold pollCalling
  split
  case h_1 output h =>
    rw [beginSaving, if_neg (by simp [PendingCall.cancelled_eq_false_of_poll h])]
    exact rests_pollSaving ..
  case h_2 => exact Or.inl rfl
  case h_3 => exact Or.inr rfl

/-- An execution that was polled while gathering rests. -/
theorem rests_pollGathering (model : ModelDescriptor) (readDue : Nat)
    (known : Option Recollection) (tools : Dispatch) :
    (t.pollGathering s b model readDue known tools).1.Rests := by
  unfold pollGathering
  dsimp only
  split
  case h_1 =>
    unfold beginCalling
    dsimp only
    split
    · exact Or.inl rfl
    · exact rests_pollCalling ..
  case h_2 hne =>
    refine Or.inr (Phase.isSome_wake_gathering ?_)
    cases hknown : t.recollect s b readDue known with
    | none => exact Or.inl rfl
    | some known' => exact Or.inr (Bool.eq_false_iff.mpr (hne known' hknown))

/-- After a poll an execution is over or waits for an instant. -/
theorem rests_poll (phase : Phase) : (t.poll s b phase).1.Rests := by
  cases phase with
  | selecting due =>
    simp only [poll, pollSelecting]
    split
    case isTrue =>
      split
      · exact rests_pollGathering ..
      · exact Or.inl rfl
    case isFalse => exact Or.inr rfl
  | gathering model readDue known tools => exact rests_pollGathering ..
  | calling account pending => exact rests_pollCalling ..
  | saving account answer write => exact rests_pollSaving ..
  | ended r => exact Or.inl rfl
  | dropped => exact Or.inl rfl

end Ticket

namespace Orchestrator

variable {o : Orchestrator} {e : Execution} {g instant : Nat}

namespace Consistent

/-- A poll changes the execution of its generation alone. -/
theorem executions_poll (h : o.Consistent) :
    (o.poll g).executions =
      o.executions.map fun e => if e.generation = g then (e.poll o.setup o.board).1 else e :=
  h.executions_letExecution h.turns_poll g

/-- No poll adds to what the orchestrator waits for. -/
theorem waits_poll_le (h : o.Consistent) : (o.poll g).waits ≤ o.waits := by
  unfold waits
  rw [setup_poll, h.executions_poll, List.map_map]
  refine List.sum_le_sum fun e _ => ?_
  simp only [Function.comp_apply]
  split
  · exact Ticket.waits_poll_le
  · exact Nat.le_refl _

/-- Polling an execution at the instant for which it waits brings all closer to their end. -/
theorem waits_poll_lt (h : o.Consistent) (he : e ∈ o.executions)
    (hwake : e.phase.wake = some instant) (hnow : instant ≤ o.now) :
    (o.poll e.generation).waits < o.waits := by
  unfold waits
  rw [setup_poll, h.executions_poll, List.map_map]
  refine List.sum_lt_sum _ _ (fun x _ => ?_) ⟨e, he, ?_⟩
  · simp only [Function.comp_apply]
    split
    · exact Ticket.waits_poll_le
    · exact Nat.le_refl _
  · simp only [Function.comp_apply, if_pos]
    exact Ticket.waits_poll_lt hwake hnow

theorem waits_foldl_poll_le (h : o.Consistent) (gs : List Nat) :
    (gs.foldl Orchestrator.poll o).waits ≤ o.waits := by
  induction gs generalizing o with
  | nil => exact Nat.le_refl _
  | cons g gs ih => exact (ih (h.poll g)).trans h.waits_poll_le

/-- To reach the next instant brings the executions closer to their end. -/
theorem waits_reach_lt (h : o.Consistent) (hwake : o.nextWake = some instant) :
    (o.reach instant).waits < o.waits := by
  obtain ⟨e, he, hewake⟩ := List.mem_filterMap.mp (List.min?_mem hwake)
  have hnow : instant ≤ (o.pass (instant - o.now)).now := by
    simp only [Orchestrator.pass, now]
    omega
  have hdue : e.generation ∈ (o.pass (instant - o.now)).due :=
    List.mem_map.mpr ⟨e, List.mem_filter.mpr ⟨he, by simpa [hewake] using hnow⟩, rfl⟩
  unfold reach
  dsimp only
  -- The first that is due is polled at its instant; the others do not go back.
  cases hlist : (o.pass (instant - o.now)).due with
  | nil => simp [hlist] at hdue
  | cons g gs =>
    have hg : g ∈ (o.pass (instant - o.now)).due := by simp [hlist]
    obtain ⟨x, hx, rfl⟩ := List.mem_map.mp hg
    obtain ⟨hx, hxdue⟩ := List.mem_filter.mp hx
    obtain ⟨i, hi, hinow⟩ := (Option.any_eq_true _ _).mp hxdue
    have hlt := (h.pass _).waits_poll_lt hx hi (by simpa using hinow)
    exact Nat.lt_of_le_of_lt (((h.pass _).poll _).waits_foldl_poll_le gs) hlt

end Consistent

/-! ## The schedule -/

/-- Whether a step is one that the schedule takes: it polls or lets time pass. -/
def Action.isInternal : Action → Bool
  | poll _ => true
  | pass _ => true
  | _ => false

theorem foldl_poll_eq_after (o : Orchestrator) (gs : List Nat) :
    gs.foldl poll o = o.after (gs.map .poll) := by
  induction gs generalizing o with
  | nil => rfl
  | cons g gs ih => exact ih (o.poll g)

/-- The schedule reaches an instant by letting time pass and polling what is due then. -/
def reachSteps (o : Orchestrator) (instant : Nat) : List Action :=
  .pass (instant - o.now) :: (o.pass (instant - o.now)).due.map .poll

theorem isInternal_of_mem_reachSteps {a : Action} (ha : a ∈ o.reachSteps instant) :
    a.isInternal = true := by
  rcases List.mem_cons.mp ha with rfl | ha
  · rfl
  · obtain ⟨g, -, rfl⟩ := List.mem_map.mp ha
    rfl

/-- Reaching an instant is a run of internal steps. -/
theorem reach_eq_after (o : Orchestrator) (instant : Nat) :
    o.reach instant = o.after (o.reachSteps instant) := by
  rw [reach, foldl_poll_eq_after]
  rfl

/-- What holds still when the next instant has been reached holds wherever the schedule goes. -/
theorem driveFor_induction {P : Orchestrator → Prop} (stop : Orchestrator → Bool)
    (limit : Option Nat) (fuel : Nat) (ho : P o)
    (hreach : ∀ o t, P o → o.nextWake = some t → P (o.reach t)) :
    P (driveFor stop limit fuel o) := by
  induction fuel generalizing o with
  | zero => exact ho
  | succ fuel ih =>
    unfold driveFor
    split
    case isTrue => exact ho
    case isFalse =>
      split
      case h_1 t ht =>
        split
        case isTrue => exact ih (hreach o t ho ht)
        case isFalse => exact ho
      case h_2 => exact ho

/-- What the schedule does are steps of its own. -/
theorem exists_driveFor (stop : Orchestrator → Bool) (limit : Option Nat) (fuel : Nat)
    (o : Orchestrator) :
    ∃ bs, (∀ a ∈ bs, a.isInternal = true) ∧ driveFor stop limit fuel o = o.after bs := by
  refine driveFor_induction (P := fun o' => ∃ bs, (∀ a ∈ bs, a.isInternal = true) ∧
    o' = o.after bs) stop limit fuel ⟨[], by simp, rfl⟩ ?_
  rintro _ t ⟨bs, hbs, rfl⟩ -
  refine ⟨bs ++ (o.after bs).reachSteps t, fun a ha => ?_, ?_⟩
  · rcases List.mem_append.mp ha with ha | ha
    · exact hbs a ha
    · exact isInternal_of_mem_reachSteps ha
  · rw [after_append, reach_eq_after]

/-- The schedule gives up no execution. -/
theorem Consistent.exists_dropped (h : o.Consistent) {bs : List Action}
    (hbs : ∀ a ∈ bs, a.isInternal = true) (he : e ∈ (o.after bs).executions)
    (hphase : e.phase = .dropped) :
    ∃ x ∈ o.executions, x.generation = e.generation ∧ x.phase = .dropped := by
  induction bs using List.reverseRecOn generalizing e with
  | nil => exact ⟨e, he, rfl, hphase⟩
  | append_singleton bs a ih =>
    rw [after_concat] at he
    have ha : a.isInternal = true := hbs a (by simp)
    rcases (h.after bs).mem_executions_perform he with ⟨x, hx, hfollows⟩ | hbegins
    · rcases hfollows.dropped_iff.mp hphase with hphase | ⟨rfl, -⟩
      · rw [hfollows.generation_eq]
        exact ih (fun a ha => hbs a (by simp [ha])) hx hphase
      · simp [Action.isInternal] at ha
    · simp [hbegins.action_eq, Action.isInternal] at ha

section New

variable {setup : Setup} {memory : Memory} {files : FileSystem} {as : List Action}

/-- After every step an execution is over or waits for an instant. -/
theorem rests_of_mem (he : e ∈ ((new setup memory files).after as).executions) :
    e.phase.Rests := by
  refine execution_induction (P := fun _ e => e.phase.Rests) (fun as a e hbegins => ?_)
    (fun as a e e' _ ih hfollows => ?_) he
  · obtain ⟨b, due, hphase⟩ := hbegins.phase_eq
    exact hphase ▸ Ticket.rests_poll _
  · rcases hfollows.phase_eq with hphase | hphase | ⟨b, hphase⟩
    · exact hphase ▸ ih
    · exact Or.inl (by rw [hphase]; rfl)
    · exact hphase ▸ Ticket.rests_poll _

/-- Driven without a limit, the executions go on until it is to stop, unless it is to go on
when all of them are over. -/
theorem stop_driveFor {stop : Orchestrator → Bool}
    (hstop : ∀ o, stop o = false → ∃ e ∈ o.executions, e.phase.isOver = false) (fuel : Nat)
    (hfuel : ((new setup memory files).after as).waits < fuel) :
    stop (driveFor stop none fuel ((new setup memory files).after as)) = true := by
  induction fuel generalizing as with
  | zero => omega
  | succ fuel ih =>
    unfold driveFor
    cases hs : stop ((new setup memory files).after as) with
    | true => simpa using hs
    | false =>
      obtain ⟨e, he, hover⟩ := hstop _ hs
      obtain ⟨i, hi⟩ := Option.isSome_iff_exists.mp
        ((rests_of_mem he).resolve_left (by simp [hover]))
      have hnext : ((new setup memory files).after as).nextWake.isSome :=
        List.isSome_min?_of_mem (List.mem_filterMap.mpr ⟨e, he, hi⟩)
      obtain ⟨instant, hwake⟩ := Option.isSome_iff_exists.mp hnext
      have hlt := consistent_after.waits_reach_lt hwake
      simp only [Bool.false_eq_true, if_false, hwake, Option.all_none, if_true]
      rw [reach_eq_after, ← after_append] at hlt ⊢
      exact ih (by omega)

/-- Waiting for executions ends with all of them over, and what happens meanwhile are steps of
the schedule. -/
theorem exists_await (setup : Setup) (memory : Memory) (files : FileSystem)
    (as : List Action) (gs : List Nat) :
    ∃ bs, (∀ a ∈ bs, a.isInternal = true) ∧
      ((new setup memory files).after as).await gs = (new setup memory files).after (as ++ bs) ∧
      ∀ g ∈ gs, ((new setup memory files).after (as ++ bs)).isOver g = true := by
  obtain ⟨bs, hbs, heq⟩ := exists_driveFor (fun o => gs.all o.isOver) none
    (((new setup memory files).after as).waits + 1) ((new setup memory files).after as)
  have hgo : ∀ o : Orchestrator, gs.all o.isOver = false →
      ∃ e ∈ o.executions, e.phase.isOver = false := by
    intro o ho
    obtain ⟨g, hg, hnot⟩ := List.all_eq_false.mp ho
    unfold isOver at hnot
    cases hx : o.execution? g with
    | none => simp [hx] at hnot
    | some e => exact ⟨e, List.mem_of_find?_eq_some hx, by simpa [hx] using hnot⟩
  have hstop := stop_driveFor hgo _ (Nat.lt_succ_self ((new setup memory files).after as).waits)
  rw [heq, ← after_append] at hstop
  exact ⟨bs, hbs, by rw [after_append]; exact heq, List.all_eq_true.mp hstop⟩

end New

end Orchestrator

end Switchboard
