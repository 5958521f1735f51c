import Mathlib.Data.List.Nodup
import Switchboard.Orchestration.Orchestrator
import Switchboard.Proofs.Orchestration.Turn

/-!
# The invariant of the orchestrator

The executions are numbered by their generations in the order of their start. An entry is in
flight for exactly those that are neither cancelled nor over, no execution is newer than the one
of its identifier that is in flight, and each has published what its phase says. A new
orchestrator is `Consistent`, and every action keeps it so (`Consistent.perform`): cancelling
takes out an entry and tells its execution, a submission enrols an execution and polls it
(`submit_eq_ok`), and a turn of an execution changes nothing for the others.
-/

namespace Switchboard

namespace Orchestrator

/-- What holds between the requests in flight, the executions and the journal. -/
structure Consistent (o : Orchestrator) : Prop where
  numbered : o.executions.map (·.generation) = List.range' 1 o.board.inFlight.lastGeneration
  distinct : o.board.inFlight.Distinct
  mem_entries_iff : ∀ id g, (id, g) ∈ o.board.inFlight.entries ↔
    ∃ e ∈ o.executions, e.isInFlight = true ∧ e.request.id = id ∧ e.generation = g
  latest : ∀ e ∈ o.executions, ∀ g, (e.request.id, g) ∈ o.board.inFlight.entries →
    e.generation ≤ g
  traced : ∀ e ∈ o.executions,
    e.Traced o.setup (o.board.journal.eventsOf e.generation) e.phase
  unnoted : ∀ g, g ∉ o.executions.map (·.generation) → o.board.journal.deedsOf g = []

/-- A new orchestrator is consistent. -/
theorem consistent_new (setup : Setup) (memory : Memory) (files : FileSystem) :
    (new setup memory files).Consistent where
  numbered := rfl
  distinct := List.nodup_nil
  mem_entries_iff _ _ := by simp [new]
  latest _ he := by simp [new] at he
  traced _ he := by simp [new] at he
  unnoted _ _ := rfl

namespace Consistent

variable {o : Orchestrator} {e e' : Execution}

/-! ## Generations -/

theorem nodup_generations (h : o.Consistent) : (o.executions.map (·.generation)).Nodup := by
  rw [h.numbered]
  exact List.nodup_range'

/-- An execution is known by its generation. -/
theorem eq_of_generation_eq (h : o.Consistent) (he : e ∈ o.executions) (he' : e' ∈ o.executions)
    (hg : e.generation = e'.generation) : e = e' :=
  List.inj_on_of_nodup_map h.nodup_generations he he' hg

theorem generation_le (h : o.Consistent) (he : e ∈ o.executions) :
    e.generation ≤ o.board.inFlight.lastGeneration := by
  have hmem : e.generation ∈ o.executions.map (·.generation) := List.mem_map.mpr ⟨e, he, rfl⟩
  rw [h.numbered, List.mem_range'_1] at hmem
  omega

/-- An execution is found by its generation. -/
theorem execution?_eq_some (h : o.Consistent) (he : e ∈ o.executions) :
    o.execution? e.generation = some e := by
  unfold execution?
  cases hf : o.executions.find? fun x => x.generation = e.generation with
  | none => simpa using List.find?_eq_none.mp hf e he
  | some x =>
    have hx : x.generation = e.generation := by simpa using List.find?_some hf
    rw [h.eq_of_generation_eq (List.mem_of_find?_eq_some hf) he hx]

/-- An execution that is not over is in flight exactly if it is not cancelled. -/
theorem holds_eq (h : o.Consistent) (he : e ∈ o.executions) :
    o.board.inFlight.holds e.request.id e.generation = e.isInFlight := by
  rw [Bool.eq_iff_iff, h.distinct.holds_iff, h.mem_entries_iff]
  constructor
  · rintro ⟨x, hx, hin, -, hg⟩
    rwa [← h.eq_of_generation_eq hx he hg]
  · exact fun hin => ⟨e, he, hin, rfl, rfl⟩

end Consistent

/-- Replacing an execution changes the one of its generation alone. -/
theorem mem_replace {l : List Execution} {e x : Execution} :
    x ∈ replace l e ↔ (x ∈ l ∧ x.generation ≠ e.generation) ∨
      (x = e ∧ ∃ y ∈ l, y.generation = e.generation) := by
  unfold replace
  rw [List.mem_map]
  constructor
  · rintro ⟨y, hy, rfl⟩
    by_cases hg : y.generation = e.generation
    · exact Or.inr ⟨if_pos hg, y, hy, hg⟩
    · rw [if_neg hg]
      exact Or.inl ⟨hy, hg⟩
  · rintro (⟨hx, hg⟩ | ⟨rfl, y, hy, hg⟩)
    · exact ⟨x, hx, if_neg hg⟩
    · exact ⟨y, hy, if_pos hg⟩

theorem map_generation_replace (l : List Execution) (e : Execution) :
    (replace l e).map (·.generation) = l.map (·.generation) := by
  unfold replace
  rw [List.map_map]
  refine List.map_congr_left fun x _ => ?_
  by_cases hg : x.generation = e.generation
  · simp [hg]
  · simp [hg]

theorem letExecution_of_forall_ne {o : Orchestrator} {g : Nat}
    {f : Execution → Board → Execution × Board} (h : ∀ e ∈ o.executions, e.generation ≠ g) :
    o.letExecution g f = o := by
  have hnone : o.execution? g = none := by simpa [execution?] using h
  simp only [letExecution, hnone]

/-- What executions are let do are turns, and nothing once they are over. -/
structure Turns (o : Orchestrator) (f : Execution → Board → Execution × Board) : Prop where
  toTicket_eq : ∀ e b, (f e b).1.toTicket = e.toTicket
  eq_of_isOver : ∀ e b, e.phase.isOver = true → f e b = (e, b)
  turn : ∀ e ∈ o.executions, e.phase.isOver = false →
    e.Turn o.setup o.board ((f e o.board).1.phase, (f e o.board).2)

namespace Consistent

variable {o : Orchestrator} {e : Execution}

/-- A turn of an execution changes the board and that execution. -/
theorem letExecution_eq (h : o.Consistent) (he : e ∈ o.executions)
    (f : Execution → Board → Execution × Board) :
    o.letExecution e.generation f =
      { o with board := (f e o.board).2, executions := replace o.executions (f e o.board).1 } := by
  simp only [letExecution, h.execution?_eq_some he]

/-- What an execution does that is over changes nothing. -/
theorem letExecution_eq_self (h : o.Consistent) (he : e ∈ o.executions)
    {f : Execution → Board → Execution × Board} (hf : f e o.board = (e, o.board)) :
    o.letExecution e.generation f = o := by
  have hsame : replace o.executions e = o.executions := by
    unfold replace
    conv_rhs => rw [← List.map_id o.executions]
    refine List.map_congr_left fun x hx => ?_
    by_cases hg : x.generation = e.generation
    · simp [h.eq_of_generation_eq hx he hg]
    · simp [hg]
  rw [h.letExecution_eq he, hf, hsame]

/-- A turn takes out the entry of its execution if that is over then, and nothing else. -/
theorem mem_entries_turn (h : o.Consistent) (he : e ∈ o.executions)
    (hover : e.phase.isOver = false) {r : Execution × Board} (hticket : r.1.toTicket = e.toTicket)
    (hturn : e.Turn o.setup o.board (r.1.phase, r.2)) {id : RequestId} {g : Nat} :
    (id, g) ∈ r.2.inFlight.entries ↔ ∃ x ∈ replace o.executions r.1,
      x.isInFlight = true ∧ x.request.id = id ∧ x.generation = g := by
  have hgen : r.1.generation = e.generation := congrArg Ticket.generation hticket
  have hid : r.1.request.id = e.request.id := congrArg (·.request.id) hticket
  have hin : r.1.isInFlight = (!e.cancelled && !r.1.phase.isOver) := by
    rw [Execution.isInFlight, congrArg Ticket.cancelled hticket]
  simp only [hturn.mem_entries_iff h.distinct, h.mem_entries_iff, mem_replace]
  constructor
  · rintro ⟨⟨x, hx, hxin, rfl, rfl⟩, hne⟩
    by_cases hg : x.generation = e.generation
    · obtain rfl := h.eq_of_generation_eq hx he hg
      have hc : x.cancelled = false := by simpa [Execution.isInFlight, hover] using hxin
      refine ⟨r.1, Or.inr ⟨rfl, x, hx, hgen.symm⟩, ?_, hid, hgen⟩
      simpa [hin, hc] using fun hr => hne hr rfl
    · exact ⟨x, Or.inl ⟨hx, hgen ▸ hg⟩, hxin, rfl, rfl⟩
  · rintro ⟨x, ⟨hx, hg⟩ | ⟨rfl, -⟩, hxin, rfl, rfl⟩
    · exact ⟨⟨x, hx, hxin, rfl, rfl⟩, fun _ heq => hg ((congrArg Prod.snd heq).trans hgen.symm)⟩
    · rw [hin, Bool.and_eq_true] at hxin
      refine ⟨⟨e, he, ?_, hid.symm, hgen.symm⟩, fun hr => by simp [hr] at hxin⟩
      simp [Execution.isInFlight, hover, hxin.1]

/-- A turn keeps the orchestrator consistent. -/
theorem turn (h : o.Consistent) (he : e ∈ o.executions) (hover : e.phase.isOver = false)
    {r : Execution × Board} (hticket : r.1.toTicket = e.toTicket)
    (hturn : e.Turn o.setup o.board (r.1.phase, r.2)) :
    Consistent { o with board := r.2, executions := replace o.executions r.1 } := by
  have hgen : r.1.generation = e.generation := congrArg Ticket.generation hticket
  have hid : r.1.request.id = e.request.id := congrArg (·.request.id) hticket
  refine
    { numbered := ?numbered
      distinct := hturn.distinct h.distinct
      mem_entries_iff := fun _ _ => h.mem_entries_turn he hover hticket hturn
      latest := ?latest
      traced := ?traced
      unnoted := ?unnoted }
  case numbered =>
    have hlast : r.2.inFlight.lastGeneration = o.board.inFlight.lastGeneration :=
      hturn.lastGeneration_eq
    simp only [map_generation_replace, hlast, h.numbered]
  case latest =>
    intro x hx g hg
    have hg := ((hturn.mem_entries_iff h.distinct).mp hg).1
    rcases mem_replace.mp hx with ⟨hx, -⟩ | ⟨rfl, -⟩
    · exact h.latest x hx g hg
    · rw [hgen]
      exact h.latest e he g (hid ▸ hg)
  case traced =>
    intro x hx
    rcases mem_replace.mp hx with ⟨hx, hne⟩ | ⟨rfl, -⟩
    · have hdeeds := hturn.deedsOf_eq x.generation (hgen ▸ hne)
      simp only [Journal.eventsOf, hdeeds]
      exact h.traced x hx
    · rw [hticket]
      exact hturn.traced
  case unnoted =>
    intro g hg
    rw [map_generation_replace] at hg
    have hne : g ≠ e.generation := fun heq => hg (heq ▸ List.mem_map_of_mem he)
    rw [hturn.deedsOf_eq g hne]
    exact h.unnoted g hg

theorem turns_poll (h : o.Consistent) : o.Turns (Execution.poll o.setup) where
  toTicket_eq _ _ := Execution.toTicket_poll
  eq_of_isOver _ _ hover := Execution.poll_of_isOver hover
  turn e he hover := by
    refine Ticket.turn_poll hover ?_ (h.traced e he)
    simp [h.holds_eq he, Execution.isInFlight, hover]

theorem turns_drop (h : o.Consistent) : o.Turns Execution.drop where
  toTicket_eq _ _ := Execution.toTicket_drop
  eq_of_isOver _ _ hover := Execution.drop_of_isOver hover
  turn e he hover := Execution.turn_drop hover (h.traced e he)

variable {f : Execution → Board → Execution × Board}

/-- To let an execution do something keeps the orchestrator consistent. -/
theorem letExecution (h : o.Consistent) (hf : o.Turns f) (g : Nat) :
    (o.letExecution g f).Consistent := by
  by_cases hg : ∃ e ∈ o.executions, e.generation = g
  · obtain ⟨e, he, rfl⟩ := hg
    cases hover : e.phase.isOver with
    | true =>
      rw [h.letExecution_eq_self he (hf.eq_of_isOver e _ hover)]
      exact h
    | false =>
      rw [h.letExecution_eq he]
      exact h.turn he hover (hf.toTicket_eq e _) (hf.turn e he hover)
  · rw [letExecution_of_forall_ne fun e he heq => hg ⟨e, he, heq⟩]
    exact h

/-- To let an execution do something takes out its own entry at most. -/
theorem inFlight_letExecution (h : o.Consistent) (hf : o.Turns f) (he : e ∈ o.executions) :
    (o.letExecution e.generation f).board.inFlight = o.board.inFlight ∨
      (o.letExecution e.generation f).board.inFlight =
        o.board.inFlight.deregister e.request.id e.generation := by
  cases hover : e.phase.isOver with
  | true =>
    rw [h.letExecution_eq_self he (hf.eq_of_isOver e _ hover)]
    exact Or.inl rfl
  | false =>
    have hturn := (hf.turn e he hover).inFlight_eq
    rw [h.letExecution_eq he]
    split at hturn
    · exact Or.inr hturn
    · exact Or.inl hturn

/-- To let an execution do something concerns no other. -/
theorem executions_letExecution (h : o.Consistent) (hf : o.Turns f) (g : Nat) :
    (o.letExecution g f).executions =
      o.executions.map fun e => if e.generation = g then (f e o.board).1 else e := by
  have hgen : ∀ e, (f e o.board).1.generation = e.generation := fun e =>
    congrArg Ticket.generation (hf.toTicket_eq e _)
  by_cases hg : ∃ e ∈ o.executions, e.generation = g
  · obtain ⟨e, he, rfl⟩ := hg
    rw [h.letExecution_eq he]
    refine List.map_congr_left fun x hx => ?_
    rw [hgen]
    by_cases hxe : x.generation = e.generation
    · rw [if_pos hxe, if_pos hxe, h.eq_of_generation_eq hx he hxe]
    · rw [if_neg hxe, if_neg hxe]
  · have hne : ∀ e ∈ o.executions, e.generation ≠ g := fun e he heq => hg ⟨e, he, heq⟩
    rw [letExecution_of_forall_ne hne]
    conv_lhs => rw [← List.map_id o.executions]
    exact List.map_congr_left fun x hx => (if_neg (hne x hx)).symm

/-- What holds of every execution still does when one has been let do something, if it holds of
that one then. -/
theorem forall_letExecution (h : o.Consistent) (hf : o.Turns f) {P : Execution → Prop} {g : Nat}
    (hothers : ∀ e ∈ o.executions, e.generation ≠ g → P e)
    (hself : ∀ e ∈ o.executions, e.generation = g → P (f e o.board).1) :
    ∀ e ∈ (o.letExecution g f).executions, P e := by
  intro e he
  rw [h.executions_letExecution hf] at he
  obtain ⟨x, hx, rfl⟩ := List.mem_map.mp he
  split
  case isTrue hg => exact hself x hx hg
  case isFalse hg => exact hothers x hx hg

/-- A poll keeps the orchestrator consistent. -/
theorem poll (h : o.Consistent) (g : Nat) : (o.poll g).Consistent :=
  h.letExecution h.turns_poll g

/-- Dropping an execution keeps the orchestrator consistent. -/
theorem drop (h : o.Consistent) (g : Nat) : (o.drop g).Consistent :=
  h.letExecution h.turns_drop g

end Consistent

/-! ## Cancelling -/

section Notify

variable {g : Nat} {e : Execution}

@[simp] theorem generation_notify : (notify g e).generation = e.generation := by
  unfold notify
  split <;> rfl

@[simp] theorem request_notify : (notify g e).request = e.request := by
  unfold notify
  split <;> rfl

@[simp] theorem phase_notify : (notify g e).phase = e.phase := by
  unfold notify
  split <;> rfl

theorem notify_of_ne (hg : e.generation ≠ g) : notify g e = e :=
  if_neg hg

theorem isInFlight_notify : (notify g e).isInFlight = (e.isInFlight && e.generation ≠ g) := by
  unfold notify Execution.isInFlight
  by_cases hg : e.generation = g
  · simp [hg]
  · simp [hg]

end Notify

theorem fst_cancel (o : Orchestrator) (id : RequestId) :
    (o.cancel id).1 = o.board.inFlight.generation? id := by
  unfold cancel
  split <;> simp_all

theorem snd_cancel_of_none {o : Orchestrator} {id : RequestId}
    (h : o.board.inFlight.generation? id = none) : (o.cancel id).2 = o := by
  simp [cancel, h]

/-- A cancellation takes the identifier out of flight and notifies the execution. -/
theorem snd_cancel_of_some {o : Orchestrator} {id : RequestId} {g : Nat}
    (h : o.board.inFlight.generation? id = some g) :
    (o.cancel id).2 = { o with
      board := { o.board with inFlight := o.board.inFlight.remove id }
      executions := o.executions.map (notify g) } := by
  simp [cancel, h]

/-- What holds of every execution still does when one has been told that it is cancelled, if it
holds of that one then. -/
theorem forall_cancel {o : Orchestrator} {P : Execution → Prop} (id : RequestId)
    (hothers : ∀ e ∈ o.executions, P e)
    (hself : ∀ e ∈ o.executions, P { e with cancelled := true }) :
    ∀ e ∈ (o.cancel id).2.executions, P e := by
  cases hg : o.board.inFlight.generation? id with
  | none => rwa [snd_cancel_of_none hg]
  | some g =>
    intro e he
    rw [snd_cancel_of_some hg] at he
    obtain ⟨x, hx, rfl⟩ := List.mem_map.mp he
    unfold notify
    split
    · exact hself x hx
    · exact hothers x hx

namespace Consistent

variable {o : Orchestrator}

/-- A cancellation is answered with the execution of the identifier that is in flight. -/
theorem fst_cancel_eq_some_iff (h : o.Consistent) {id : RequestId} {g : Nat} :
    (o.cancel id).1 = some g ↔
      ∃ e ∈ o.executions, e.isInFlight = true ∧ e.request.id = id ∧ e.generation = g := by
  rw [fst_cancel, h.distinct.generation?_eq_some_iff, h.mem_entries_iff]

/-- A cancellation takes out the entry of the execution that it tells. -/
theorem mem_entries_remove (h : o.Consistent) {e : Execution} (he : e ∈ o.executions)
    (hin : e.isInFlight = true) {id : RequestId} {g : Nat} :
    (id, g) ∈ (o.board.inFlight.remove e.request.id).entries ↔
      ∃ x ∈ o.executions.map (notify e.generation),
        x.isInFlight = true ∧ x.request.id = id ∧ x.generation = g := by
  simp only [InFlight.mem_remove, h.mem_entries_iff, List.mem_map]
  constructor
  · rintro ⟨⟨x, hx, hxin, rfl, rfl⟩, hne⟩
    have hxe : x.generation ≠ e.generation := fun heq =>
      hne (by rw [h.eq_of_generation_eq hx he heq])
    refine ⟨_, ⟨x, hx, rfl⟩, ?_, by simp, by simp⟩
    simp [isInFlight_notify, hxin, hxe]
  · rintro ⟨_, ⟨x, hx, rfl⟩, hxin, rfl, rfl⟩
    simp only [isInFlight_notify, Bool.and_eq_true, decide_eq_true_eq] at hxin
    refine ⟨⟨x, hx, hxin.1, by simp, by simp⟩, fun heq => hxin.2 ?_⟩
    -- Of two executions of one identifier in flight, both have its one entry.
    have hxmem := (h.mem_entries_iff _ _).mpr ⟨x, hx, hxin.1, rfl, rfl⟩
    have hemem := (h.mem_entries_iff _ _).mpr ⟨e, he, hin, rfl, rfl⟩
    simp only [request_notify] at heq
    exact h.distinct.eq_of_mem hxmem (heq ▸ hemem)

/-- Cancelling keeps the orchestrator consistent. -/
theorem cancel (h : o.Consistent) (id : RequestId) : (o.cancel id).2.Consistent := by
  cases hg : o.board.inFlight.generation? id with
  | none =>
    rw [snd_cancel_of_none hg]
    exact h
  | some g =>
    rw [snd_cancel_of_some hg]
    obtain ⟨e, he, hin, rfl, rfl⟩ := h.fst_cancel_eq_some_iff.mp ((fst_cancel o id).trans hg)
    have hgenerations : (o.executions.map (notify e.generation)).map (·.generation) =
        o.executions.map (·.generation) := by simp [Function.comp_def]
    refine
      { numbered := hgenerations.trans h.numbered
        distinct := h.distinct.remove
        mem_entries_iff := fun _ _ => h.mem_entries_remove he hin
        latest := ?latest
        traced := ?traced
        unnoted := fun g hg => h.unnoted g (hgenerations ▸ hg) }
    case latest =>
      intro _ hmap g hmem
      obtain ⟨x, hx, rfl⟩ := List.mem_map.mp hmap
      simp only [request_notify, generation_notify, InFlight.mem_remove] at hmem ⊢
      exact h.latest x hx g hmem.1
    case traced =>
      intro _ hmap
      obtain ⟨x, hx, rfl⟩ := List.mem_map.mp hmap
      have htraced := h.traced x hx
      by_cases hxe : x.generation = e.generation
      · obtain rfl := h.eq_of_generation_eq hx he hxe
        have hover : x.phase.isOver = false := by
          simp only [Execution.isInFlight, Bool.and_eq_true, Bool.not_eq_true'] at hin
          exact hin.2
        simpa [notify] using htraced.cancel hover
      · rw [notify_of_ne hxe]
        exact htraced

end Consistent

/-! ## Submitting -/

/-- The execution of a request that waits to learn which models there are. -/
def entrant (o : Orchestrator) (r : Request) (generation : Nat) : Execution :=
  ⟨⟨generation, r, o.now, false⟩, .selecting (o.now + o.setup.models.listingDelay)⟩

/-- Takes in the execution of a request. -/
def enrol (o : Orchestrator) (r : Request) (generation : Nat) (inFlight : InFlight) :
    Orchestrator :=
  { o with
    board := { o.board with inFlight }.note generation [.publish (.requestStarted r)]
    executions := o.executions ++ [o.entrant r generation] }

section Enrol

variable {o : Orchestrator} {r : Request} {g : Nat} {f : InFlight}

@[simp] theorem inFlight_enrol : (o.enrol r g f).board.inFlight = f :=
  rfl

@[simp] theorem journal_enrol :
    (o.enrol r g f).board.journal = o.board.journal.note g [.publish (.requestStarted r)] :=
  rfl

@[simp] theorem executions_enrol :
    (o.enrol r g f).executions = o.executions ++ [o.entrant r g] :=
  rfl

theorem mem_executions_enrol {e : Execution} :
    e ∈ (o.enrol r g f).executions ↔ e ∈ o.executions ∨ e = o.entrant r g := by
  simp

end Enrol

@[simp] theorem snd_perform_submit (o : Orchestrator) (r : Request) :
    (o.perform (.submit r)).2 = (o.submit r).2 := by
  simp only [perform]
  split <;> simp_all

/-- A request that is refused changes nothing. -/
theorem submit_eq_error {o : Orchestrator} {r : Request} {f : RequestFailure}
    (h : o.board.inFlight.register r.id = .error f) : o.submit r = (.error f, o) := by
  simp [submit, h]

namespace Consistent

variable {o : Orchestrator} {r : Request} {g : Nat} {f : InFlight}

/-- A request that is taken in gets a new generation. -/
theorem lt_of_register (h : o.Consistent) (hr : o.board.inFlight.register r.id = .ok (g, f))
    {e : Execution} (he : e ∈ o.executions) : e.generation < g := by
  obtain ⟨-, rfl, -⟩ := InFlight.register_eq_ok_iff.mp hr
  exact Nat.lt_succ_of_le (h.generation_le he)

/-- Enrolling an execution keeps the orchestrator consistent. -/
theorem enrol (h : o.Consistent) (hr : o.board.inFlight.register r.id = .ok (g, f)) :
    (o.enrol r g f).Consistent := by
  obtain ⟨hfree, hg, hf⟩ := InFlight.register_eq_ok_iff.mp hr
  refine
    { numbered := ?numbered
      distinct := h.distinct.register hr
      mem_entries_iff := ?entries
      latest := ?latest
      traced := ?traced
      unnoted := ?unnoted }
  case numbered =>
    simp [entrant, h.numbered, hf, hg, List.range'_concat, Nat.add_comm]
  case entries =>
    intro id g'
    simp only [inFlight_enrol, hf, List.mem_append, List.mem_singleton, h.mem_entries_iff,
      Prod.mk.injEq, mem_executions_enrol]
    constructor
    · rintro (⟨x, hx, hxin, rfl, rfl⟩ | ⟨rfl, rfl⟩)
      · exact ⟨x, Or.inl hx, hxin, rfl, rfl⟩
      · exact ⟨_, Or.inr rfl, rfl, rfl, rfl⟩
    · rintro ⟨x, hx | rfl, hxin, rfl, rfl⟩
      · exact Or.inl ⟨x, hx, hxin, rfl, rfl⟩
      · exact Or.inr ⟨rfl, rfl⟩
  case latest =>
    intro x hx g' hmem
    simp only [inFlight_enrol, hf, List.mem_append, List.mem_singleton, Prod.mk.injEq] at hmem
    rcases mem_executions_enrol.mp hx with hold | rfl
    · rcases hmem with hmem | ⟨-, rfl⟩
      · exact h.latest x hold g' hmem
      · exact Nat.le_of_lt (h.lt_of_register hr hold)
    · rcases hmem with hmem | ⟨-, rfl⟩
      · exact absurd hmem (hfree g')
      · exact Nat.le_refl _
  case traced =>
    intro x hx
    rcases mem_executions_enrol.mp hx with hx | rfl
    · have hne : x.generation ≠ g := Nat.ne_of_lt (h.lt_of_register hr hx)
      rw [journal_enrol, Journal.eventsOf, Journal.deedsOf_note_of_ne hne]
      exact h.traced x hx
    · have hnew : g ∉ o.executions.map (·.generation) := by
        simpa using fun x hx => Nat.ne_of_lt (h.lt_of_register hr hx)
      simp [entrant, Ticket.Traced, Journal.eventsOf, h.unnoted g hnew]
  case unnoted =>
    intro g' hg'
    simp only [executions_enrol, List.map_append, List.map_singleton, entrant, List.mem_append,
      List.mem_singleton, not_or] at hg'
    rw [journal_enrol, Journal.deedsOf_note_of_ne hg'.2]
    exact h.unnoted g' hg'.1

/-- A request is submitted by enrolling its execution and polling it. -/
theorem submit_eq_ok (h : o.Consistent) (hr : o.board.inFlight.register r.id = .ok (g, f)) :
    o.submit r = (.ok g, (o.enrol r g f).poll g) := by
  have hsame : ∀ e : Execution, e.generation = g →
      replace (o.enrol r g f).executions e = o.executions ++ [e] := by
    rintro e rfl
    unfold Orchestrator.enrol replace
    rw [List.map_append, List.map_singleton, entrant, if_pos rfl]
    conv_rhs => rw [← List.map_id o.executions]
    rw [List.map_congr_left fun x hx => if_neg (Nat.ne_of_lt (h.lt_of_register hr hx))]
    rfl
  have hlet := (h.enrol hr).letExecution_eq (mem_executions_enrol.mpr (Or.inr rfl))
    (Execution.poll o.setup)
  rw [hsame _ rfl] at hlet
  rw [submit, hr]
  exact Prod.ext rfl hlet.symm

/-- Submitting keeps the orchestrator consistent. -/
theorem submit (h : o.Consistent) (r : Request) : (o.submit r).2.Consistent := by
  cases hr : o.board.inFlight.register r.id with
  | error f =>
    rw [submit_eq_error hr]
    exact h
  | ok taken =>
    obtain ⟨g, f⟩ := taken
    rw [h.submit_eq_ok hr]
    exact (h.enrol hr).poll g

/-- Time that passes keeps an orchestrator consistent. -/
theorem pass (h : o.Consistent) (millis : Nat) : (o.pass millis).Consistent :=
  ⟨h.numbered, h.distinct, h.mem_entries_iff, h.latest, h.traced, h.unnoted⟩

/-- Every step keeps the orchestrator consistent. -/
theorem perform (h : o.Consistent) (a : Action) : (o.perform a).2.Consistent := by
  cases a with
  | submit r => simpa using h.submit r
  | cancel id => exact h.cancel id
  | drop g => exact h.drop g
  | poll g => exact h.poll g
  | pass millis => exact h.pass millis

end Consistent

end Orchestrator

end Switchboard
