import Mathlib.Data.List.Forall2
import Switchboard.Proofs.Orchestration.Plain

/-!
# What is seen of an identifier

The sight of an identifier is all that its callers can see: how far its executions have come, in
the order of their start, and the events about it. What executions of other identifiers do leaves
it as it is, and from equal sights the same step on the identifier leads to equal sights
(`sight_letExecution`, `sight_cancel`, `sight_enrol`). The generations differ, so executions are
told apart by their place among those of the identifier (`Matched`).
-/

namespace Switchboard

/-- What is seen of an execution: neither its generation nor what it has read. -/
def Execution.sight (e : Execution) : Execution :=
  { e with generation := 0, phase := e.phase.forget }

/-- What is seen of an identifier. -/
structure Sight where
  setup : Setup
  script : MemoryScript
  executions : List Execution
  events : List Event

namespace Orchestrator

/-- The executions of an identifier in the order of their start. -/
def executionsOf (o : Orchestrator) (id : RequestId) : List Execution :=
  o.executions.filter fun e => e.request.id = id

/-- Their generations. -/
def generationsOf (o : Orchestrator) (id : RequestId) : List Nat :=
  (o.executionsOf id).map (·.generation)

/-- What is seen of an identifier. -/
def sight (o : Orchestrator) (id : RequestId) : Sight where
  setup := o.setup
  script := o.board.memory.script
  executions := (o.executionsOf id).map Execution.sight
  events := o.board.journal.eventsAbout id

/-- Two generations belong to executions at the same place among those of an identifier. -/
def Matched (id : RequestId) (o₁ o₂ : Orchestrator) (g₁ g₂ : Nat) : Prop :=
  ∃ n : Nat, (o₁.generationsOf id)[n]? = some g₁ ∧ (o₂.generationsOf id)[n]? = some g₂

/-- An orchestrator with a plain setup, whose executions run plain tools only. -/
structure Plain (o : Orchestrator) : Prop where
  consistent : o.Consistent
  setup : o.setup.IsPlain
  phase : ∀ e ∈ o.executions, e.phase.IsPlain

variable {o o₁ o₂ : Orchestrator} {id : RequestId} {e e₁ e₂ : Execution} {g g₁ g₂ n : Nat}

theorem mem_executionsOf : e ∈ o.executionsOf id ↔ e ∈ o.executions ∧ e.request.id = id := by
  simp [executionsOf]

theorem mem_generationsOf :
    g ∈ o.generationsOf id ↔ ∃ e ∈ o.executions, e.request.id = id ∧ e.generation = g := by
  simp [generationsOf, mem_executionsOf, and_assoc]

theorem Consistent.mem_generationsOf_iff (h : o.Consistent) (he : e ∈ o.executions) :
    e.generation ∈ o.generationsOf id ↔ e.request.id = id := by
  rw [mem_generationsOf]
  constructor
  · rintro ⟨x, hx, hid, hg⟩
    rwa [← h.eq_of_generation_eq hx he hg]
  · exact fun hid => ⟨e, he, hid, rfl⟩

/-- The generations of an identifier are distinct. -/
theorem Consistent.nodup_generationsOf (h : o.Consistent) : (o.generationsOf id).Nodup :=
  h.nodup_generations.sublist (List.filter_sublist.map _)

section Sights

/-- What is seen to be the same of two executions. -/
structure Seen (e₁ e₂ : Execution) : Prop where
  request_eq : e₁.request = e₂.request
  startedAt_eq : e₁.startedAt = e₂.startedAt
  cancelled_eq : e₁.cancelled = e₂.cancelled
  forget_eq : e₁.phase.forget = e₂.phase.forget

/-- Executions look the same exactly if they differ at most in generation and recollection. -/
theorem sight_eq_iff : e₁.sight = e₂.sight ↔ Seen e₁ e₂ := by
  obtain ⟨⟨_, _, _, _⟩, _⟩ := e₁
  obtain ⟨⟨_, _, _, _⟩, _⟩ := e₂
  simp only [Execution.sight, Execution.mk.injEq, Ticket.mk.injEq, true_and]
  exact ⟨fun ⟨⟨h₁, h₂, h₃⟩, h₄⟩ => ⟨h₁, h₂, h₃, h₄⟩, fun h => ⟨⟨h.1, h.2, h.3⟩, h.4⟩⟩

theorem Seen.of_toTicket {e₁' e₂' : Execution} (h : Seen e₁ e₂)
    (h₁ : e₁'.toTicket = e₁.toTicket) (h₂ : e₂'.toTicket = e₂.toTicket)
    (hforget : e₁'.phase.forget = e₂'.phase.forget) : Seen e₁' e₂' where
  request_eq := by rw [h₁, h₂, h.request_eq]
  startedAt_eq := by rw [h₁, h₂, h.startedAt_eq]
  cancelled_eq := by rw [h₁, h₂, h.cancelled_eq]
  forget_eq := hforget

theorem Seen.isOver_eq (h : Seen e₁ e₂) : e₁.phase.isOver = e₂.phase.isOver := by
  rw [← Phase.isOver_forget, h.forget_eq, Phase.isOver_forget]

theorem Seen.wake_eq (h : Seen e₁ e₂) : e₁.phase.wake = e₂.phase.wake := by
  rw [← Phase.wake_forget, h.forget_eq, Phase.wake_forget]

theorem Seen.response?_eq (h : Seen e₁ e₂) : e₁.phase.response? = e₂.phase.response? := by
  rw [← Phase.response?_forget, h.forget_eq, Phase.response?_forget]

theorem Seen.isInFlight_eq (h : Seen e₁ e₂) : e₁.isInFlight = e₂.isInFlight := by
  rw [Execution.isInFlight, Execution.isInFlight, h.cancelled_eq, h.isOver_eq]

variable (h : o₁.sight id = o₂.sight id)
include h

theorem setup_eq_of_sight : o₁.setup = o₂.setup :=
  congrArg Sight.setup h

theorem script_eq_of_sight : o₁.board.memory.script = o₂.board.memory.script :=
  congrArg Sight.script h

theorem events_eq_of_sight : o₁.board.journal.eventsAbout id = o₂.board.journal.eventsAbout id :=
  congrArg Sight.events h

/-- Where the same is seen, executions look the same one by one. -/
theorem forall₂_seen : List.Forall₂ Seen (o₁.executionsOf id) (o₂.executionsOf id) := by
  have heq : (o₁.executionsOf id).map Execution.sight = (o₂.executionsOf id).map Execution.sight :=
    congrArg Sight.executions h
  rw [← List.forall₂_eq_eq_eq, List.forall₂_map_left_iff, List.forall₂_map_right_iff] at heq
  exact heq.imp fun _ _ => sight_eq_iff.mp

theorem length_executionsOf_eq :
    (o₁.executionsOf id).length = (o₂.executionsOf id).length :=
  (forall₂_seen h).length_eq

/-- The executions at one place are seen to be the same. -/
theorem seen_of_getElem? (h₁ : (o₁.executionsOf id)[n]? = some e₁)
    (h₂ : (o₂.executionsOf id)[n]? = some e₂) : Seen e₁ e₂ := by
  obtain ⟨hn₁, rfl⟩ := List.getElem?_eq_some_iff.mp h₁
  obtain ⟨hn₂, rfl⟩ := List.getElem?_eq_some_iff.mp h₂
  exact (forall₂_seen h).get hn₁ hn₂

end Sights

/-- Matched generations have their executions at one place. -/
theorem Matched.exists_getElem? (h : Matched id o₁ o₂ g₁ g₂) : ∃ (n : Nat) (e₁ e₂ : Execution),
    (o₁.executionsOf id)[n]? = some e₁ ∧ e₁.generation = g₁ ∧
      (o₂.executionsOf id)[n]? = some e₂ ∧ e₂.generation = g₂ := by
  obtain ⟨n, h₁, h₂⟩ := h
  rw [generationsOf, List.getElem?_map, Option.map_eq_some_iff] at h₁ h₂
  obtain ⟨e₁, he₁, hg₁⟩ := h₁
  obtain ⟨e₂, he₂, hg₂⟩ := h₂
  exact ⟨n, e₁, e₂, he₁, hg₁, he₂, hg₂⟩

theorem matched_of_getElem? (h₁ : (o₁.executionsOf id)[n]? = some e₁)
    (h₂ : (o₂.executionsOf id)[n]? = some e₂) :
    Matched id o₁ o₂ e₁.generation e₂.generation :=
  ⟨n, by simp [generationsOf, h₁], by simp [generationsOf, h₂]⟩

/-- An execution of an identifier has its generation alone, and its place alone. -/
theorem Consistent.generation_eq_iff {m : Nat} (h : o.Consistent)
    (h₁ : (o.executionsOf id)[n]? = some e₁) (h₂ : (o.executionsOf id)[m]? = some e₂) :
    e₂.generation = e₁.generation ↔ m = n := by
  have hg₁ : (o.generationsOf id)[n]? = some e₁.generation := by simp [generationsOf, h₁]
  have hg₂ : (o.generationsOf id)[m]? = some e₂.generation := by simp [generationsOf, h₂]
  constructor
  · intro hg
    obtain ⟨hlt, -⟩ := List.getElem?_eq_some_iff.mp hg₂
    exact (List.getElem?_inj hlt h.nodup_generationsOf).mp (hg₂.trans (hg ▸ hg₁.symm))
  · rintro rfl
    rw [Option.some.inj (h₂.symm.trans h₁)]

/-- Sights are equal if the executions are changed alike, place by place. -/
theorem map_sight_eq {f₁ f₂ : Execution → Execution}
    (hlength : (o₁.executionsOf id).length = (o₂.executionsOf id).length)
    (hf : ∀ (n : Nat) e₁ e₂, (o₁.executionsOf id)[n]? = some e₁ →
      (o₂.executionsOf id)[n]? = some e₂ → Seen (f₁ e₁) (f₂ e₂)) :
    ((o₁.executionsOf id).map f₁).map Execution.sight =
      ((o₂.executionsOf id).map f₂).map Execution.sight := by
  refine List.ext_getElem (by simpa using hlength) fun n hn₁ hn₂ => ?_
  simp only [List.length_map] at hn₁ hn₂
  simp only [List.getElem_map]
  exact sight_eq_iff.mpr (hf n _ _ (List.getElem?_eq_getElem hn₁) (List.getElem?_eq_getElem hn₂))

/-! ## What one execution does -/

/-- What executions are let do that shows to callers of their own identifier only, and there in the
same way to executions in the same position. -/
structure Discreet (f : Execution → Board → Execution × Board) : Prop where
  script_eq : ∀ e b, (f e b).2.memory.script = b.memory.script
  now_eq : ∀ e b, (f e b).2.now = b.now
  eventsAbout_eq : ∀ e b id, e.request.id ≠ id →
    (f e b).2.journal.eventsAbout id = b.journal.eventsAbout id
  isPlain : ∀ e b, e.phase.IsPlain → (f e b).1.phase.IsPlain
  agree : ∀ e₁ e₂ b₁ b₂, Ticket.Alike e₁.toTicket e₂.toTicket b₁ b₂ → e₁.phase.IsPlain →
    e₁.phase.forget = e₂.phase.forget → Ticket.Agree e₁.request.id
      ((f e₁ b₁).1.phase, (f e₁ b₁).2) ((f e₂ b₂).1.phase, (f e₂ b₂).2)

/-- A poll shows other identifiers nothing. -/
theorem discreet_poll {s : Setup} (hs : s.IsPlain) : Discreet (Execution.poll s) where
  script_eq _ _ := Ticket.poll_now_and_script.2
  now_eq _ _ := Ticket.poll_now_and_script.1
  eventsAbout_eq _ _ _ := Ticket.eventsAbout_poll
  isPlain _ _ := Ticket.isPlain_poll hs
  agree _ _ _ _ h := h.poll hs

theorem discreet_drop : Discreet Execution.drop where
  script_eq e b := by
    unfold Execution.drop
    split <;> rfl
  now_eq e b := by
    unfold Execution.drop
    split <;> rfl
  eventsAbout_eq e b id hid := by
    unfold Execution.drop
    split <;> simp [Event.requestId, hid]
  isPlain e b h := by
    unfold Execution.drop
    split
    · exact h
    · trivial
  agree e₁ e₂ b₁ b₂ h _ hforget := by
    have hover : e₁.phase.isOver = e₂.phase.isOver := by
      rw [← Phase.isOver_forget, hforget, Phase.isOver_forget]
    unfold Execution.drop
    rw [hover]
    split
    · exact h.agree hforget
    · exact ⟨rfl, by simpa [h.request_eq] using h.events_eq⟩

section LetExecution

variable {f : Execution → Board → Execution × Board}

theorem Consistent.executionsOf_letExecution (h : o.Consistent) (hf : o.Turns f) :
    (o.letExecution g f).executionsOf id =
      (o.executionsOf id).map fun e => if e.generation = g then (f e o.board).1 else e := by
  rw [executionsOf, h.executions_letExecution hf, List.filter_map, executionsOf]
  congr 2
  funext e
  simp only [Function.comp_apply]
  split
  · rw [show (f e o.board).1.request = e.request from
      congrArg Ticket.request (hf.toTicket_eq e _)]
  · rfl

/-- A turn adds no generation. -/
theorem Consistent.generationsOf_letExecution (h : o.Consistent) (hf : o.Turns f) :
    (o.letExecution g f).generationsOf id = o.generationsOf id := by
  rw [generationsOf, h.executionsOf_letExecution hf, List.map_map, generationsOf]
  refine List.map_congr_left fun e _ => ?_
  simp only [Function.comp_apply]
  split
  · exact congrArg Ticket.generation (hf.toTicket_eq e _)
  · rfl

/-- The board after an execution has been let do something. -/
theorem Consistent.board_letExecution (h : o.Consistent) (he : e ∈ o.executions) :
    (o.letExecution e.generation f).board = (f e o.board).2 := by
  rw [h.letExecution_eq he]

theorem Plain.letExecution (h : o.Plain) (hf : o.Turns f) (hd : Discreet f) :
    (o.letExecution g f).Plain where
  consistent := h.consistent.letExecution hf g
  setup := setup_letExecution.symm ▸ h.setup
  phase := h.consistent.forall_letExecution hf (fun e he _ => h.phase e he)
    fun e he _ => hd.isPlain _ _ (h.phase e he)

/-- What an execution of another identifier does is not seen. -/
theorem Plain.sight_letExecution_of_notMem (h : o.Plain) (hf : o.Turns f) (hd : Discreet f)
    (hg : g ∉ o.generationsOf id) : (o.letExecution g f).sight id = o.sight id := by
  by_cases hex : ∃ e ∈ o.executions, e.generation = g
  case neg => rw [letExecution_of_forall_ne fun e he heq => hex ⟨e, he, heq⟩]
  case pos =>
    obtain ⟨e, he, rfl⟩ := hex
    have hid : e.request.id ≠ id := fun hid => hg ((h.consistent.mem_generationsOf_iff he).mpr hid)
    have hsame : (o.letExecution e.generation f).executionsOf id = o.executionsOf id := by
      rw [h.consistent.executionsOf_letExecution hf]
      conv_rhs => rw [← List.map_id (o.executionsOf id)]
      refine List.map_congr_left fun x hx => if_neg fun hxe => hg ?_
      obtain ⟨hmem, hidx⟩ := mem_executionsOf.mp hx
      exact hxe ▸ mem_generationsOf.mpr ⟨x, hmem, hidx, rfl⟩
    simp only [sight, hsame, setup_letExecution, h.consistent.board_letExecution he, hd.script_eq,
      hd.eventsAbout_eq _ _ _ hid]

/-- Two executions that are seen to be the same are in the same position. -/
theorem Consistent.alike (h₁ : o₁.Consistent) (h₂ : o₂.Consistent)
    (hsight : o₁.sight id = o₂.sight id) (hnow : o₁.now = o₂.now) (he₁ : e₁ ∈ o₁.executions)
    (he₂ : e₂ ∈ o₂.executions) (hid : e₁.request.id = id) (hseen : Seen e₁ e₂) :
    Ticket.Alike e₁.toTicket e₂.toTicket o₁.board o₂.board where
  request_eq := hseen.request_eq
  startedAt_eq := hseen.startedAt_eq
  cancelled_eq := hseen.cancelled_eq
  now_eq := hnow
  script_eq := script_eq_of_sight hsight
  holds_eq := by
    rw [h₁.holds_eq he₁, h₂.holds_eq he₂, hseen.isInFlight_eq]
  events_eq := by
    rw [← hseen.request_eq, hid]
    exact events_eq_of_sight hsight

/-- Executions at the same place do the same, as far as is seen. -/
theorem sight_letExecution (h₁ : o₁.Plain) (h₂ : o₂.Plain) (hf₁ : o₁.Turns f)
    (hf₂ : o₂.Turns f) (hd : Discreet f)
    (hsight : o₁.sight id = o₂.sight id) (hnow : o₁.now = o₂.now)
    (hmatched : Matched id o₁ o₂ g₁ g₂) :
    (o₁.letExecution g₁ f).sight id = (o₂.letExecution g₂ f).sight id := by
  obtain ⟨n, e₁, e₂, hn₁, rfl, hn₂, rfl⟩ := hmatched.exists_getElem?
  obtain ⟨he₁, hid₁⟩ := mem_executionsOf.mp (List.mem_of_getElem? hn₁)
  obtain ⟨he₂, hid₂⟩ := mem_executionsOf.mp (List.mem_of_getElem? hn₂)
  have hseen := seen_of_getElem? hsight hn₁ hn₂
  have halike := h₁.consistent.alike h₂.consistent hsight hnow he₁ he₂ hid₁ hseen
  have hagree := hd.agree e₁ e₂ _ _ halike (h₁.phase e₁ he₁) hseen.forget_eq
  rw [hid₁] at hagree
  have hexecutions : ((o₁.letExecution e₁.generation f).executionsOf id).map Execution.sight =
      ((o₂.letExecution e₂.generation f).executionsOf id).map Execution.sight := by
    rw [h₁.consistent.executionsOf_letExecution hf₁, h₂.consistent.executionsOf_letExecution hf₂]
    refine map_sight_eq (length_executionsOf_eq hsight) fun n' x₁ x₂ hx₁ hx₂ => ?_
    by_cases hn : n' = n
    · subst hn
      obtain rfl : e₁ = x₁ := Option.some.inj (hn₁.symm.trans hx₁)
      obtain rfl : e₂ = x₂ := Option.some.inj (hn₂.symm.trans hx₂)
      simp only [if_true]
      exact hseen.of_toTicket (hf₁.toTicket_eq ..) (hf₂.toTicket_eq ..) hagree.forget_eq
    · rw [if_neg (mt (h₁.consistent.generation_eq_iff hn₁ hx₁).mp hn),
        if_neg (mt (h₂.consistent.generation_eq_iff hn₂ hx₂).mp hn)]
      exact seen_of_getElem? hsight hx₁ hx₂
  simp only [sight, setup_letExecution, hexecutions, h₁.consistent.board_letExecution he₁,
    h₂.consistent.board_letExecution he₂, hd.script_eq, setup_eq_of_sight hsight,
    script_eq_of_sight hsight, hagree.events_eq]

end LetExecution

/-- A poll keeps an orchestrator plain. -/
theorem Plain.poll (h : o.Plain) (g : Nat) : (o.poll g).Plain :=
  h.letExecution h.consistent.turns_poll (discreet_poll h.setup)

theorem Plain.drop (h : o.Plain) (g : Nat) : (o.drop g).Plain :=
  h.letExecution h.consistent.turns_drop discreet_drop

@[simp] theorem now_poll : (o.poll g).now = o.now := by
  unfold poll letExecution
  split
  · exact Ticket.poll_now_and_script.1
  · rfl

@[simp] theorem now_drop : (o.drop g).now = o.now := by
  unfold drop letExecution
  split
  · exact discreet_drop.now_eq _ _
  · rfl

@[simp] theorem script_poll : (o.poll g).board.memory.script = o.board.memory.script := by
  unfold poll letExecution
  split
  · exact Ticket.poll_now_and_script.2
  · rfl

@[simp] theorem script_drop : (o.drop g).board.memory.script = o.board.memory.script := by
  unfold drop letExecution
  split
  · exact discreet_drop.script_eq _ _
  · rfl

theorem Consistent.generationsOf_poll (h : o.Consistent) :
    (o.poll g).generationsOf id = o.generationsOf id :=
  h.generationsOf_letExecution h.turns_poll

/-- A poll of another execution is not seen. -/
theorem Plain.sight_poll_of_notMem (h : o.Plain) (hg : g ∉ o.generationsOf id) :
    (o.poll g).sight id = o.sight id :=
  h.sight_letExecution_of_notMem h.consistent.turns_poll (discreet_poll h.setup) hg

theorem Plain.sight_drop_of_notMem (h : o.Plain) (hg : g ∉ o.generationsOf id) :
    (o.drop g).sight id = o.sight id :=
  h.sight_letExecution_of_notMem h.consistent.turns_drop discreet_drop hg

/-- Matched executions are polled to the same sight. -/
theorem sight_poll (h₁ : o₁.Plain) (h₂ : o₂.Plain) (hsight : o₁.sight id = o₂.sight id)
    (hnow : o₁.now = o₂.now) (hmatched : Matched id o₁ o₂ g₁ g₂) :
    (o₁.poll g₁).sight id = (o₂.poll g₂).sight id := by
  have hsetup := setup_eq_of_sight hsight
  have hturns := h₂.consistent.turns_poll
  rw [← hsetup] at hturns
  have hpoll := sight_letExecution h₁ h₂ h₁.consistent.turns_poll hturns (discreet_poll h₁.setup)
    hsight hnow hmatched
  rwa [Orchestrator.poll, Orchestrator.poll, ← hsetup]

/-- Matched executions are given up to the same sight. -/
theorem sight_drop (h₁ : o₁.Plain) (h₂ : o₂.Plain) (hsight : o₁.sight id = o₂.sight id)
    (hnow : o₁.now = o₂.now) (hmatched : Matched id o₁ o₂ g₁ g₂) :
    (o₁.drop g₁).sight id = (o₂.drop g₂).sight id :=
  sight_letExecution h₁ h₂ h₁.consistent.turns_drop h₂.consistent.turns_drop discreet_drop hsight
    hnow hmatched

section Cancel

variable {id' : RequestId}

/-- A cancellation notifies the execution that is in flight. -/
theorem executionsOf_cancel_of_some (hg : o.board.inFlight.generation? id' = some g) :
    (o.cancel id').2.executionsOf id = (o.executionsOf id).map (notify g) := by
  simp [executionsOf, snd_cancel_of_some hg, List.filter_map, Function.comp_def]

theorem generationsOf_cancel : (o.cancel id').2.generationsOf id = o.generationsOf id := by
  cases hg : o.board.inFlight.generation? id' with
  | none => rw [snd_cancel_of_none hg]
  | some g => simp [generationsOf, executionsOf_cancel_of_some hg, Function.comp_def]

@[simp] theorem now_cancel : (o.cancel id').2.now = o.now := by
  unfold cancel
  split <;> rfl

@[simp] theorem setup_cancel : (o.cancel id').2.setup = o.setup := by
  unfold cancel
  split <;> rfl

@[simp] theorem script_cancel :
    (o.cancel id').2.board.memory.script = o.board.memory.script := by
  unfold cancel
  split <;> rfl

/-- A cancellation keeps an orchestrator plain. -/
theorem Plain.cancel (h : o.Plain) (id' : RequestId) : (o.cancel id').2.Plain where
  consistent := h.consistent.cancel id'
  setup := setup_cancel.symm ▸ h.setup
  phase := forall_cancel id' h.phase h.phase

/-- A generation in flight is that of an execution in flight. -/
theorem Consistent.exists_of_generation? (h : o.Consistent)
    (hg : o.board.inFlight.generation? id = some g) :
    ∃ (n : Nat) (e : Execution), (o.executionsOf id)[n]? = some e ∧ e.generation = g ∧
      e.isInFlight = true := by
  obtain ⟨e, he, hin, hid, rfl⟩ := h.fst_cancel_eq_some_iff.mp ((fst_cancel o id).trans hg)
  obtain ⟨n, hn⟩ := List.mem_iff_getElem?.mp (mem_executionsOf.mpr ⟨he, hid⟩)
  exact ⟨n, e, hn, rfl, hin⟩

/-- A cancellation of another identifier is not seen. -/
theorem Consistent.sight_cancel_of_ne (h : o.Consistent) (hid : id' ≠ id) :
    (o.cancel id').2.sight id = o.sight id := by
  cases hg : o.board.inFlight.generation? id' with
  | none => rw [snd_cancel_of_none hg]
  | some g =>
    obtain ⟨e, he, -, rfl, rfl⟩ := h.fst_cancel_eq_some_iff.mp ((fst_cancel o id').trans hg)
    have hsame : (o.executionsOf id).map (notify e.generation) = o.executionsOf id := by
      conv_rhs => rw [← List.map_id (o.executionsOf id)]
      refine List.map_congr_left fun x hx => notify_of_ne fun hxe => hid ?_
      obtain ⟨hx, hxid⟩ := mem_executionsOf.mp hx
      rw [← h.eq_of_generation_eq hx he hxe, hxid]
    simp only [sight, executionsOf_cancel_of_some hg, hsame]
    rw [snd_cancel_of_some hg]

/-- An identifier that is in flight in one is in flight in the other, at the same place. -/
theorem exists_matched (h₁ : o₁.Consistent) (h₂ : o₂.Consistent)
    (hsight : o₁.sight id = o₂.sight id) (hg₁ : o₁.board.inFlight.generation? id = some g₁) :
    ∃ g₂, o₂.board.inFlight.generation? id = some g₂ ∧ Matched id o₁ o₂ g₁ g₂ := by
  obtain ⟨n, e₁, hn₁, rfl, hin⟩ := h₁.exists_of_generation? hg₁
  obtain ⟨hlt, -⟩ := List.getElem?_eq_some_iff.mp hn₁
  have hn₂ := List.getElem?_eq_getElem (length_executionsOf_eq hsight ▸ hlt)
  have hseen := seen_of_getElem? hsight hn₁ hn₂
  obtain ⟨he₂, hid₂⟩ := mem_executionsOf.mp (List.mem_of_getElem? hn₂)
  refine ⟨_, ?_, matched_of_getElem? hn₁ hn₂⟩
  rw [← fst_cancel]
  exact h₂.fst_cancel_eq_some_iff.mpr ⟨_, he₂, hseen.isInFlight_eq ▸ hin, hid₂, rfl⟩

/-- Both orchestrators have an execution of the identifier in flight, at the same place, or neither
has. -/
theorem inFlight_cases (h₁ : o₁.Consistent) (h₂ : o₂.Consistent)
    (hsight : o₁.sight id = o₂.sight id) :
    (o₁.board.inFlight.generation? id = none ∧ o₂.board.inFlight.generation? id = none) ∨
      ∃ g₁ g₂, o₁.board.inFlight.generation? id = some g₁ ∧
        o₂.board.inFlight.generation? id = some g₂ ∧ Matched id o₁ o₂ g₁ g₂ := by
  cases hg₁ : o₁.board.inFlight.generation? id with
  | some g₁ =>
    obtain ⟨g₂, hg₂, hmatched⟩ := exists_matched h₁ h₂ hsight hg₁
    exact Or.inr ⟨g₁, g₂, rfl, hg₂, hmatched⟩
  | none =>
    cases hg₂ : o₂.board.inFlight.generation? id with
    | none => exact Or.inl ⟨rfl, rfl⟩
    | some g₂ =>
      obtain ⟨g₁, hg, -⟩ := exists_matched h₂ h₁ hsight.symm hg₂
      simp [hg₁] at hg

/-- A cancellation comes to the same sight where the same was seen. -/
theorem sight_cancel (h₁ : o₁.Consistent) (h₂ : o₂.Consistent)
    (hsight : o₁.sight id = o₂.sight id) :
    (o₁.cancel id).2.sight id = (o₂.cancel id).2.sight id := by
  rcases inFlight_cases h₁ h₂ hsight with ⟨hg₁, hg₂⟩ | ⟨g₁, g₂, hg₁, hg₂, hmatched⟩
  · rw [snd_cancel_of_none hg₁, snd_cancel_of_none hg₂, hsight]
  · obtain ⟨n, e₁, e₂, hn₁, rfl, hn₂, rfl⟩ := hmatched.exists_getElem?
    have hexecutions : ((o₁.executionsOf id).map (notify e₁.generation)).map Execution.sight =
        ((o₂.executionsOf id).map (notify e₂.generation)).map Execution.sight := by
      refine map_sight_eq (length_executionsOf_eq hsight) fun m x₁ x₂ hx₁ hx₂ => ?_
      have hseen := seen_of_getElem? hsight hx₁ hx₂
      have hiff₁ := h₁.generation_eq_iff hn₁ hx₁
      have hiff₂ := h₂.generation_eq_iff hn₂ hx₂
      by_cases hm : m = n
      · rw [notify, notify, if_pos (hiff₁.mpr hm), if_pos (hiff₂.mpr hm)]
        exact ⟨hseen.request_eq, hseen.startedAt_eq, rfl, hseen.forget_eq⟩
      · rw [notify_of_ne (mt hiff₁.mp hm), notify_of_ne (mt hiff₂.mp hm)]
        exact hseen
    simp only [sight, executionsOf_cancel_of_some hg₁, executionsOf_cancel_of_some hg₂, hexecutions]
    rw [snd_cancel_of_some hg₁, snd_cancel_of_some hg₂]
    simp only [setup_eq_of_sight hsight, script_eq_of_sight hsight, events_eq_of_sight hsight]

end Cancel

section Enrol

variable {r : Request} {f f₁ f₂ : InFlight}

/-- A request adds an execution to those of its identifier. -/
theorem executionsOf_enrol :
    (o.enrol r g f).executionsOf id =
      o.executionsOf id ++ if r.id = id then [o.entrant r g] else [] := by
  by_cases hid : r.id = id <;> simp [executionsOf, entrant, hid]

theorem generationsOf_enrol :
    (o.enrol r g f).generationsOf id = o.generationsOf id ++ if r.id = id then [g] else [] := by
  by_cases hid : r.id = id <;> simp [generationsOf, executionsOf_enrol, entrant, hid]

theorem Plain.enrol (h : o.Plain) (hr : o.board.inFlight.register r.id = .ok (g, f)) :
    (o.enrol r g f).Plain where
  consistent := h.consistent.enrol hr
  setup := h.setup
  phase e he := by
    rcases mem_executions_enrol.mp he with he | rfl
    · exact h.phase e he
    · trivial

/-- A request with another identifier is not seen. -/
theorem sight_enrol_of_ne (hid : r.id ≠ id) : (o.enrol r g f).sight id = o.sight id := by
  simp only [sight, executionsOf_enrol, if_neg hid, List.append_nil, journal_enrol,
    Journal.eventsAbout_note]
  simp [Event.requestId, hid, Orchestrator.enrol, Board.note]

/-- A request comes to the same sight where the same was seen. -/
theorem sight_enrol (hsight : o₁.sight r.id = o₂.sight r.id) (hnow : o₁.now = o₂.now) :
    (o₁.enrol r g₁ f₁).sight r.id = (o₂.enrol r g₂ f₂).sight r.id := by
  have hentrant : (o₁.entrant r g₁).sight = (o₂.entrant r g₂).sight := by
    simp only [entrant, Execution.sight, Phase.forget, hnow, setup_eq_of_sight hsight]
  have hexecutions : (o₁.executionsOf r.id).map Execution.sight =
      (o₂.executionsOf r.id).map Execution.sight := congrArg Sight.executions hsight
  simp only [sight, executionsOf_enrol, if_true, List.map_append, List.map_singleton, hentrant,
    hexecutions, journal_enrol, Journal.eventsAbout_note, events_eq_of_sight hsight]
  simp only [Orchestrator.enrol, Board.note, setup_eq_of_sight hsight, script_eq_of_sight hsight]

end Enrol

end Orchestrator

end Switchboard
