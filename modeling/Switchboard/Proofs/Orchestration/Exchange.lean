import Switchboard.Proofs.Memory.History
import Switchboard.Proofs.Orchestration.Run

/-!
# Exchanges

Over an immediate memory an execution that is polled adds its exchange at the instant at which it
completes, and an execution that does not complete adds nothing (`Ticket.saves_poll`). So no
execution is ever left waiting for its exchange to be written, and in every step at most one
execution completes, whose exchange is all that the step adds to the memory
(`Remembering.perform`).
-/

namespace Switchboard

namespace Phase

/-- The response of an execution that completed. -/
def success? (p : Phase) : Option Response :=
  p.response?.filter (·.isSuccess)

/-- Whether the execution waits for its exchange to be written. -/
def isSaving : Phase → Bool
  | saving .. => true
  | _ => false

theorem success?_eq_some_iff {p : Phase} {r : Response} :
    p.success? = some r ↔ p = .ended r ∧ r.error = none := by
  cases p with
  | ended r' =>
    simp only [success?, response?, Option.filter_eq_some_iff, Option.some.injEq,
      Response.isSuccess, Option.isNone_iff_eq_none, ended.injEq]
  | _ => simp [success?, response?]

theorem success?_eq_none_of_isOver {p : Phase} (h : p.isOver = false) : p.success? = none := by
  cases p with
  | ended r => simp [isOver] at h
  | dropped => simp [isOver] at h
  | _ => rfl

theorem response?_eq_none_of_isOver {p : Phase} (h : p.isOver = false) : p.response? = none := by
  cases p with
  | ended r => simp [isOver] at h
  | dropped => simp [isOver] at h
  | _ => rfl

end Phase

namespace Ticket

variable {s : Setup} {t : Ticket} {b : Board} {x y : Phase × Board}

/-- What an execution that is polled on the board `b` has done to the memory when it has come to
`x`: nothing, unless it has completed and added its exchange. -/
structure Saves (s : Setup) (t : Ticket) (b : Board) (x : Phase × Board) : Prop where
  now_eq : x.2.now = b.now
  inFlight_eq : x.1.isOver = false → x.2.inFlight = b.inFlight
  due_le : ∀ account answer write, x.1 = .saving account answer write →
    t.cancelled = false ∧ write.due ≤ b.now
  memory_eq : x.1.success? = none → x.2.memory = b.memory
  memory_eq_update : ∀ r, x.1.success? = some r → ∃ files, x.2.memory =
    (b.memory.update files (s.clock b.now)
      (.append t.request.id t.request.content r.content)).2.1

theorem Saves.refl {phase : Phase} (hover : phase.isOver = false)
    (hsaving : phase.isSaving = false) : Saves s t b (phase, b) where
  now_eq := rfl
  inFlight_eq _ := rfl
  due_le account answer write h := by
    simp only at h
    simp [h, Phase.isSaving] at hsaving
  memory_eq _ := rfl
  memory_eq_update r h := by simp [Phase.success?_eq_none_of_isOver hover] at h

/-- An execution that is neither over nor about to save has done nothing to the memory yet. -/
theorem Saves.next (hx : Saves s t b x) (hover : x.1.isOver = false) (hnow : y.2.now = x.2.now)
    (hmemory : y.2.memory = x.2.memory) (hsaving : y.1.isSaving = false)
    (hflight : y.1.isOver = false → y.2.inFlight = x.2.inFlight)
    (hsuccess : y.1.success? = none) : Saves s t b y where
  now_eq := hnow.trans hx.now_eq
  inFlight_eq h := (hflight h).trans (hx.inFlight_eq hover)
  due_le account answer write h := by simp [h, Phase.isSaving] at hsaving
  memory_eq _ := hmemory.trans (hx.memory_eq (Phase.success?_eq_none_of_isOver hover))
  memory_eq_update r h := by simp [hsuccess] at h

/-- A move over an immediate memory adds nothing, unless it completes the execution. -/
theorem Move.saves (h : Move s t x y) (hmemory : b.memory.IsImmediate)
    (hholds : b.inFlight.holds t.request.id t.generation = !t.cancelled) (hx : Saves s t b x) :
    Saves s t b y := by
  have hover := h.isOver_eq_false
  have hsame := hx.memory_eq (Phase.success?_eq_none_of_isOver hover)
  have hflight : y.1.isOver = false → y.2.inFlight = x.2.inFlight := fun hy => by
    rw [h.inFlight_eq, hy]
    rfl
  cases h with
  | answer houtput =>
    rename_i account pending b' output
    refine ⟨hx.now_eq, fun _ => hx.inFlight_eq rfl, ?_, fun _ => hsame, nofun⟩
    rintro _ _ _ ⟨⟩
    refine ⟨PendingCall.cancelled_eq_false_of_poll houtput, ?_⟩
    have hdelay : b'.memory.writeDelay (t.exchange (account.answer output)) = 0 :=
      Memory.IsImmediate.writeDelay_append (hsame ▸ hmemory)
    rw [hdelay]
    exact Nat.le_of_eq hx.now_eq
  | saved hwrite =>
    rename_i account answer write b'
    have hc := (hx.due_le _ _ _ rfl).1
    have hheld : (t.save s b' answer).inFlight.holds t.request.id t.generation = true := by
      rw [inFlight_save, hx.inFlight_eq rfl, hholds, hc]
      rfl
    rw [settle, if_pos hheld]
    refine ⟨hx.now_eq, nofun, nofun, nofun, ?_⟩
    rintro _ ⟨⟩
    refine ⟨b'.files, ?_⟩
    rw [← hsame, ← hx.now_eq]
    rfl
  | unsaved hwrite =>
    have hdue := (hx.due_le _ _ _ rfl).2
    rw [← hx.now_eq] at hdue
    simp [Timed.progress, hdue] at hwrite
  | _ => exact hx.next hover rfl rfl rfl hflight rfl

/-- Over an immediate memory a poll adds nothing, unless the execution completes. -/
theorem saves_poll {phase : Phase} (hmemory : b.memory.IsImmediate)
    (hholds : b.inFlight.holds t.request.id t.generation = !t.cancelled)
    (hover : phase.isOver = false) (hsaving : phase.isSaving = false) :
    Saves s t b (t.poll s b phase) :=
  poll_induction (fun _ _ hmove hx => hmove.saves hmemory hholds hx) (.refl hover hsaving)

/-! ## No execution is left waiting for its exchange to be written -/

theorem isSaving_settle (account : Account) (answer : Answer) :
    (t.settle b account answer).1.isSaving = false := by
  unfold settle
  split <;> rfl

theorem isSaving_pollCalling (hmemory : b.memory.IsImmediate) (account : Account)
    (pending : PendingCall) : (t.pollCalling s b account pending).1.isSaving = false := by
  unfold pollCalling
  split
  case h_1 output h =>
    have hfinished : (Timed.start b.now 0 s.config.persistTimeout).progress b.now =
        .finished := by
      simp [Timed.start, Timed.progress]
    have hdelay : b.memory.writeDelay (t.exchange (account.answer output)) = 0 :=
      hmemory.writeDelay_append
    rw [beginSaving, if_neg (by simp [PendingCall.cancelled_eq_false_of_poll h])]
    simp only [hdelay, pollSaving, hfinished]
    exact isSaving_settle ..
  case h_2 => rfl
  case h_3 => rfl

theorem isSaving_pollGathering (hmemory : b.memory.IsImmediate) (model : ModelDescriptor)
    (readDue : Nat) (known : Option Recollection) (tools : Dispatch) :
    (t.pollGathering s b model readDue known tools).1.isSaving = false := by
  unfold pollGathering
  dsimp only
  split
  case h_1 =>
    unfold beginCalling
    dsimp only
    split
    · rfl
    · exact isSaving_pollCalling (b := b.note .. |>.note ..) hmemory ..
  case h_2 => rfl

/-- With an immediate memory no poll leaves an exchange waiting to be written. -/
theorem isSaving_poll {phase : Phase} (hmemory : b.memory.IsImmediate)
    (hsaving : phase.isSaving = false) : (t.poll s b phase).1.isSaving = false := by
  cases phase with
  | selecting due =>
    simp only [poll, pollSelecting]
    split
    case isTrue =>
      split
      · exact isSaving_pollGathering (b := { b with currentModel := _ }.note ..) hmemory ..
      · rfl
    case isFalse => rfl
  | gathering model readDue known tools => exact isSaving_pollGathering hmemory ..
  | calling account pending => exact isSaving_pollCalling hmemory ..
  | saving account answer write => simp [Phase.isSaving] at hsaving
  | ended r => rfl
  | dropped => rfl

end Ticket

/-- An execution that completed, and when. -/
structure Completion where
  generation : Nat
  request : Request
  response : Response
  time : Timestamp

/-- The two entries of the exchange. -/
def Completion.entries (c : Completion) : List ConversationEntry :=
  MemoryStore.exchange c.request.content c.response.content c.time

/-- The completion of an execution, if it completed. -/
def Execution.completion? (e : Execution) (time : Timestamp) : Option Completion :=
  e.phase.success?.map fun r => ⟨e.generation, e.request, r, time⟩

namespace Orchestrator

variable {o o' : Orchestrator}

/-- The executions that have completed when the orchestrator has gone on to `o'`. -/
def completionsTo (o o' : Orchestrator) : List Completion :=
  o'.executions.filterMap fun e =>
    if (o.response? e.generation).isSome then none else e.completion? (o'.setup.clock o'.now)

/-- The executions that complete in the course of steps, in the order in which they do. -/
def completions (o : Orchestrator) : List Action → List Completion
  | [] => []
  | a :: as => o.completionsTo (o.perform a).2 ++ (o.perform a).2.completions as

theorem completions_append (as bs : List Action) :
    o.completions (as ++ bs) = o.completions as ++ (o.after as).completions bs := by
  induction as generalizing o with
  | nil => rfl
  | cons a as ih => simp [completions, after, run, ih]

/-- One more step adds the completions that it brings. -/
theorem completions_concat (as : List Action) (a : Action) :
    o.completions (as ++ [a]) =
      o.completions as ++ (o.after as).completionsTo ((o.after as).perform a).2 := by
  simp [completions_append, completions]

/-- A step completes the executions that had no response before it and have completed after it. -/
theorem mem_completionsTo {c : Completion} :
    c ∈ o.completionsTo o' ↔ ∃ e ∈ o'.executions, o.response? e.generation = none ∧
      e.completion? (o'.setup.clock o'.now) = some c := by
  simp [completionsTo]

/-- Nothing completes if nothing that was not over ends with a success. -/
theorem completionsTo_eq_nil (h : ∀ e ∈ o'.executions,
    e.phase.success? = none ∨ (o.response? e.generation).isSome) : o.completionsTo o' = [] := by
  refine List.filterMap_eq_nil_iff.mpr fun e he => ?_
  rcases h e he with hnone | hsome
  · simp [Execution.completion?, hnone]
  · simp [hsome]

/-- The response to a generation is that of its execution. -/
theorem Consistent.response?_eq (h : o.Consistent) {e : Execution} (he : e ∈ o.executions) :
    o.response? e.generation = e.phase.response? := by
  simp [response?, h.execution?_eq_some he]

theorem Consistent.isSome_response? (h : o.Consistent) {e : Execution} (he : e ∈ o.executions)
    {r : Response} (hr : e.phase.success? = some r) : (o.response? e.generation).isSome := by
  rw [h.response?_eq he, (Phase.success?_eq_some_iff.mp hr).1]
  rfl

/-- Nothing completes if the executions go on as they are or are dropped. -/
theorem Consistent.completionsTo_eq_nil (h : o.Consistent) (hsame : ∀ e' ∈ o'.executions,
    e'.phase.success? = none ∨
      ∃ e ∈ o.executions, e.generation = e'.generation ∧ e.phase = e'.phase) :
    o.completionsTo o' = [] := by
  refine Orchestrator.completionsTo_eq_nil fun e' he' => ?_
  rcases hsame e' he' with hnone | ⟨e, he, hg, hphase⟩
  · exact Or.inl hnone
  · cases hr : e'.phase.success? with
    | none => exact Or.inl rfl
    | some r => exact Or.inr (hg ▸ h.isSome_response? he (hphase ▸ hr))

/-! ## What a step adds to the memory -/

/-- At most one execution has completed when the orchestrator has gone on to `o'`, and its
exchange is all that has been added to the memory. -/
def Adds (o o' : Orchestrator) : Prop :=
  (o.completionsTo o' = [] ∧ o'.board.memory = o.board.memory) ∨
    ∃ c files, o.completionsTo o' = [c] ∧ o'.board.memory = (o.board.memory.update files c.time
      (.append c.request.id c.request.content c.response.content)).2.1

/-- An orchestrator over an immediate memory, none of whose executions is left waiting for its
exchange to be written. -/
structure Remembering (o : Orchestrator) : Prop where
  consistent : o.Consistent
  immediate : o.board.memory.IsImmediate
  saved : ∀ e ∈ o.executions, e.phase.isSaving = false

theorem Adds.isImmediate (h : o.Adds o') (hmemory : o.board.memory.IsImmediate) :
    o'.board.memory.IsImmediate := by
  rcases h with ⟨-, heq⟩ | ⟨c, files, -, heq⟩
  · exact heq ▸ hmemory
  · exact heq ▸ hmemory.update

/-- What is added is added to the histories of the requests that completed. -/
theorem Adds.history_eq (h : o.Adds o') (hmemory : o.board.memory.IsImmediate) (id : RequestId) :
    o'.board.memory.store.history id = o.board.memory.store.history id ++
      ((o.completionsTo o').filter (·.request.id = id)).flatMap Completion.entries := by
  rcases h with ⟨hnil, heq⟩ | ⟨c, files, hone, heq⟩
  · simp [hnil, heq]
  · rw [hone, heq, hmemory.store_update, MemoryStore.history_append]
    by_cases hid : c.request.id = id <;> simp [hid, Completion.entries]

/-- If one execution alone has a value, that is all that a list of executions gives. -/
theorem filterMap_eq_toList {α : Type} {f : Execution → Option α} {e : Execution}
    {l : List Execution} (hnodup : (l.map (·.generation)).Nodup) (he : e ∈ l)
    (hne : ∀ x ∈ l, x.generation ≠ e.generation → f x = none) :
    l.filterMap f = (f e).toList := by
  obtain ⟨l₁, l₂, rfl⟩ := List.append_of_mem he
  simp only [List.map_append, List.map_cons, List.nodup_append, List.nodup_cons,
    List.mem_map, List.mem_cons] at hnodup
  obtain ⟨-, ⟨hafter, -⟩, hbefore⟩ := hnodup
  have h₁ : l₁.filterMap f = [] := List.filterMap_eq_nil_iff.mpr fun x hx =>
    hne x (by simp [hx]) (hbefore _ ⟨x, hx, rfl⟩ _ (Or.inl rfl))
  have h₂ : l₂.filterMap f = [] := List.filterMap_eq_nil_iff.mpr fun x hx =>
    hne x (by simp [hx]) fun heq => hafter ⟨x, hx, heq⟩
  cases hf : f e <;> simp [h₁, h₂, hf]

/-- By a poll its execution alone can complete. -/
theorem Consistent.completionsTo_poll (h : o.Consistent) {e : Execution} (he : e ∈ o.executions)
    (hover : e.phase.isOver = false) :
    o.completionsTo (o.poll e.generation) =
      ((e.poll o.setup o.board).1.completion?
        (o.setup.clock (e.poll o.setup o.board).2.now)).toList := by
  have hpoll : o.poll e.generation = _ := h.letExecution_eq he _
  have hin : (e.poll o.setup o.board).1 ∈ (o.poll e.generation).executions := by
    rw [hpoll]
    exact mem_replace.mpr (Or.inr ⟨rfl, e, he, rfl⟩)
  have hnone : o.response? (e.poll o.setup o.board).1.generation = none :=
    (h.response?_eq he).trans (Phase.response?_eq_none_of_isOver hover)
  have hothers : ∀ x ∈ (o.poll e.generation).executions,
      x.generation ≠ (e.poll o.setup o.board).1.generation →
        x.phase.success? = none ∨ (o.response? x.generation).isSome := by
    intro x hx hne
    rw [hpoll] at hx
    have hx : x ∈ o.executions := ((mem_replace.mp hx).resolve_right fun hx => hne (hx.1 ▸ rfl)).1
    cases hr : x.phase.success? with
    | none => exact Or.inl rfl
    | some r => exact Or.inr (h.isSome_response? hx hr)
  rw [completionsTo, filterMap_eq_toList (h.poll _).nodup_generations hin, hnone]
  · rw [setup_poll, now, hpoll]
    rfl
  · intro x hx hne
    rcases hothers x hx hne with hx | hx
    · simp [Execution.completion?, hx]
    · simp [hx]

namespace Remembering

variable {e : Execution} {g : Nat}

/-- A poll adds the exchange of its execution if that completes, and nothing otherwise. -/
theorem adds_poll (h : o.Remembering) (g : Nat) : o.Adds (o.poll g) := by
  have hstay : o.Adds o :=
    Or.inl ⟨h.consistent.completionsTo_eq_nil fun e he => Or.inr ⟨e, he, rfl, rfl⟩, rfl⟩
  by_cases hg : ∃ e ∈ o.executions, e.generation = g
  case neg =>
    rw [poll, letExecution_of_forall_ne fun e he heq => hg ⟨e, he, heq⟩]
    exact hstay
  case pos =>
    obtain ⟨e, he, rfl⟩ := hg
    cases hover : e.phase.isOver with
    | true =>
      rw [poll, h.consistent.letExecution_eq_self he (Execution.poll_of_isOver hover)]
      exact hstay
    | false =>
      have hsaves : e.Saves o.setup o.board (e.toTicket.poll o.setup o.board e.phase) :=
        Ticket.saves_poll h.immediate
          (by simp [h.consistent.holds_eq he, Execution.isInFlight, hover]) hover (h.saved e he)
      have hboard : (o.poll e.generation).board = (e.poll o.setup o.board).2 := by
        rw [poll, h.consistent.letExecution_eq he]
      rw [Adds, h.consistent.completionsTo_poll he hover, hboard]
      cases hr : (e.poll o.setup o.board).1.phase.success? with
      | none => exact Or.inl ⟨by simp [Execution.completion?, hr], hsaves.memory_eq hr⟩
      | some r =>
        obtain ⟨files, hupdate⟩ := hsaves.memory_eq_update r hr
        refine Or.inr ⟨_, files, by rw [Execution.completion?, hr]; rfl, hupdate.trans ?_⟩
        rw [← hsaves.now_eq]
        rfl

/-- A poll keeps the orchestrator remembering. -/
theorem poll (h : o.Remembering) (g : Nat) : (o.poll g).Remembering where
  consistent := h.consistent.poll g
  immediate := (h.adds_poll g).isImmediate h.immediate
  saved := h.consistent.forall_letExecution h.consistent.turns_poll (fun e he _ => h.saved e he)
    fun e he _ => Ticket.isSaving_poll h.immediate (h.saved e he)

end Remembering

/-- The memory stays when the orchestrator goes on to `o'`, and the executions go on as they are
or are dropped. -/
structure Stays (o o' : Orchestrator) : Prop where
  memory_eq : o'.board.memory = o.board.memory
  exists_of_mem : ∀ e' ∈ o'.executions, e'.phase = .dropped ∨
    ∃ e ∈ o.executions, e.generation = e'.generation ∧ e.phase = e'.phase

theorem Stays.refl : o.Stays o :=
  ⟨rfl, fun e he => Or.inr ⟨e, he, rfl, rfl⟩⟩

theorem Consistent.stays_drop (h : o.Consistent) (g : Nat) : o.Stays (o.drop g) := by
  refine ⟨?_, h.forall_letExecution h.turns_drop (fun x hx _ => Or.inr ⟨x, hx, rfl, rfl⟩)
    fun x hx _ => ?_⟩
  · simp only [Orchestrator.drop, Orchestrator.letExecution]
    split
    · unfold Execution.drop
      split <;> rfl
    · rfl
  · unfold Execution.drop
    split
    · exact Or.inr ⟨x, hx, rfl, rfl⟩
    · exact Or.inl rfl

theorem stays_cancel (o : Orchestrator) (id : RequestId) : o.Stays (o.cancel id).2 where
  memory_eq := by
    unfold cancel
    split <;> rfl
  exists_of_mem := forall_cancel id (fun x hx => Or.inr ⟨x, hx, rfl, rfl⟩)
    fun x hx => Or.inr ⟨x, hx, rfl, rfl⟩

namespace Remembering

/-- A step in which the memory stays adds nothing to it. -/
theorem adds_of_stays (h : o.Remembering) (hstays : o.Stays o') : o.Adds o' := by
  refine Or.inl ⟨h.consistent.completionsTo_eq_nil fun e' he' => ?_, hstays.memory_eq⟩
  exact (hstays.exists_of_mem e' he').imp_left fun hphase => by rw [hphase]; rfl

theorem of_stays (h : o.Remembering) (hstays : o.Stays o') (hconsistent : o'.Consistent) :
    o'.Remembering where
  consistent := hconsistent
  immediate := hstays.memory_eq ▸ h.immediate
  saved e' he' := by
    rcases hstays.exists_of_mem e' he' with hphase | ⟨e, he, -, hphase⟩
    · rw [hphase]
      rfl
    · exact hphase ▸ h.saved e he

theorem enrol (h : o.Remembering) {r : Request} {g : Nat} {f : InFlight}
    (hr : o.board.inFlight.register r.id = .ok (g, f)) : (o.enrol r g f).Remembering where
  consistent := h.consistent.enrol hr
  immediate := h.immediate
  saved e he := by
    rcases mem_executions_enrol.mp he with he | rfl
    · exact h.saved e he
    · rfl

/-- A request adds what its first poll completes. -/
theorem adds_submit (h : o.Remembering) {r : Request} {g : Nat} {f : InFlight}
    (hr : o.board.inFlight.register r.id = .ok (g, f)) : o.Adds ((o.enrol r g f).poll g) := by
  -- An execution that is enrolled has no response yet, so the poll alone can complete it.
  have hsame : ∀ g', (o.enrol r g f).response? g' = o.response? g' := by
    intro g'
    simp only [response?, execution?, executions_enrol, List.find?_append]
    cases hfound : o.executions.find? fun e => e.generation = g' with
    | some e => simp
    | none => by_cases hg : g = g' <;> simp [hg, entrant, Phase.response?]
  have hadds := (h.enrol hr).adds_poll g
  simp only [Adds, completionsTo, hsame] at hadds
  exact hadds

/-- In a step at most one execution completes, and its exchange is all that is added; after it
no execution is left waiting for its exchange to be written. -/
theorem adds_and_perform (h : o.Remembering) (a : Action) :
    o.Adds (o.perform a).2 ∧ (o.perform a).2.Remembering := by
  have hstays : ∀ {o' : Orchestrator}, o.Stays o' → o'.Consistent → o.Adds o' ∧ o'.Remembering :=
    fun hstays hconsistent => ⟨h.adds_of_stays hstays, h.of_stays hstays hconsistent⟩
  cases a with
  | submit r =>
    cases hr : o.board.inFlight.register r.id with
    | error f =>
      rw [perform_submit_of_error hr]
      exact hstays .refl h.consistent
    | ok taken =>
      obtain ⟨g, f⟩ := taken
      rw [h.consistent.perform_submit_of_ok hr]
      exact ⟨h.adds_submit hr, (h.enrol hr).poll g⟩
  | cancel id => exact hstays (o.stays_cancel id) (h.consistent.cancel id)
  | drop g => exact hstays (h.consistent.stays_drop g) (h.consistent.drop g)
  | poll g => exact ⟨h.adds_poll g, h.poll g⟩
  | pass millis => exact hstays ⟨rfl, Stays.refl.exists_of_mem⟩ (h.consistent.pass millis)

/-- A run keeps the orchestrator remembering. -/
theorem after (h : o.Remembering) (as : List Action) : (o.after as).Remembering := by
  induction as using List.reverseRecOn with
  | nil => exact h
  | append_singleton as a ih =>
    rw [after_concat]
    exact (ih.adds_and_perform a).2

/-- The history of a conversation grows by the exchanges of the requests that complete, in the
order in which they do. -/
theorem history_after (h : o.Remembering) (as : List Action) (id : RequestId) :
    (o.after as).board.memory.store.history id = o.board.memory.store.history id ++
      ((o.completions as).filter (·.request.id = id)).flatMap Completion.entries := by
  induction as using List.reverseRecOn with
  | nil => simp [completions]
  | append_singleton as a ih =>
    have hstep := ((h.after as).adds_and_perform a).1.history_eq (h.after as).immediate id
    rw [after_concat, hstep, ih, completions_concat, List.filter_append, List.flatMap_append,
      List.append_assoc]

end Remembering

/-! ## Completions of a run -/

section New

variable {setup : Setup} {memory : Memory} {files : FileSystem} {as : List Action}
  {e : Execution} {c : Completion}

/-- A new orchestrator with an immediate memory is remembering. -/
theorem remembering_new (hmemory : memory.IsImmediate) :
    (new setup memory files).Remembering where
  consistent := consistent_new setup memory files
  immediate := hmemory
  saved _ he := by simp [new] at he

/-- What completes in a run is an execution of the run that ends with a success. -/
theorem exists_of_mem_completions (hc : c ∈ (new setup memory files).completions as) :
    ∃ e ∈ ((new setup memory files).after as).executions, e.generation = c.generation ∧
      e.request = c.request ∧ e.phase.success? = some c.response := by
  induction as using List.reverseRecOn with
  | nil => simp [completions] at hc
  | append_singleton as a ih =>
    rw [completions_concat, List.mem_append] at hc
    rw [after_concat]
    rcases hc with hc | hc
    · obtain ⟨e, he, hg, hr, hs⟩ := ih hc
      obtain ⟨e', he', hfollows⟩ := consistent_after.exists_follows a he
      refine ⟨e', he', hfollows.generation_eq.trans hg, hfollows.request_eq.trans hr, ?_⟩
      rw [hfollows.phase_eq_of_isOver, hs]
      rw [(Phase.success?_eq_some_iff.mp hs).1]
      rfl
    · obtain ⟨e, he, -, hcompletion⟩ := mem_completionsTo.mp hc
      obtain ⟨r, hr, rfl⟩ := Option.map_eq_some_iff.mp hcompletion
      exact ⟨e, he, rfl, rfl, hr⟩

/-- Every execution of a run that ends with a success completes in it. -/
theorem exists_completion {r : Response}
    (he : e ∈ ((new setup memory files).after as).executions) (hr : e.phase.success? = some r) :
    ∃ c ∈ (new setup memory files).completions as, c.generation = e.generation := by
  induction as using List.reverseRecOn generalizing e with
  | nil => simp [new] at he
  | append_singleton as a ih =>
    rw [after_concat] at he
    simp only [completions_concat, List.mem_append]
    cases hold : ((new setup memory files).after as).response? e.generation with
    | none =>
      have hcompletion : ∀ time, e.completion? time = some ⟨e.generation, e.request, r, time⟩ :=
        fun time => by simp [Execution.completion?, hr]
      exact ⟨_, Or.inr (mem_completionsTo.mpr ⟨e, he, hold, hcompletion _⟩), rfl⟩
    | some r' =>
      -- The execution was over before the step, so it completed earlier.
      obtain ⟨x, hx, hxr⟩ := Option.bind_eq_some_iff.mp hold
      have hxg : x.generation = e.generation := by simpa using List.find?_some hx
      have hin : x ∈ ((new setup memory files).after as).executions :=
        List.mem_of_find?_eq_some hx
      obtain ⟨x', hx', hfollows⟩ := consistent_after.exists_follows a hin
      obtain rfl := (consistent_after.perform a).eq_of_generation_eq hx' he
        (hfollows.generation_eq.trans hxg)
      have hover : x.phase.isOver = true := by
        cases hphase : x.phase <;> simp [hphase, Phase.response?, Phase.isOver] at hxr ⊢
      obtain ⟨c, hc, hg⟩ := ih hin (hfollows.phase_eq_of_isOver hover ▸ hr)
      exact ⟨c, Or.inl hc, hg.trans hxg⟩

/-- No execution completes twice. -/
theorem nodup_completions (hmemory : memory.IsImmediate) :
    (((new setup memory files).completions as).map (·.generation)).Nodup := by
  induction as using List.reverseRecOn with
  | nil => simp [completions]
  | append_singleton as a ih =>
    rw [completions_concat, List.map_append, List.nodup_append]
    refine ⟨ih, ?_, ?_⟩
    · rcases (((remembering_new hmemory).after as).adds_and_perform a).1 with
        ⟨hnil, -⟩ | ⟨c, files, hone, -⟩
      · rw [hnil]
        exact List.nodup_nil
      · rw [hone]
        exact List.nodup_singleton _
    · rintro _ hold _ hnew rfl
      obtain ⟨c, hc, hg⟩ := List.mem_map.mp hold
      obtain ⟨c', hc', hg'⟩ := List.mem_map.mp hnew
      obtain ⟨e, he, hge, -, hs⟩ := exists_of_mem_completions hc
      obtain ⟨e', -, hnone, hcompletion⟩ := mem_completionsTo.mp hc'
      obtain ⟨r, -, rfl⟩ := Option.map_eq_some_iff.mp hcompletion
      have hsome := consistent_after.isSome_response? he hs
      rw [hge, hg, ← hg', hnone] at hsome
      simp at hsome

end New

end Orchestrator

end Switchboard
