import Switchboard.Proofs.Orchestration.Cancellation
import Switchboard.Proofs.Orchestration.Exchange

/-!
# What a cancelled execution still does

An execution that is cancelled goes on until it learns of it. Until then it calls no model and
does not begin to write: every move keeps its calls, and the memory unless a write has begun
(`Ticket.Move.subdued`). So nothing but its end follows a cancellation (`silence`).
-/

namespace Switchboard

/-- The calls that one execution made, each with the provider that was asked. -/
def Journal.callsOf (j : Journal) (generation : Nat) : List (String × ModelCall) :=
  (j.deedsOf generation).filterMap Deed.modelCall?

@[simp] theorem Journal.callsOf_note_self {j : Journal} {g : Nat} {deeds : List Deed} :
    (j.note g deeds).callsOf g = j.callsOf g ++ deeds.filterMap Deed.modelCall? := by
  simp [callsOf]

namespace Ticket

variable {s : Setup} {t : Ticket} {b : Board} {x y z : Phase × Board}

/-- The execution has come from `x` to `y` without calling a model. Unless a write had begun, it
has not begun one and has left the memory alone. -/
structure Subdued (t : Ticket) (x y : Phase × Board) : Prop where
  callsOf_eq : y.2.journal.callsOf t.generation = x.2.journal.callsOf t.generation
  isSaving_eq : x.1.isSaving = false → y.1.isSaving = false
  memory_eq : x.1.isSaving = false → y.2.memory = x.2.memory
  files_eq : x.1.isSaving = false → y.2.files = x.2.files

theorem Subdued.refl : t.Subdued x x :=
  ⟨rfl, id, fun _ => rfl, fun _ => rfl⟩

theorem Subdued.trans (h : t.Subdued x y) (h' : t.Subdued y z) : t.Subdued x z where
  callsOf_eq := h'.callsOf_eq.trans h.callsOf_eq
  isSaving_eq hx := h'.isSaving_eq (h.isSaving_eq hx)
  memory_eq hx := (h'.memory_eq (h.isSaving_eq hx)).trans (h.memory_eq hx)
  files_eq hx := (h'.files_eq (h.isSaving_eq hx)).trans (h.files_eq hx)

theorem filterMap_modelCall?_toolDeeds (tools : Dispatch) (names : List String) :
    (toolDeeds tools names).filterMap Deed.modelCall? = [] := by
  simp [toolDeeds, Deed.modelCall?]

theorem subdued_fail {phase : Phase} (account : Account) (f : RequestFailure) :
    t.Subdued (phase, b) (t.fail b account f) where
  callsOf_eq := by simp [fail, Deed.modelCall?]
  isSaving_eq _ := rfl
  memory_eq _ := rfl
  files_eq _ := rfl

theorem callsOf_settle (account : Account) (answer : Answer) :
    (t.settle b account answer).2.journal.callsOf t.generation =
      b.journal.callsOf t.generation := by
  unfold settle
  split <;> simp [fail, complete, Deed.modelCall?]

/-- A cancelled execution calls no model and does not begin to write. -/
theorem Move.subdued (h : Move s t x y) (hc : t.cancelled = true) : t.Subdued x y := by
  cases h with
  | select hdue hmodel =>
    exact ⟨by simp [filterMap_modelCall?_toolDeeds], fun _ => rfl, fun _ => rfl, fun _ => rfl⟩
  | gather =>
    exact ⟨by simp [filterMap_modelCall?_toolDeeds], fun _ => rfl, fun _ => rfl, fun _ => rfl⟩
  | call hdone hpending =>
    simp [ModelRegistry.cancelled_eq_false_of_beginCall hpending] at hc
  | answer houtput => simp [PendingCall.cancelled_eq_false_of_poll houtput] at hc
  | saved hwrite => exact ⟨by simp [callsOf_settle], nofun, nofun, nofun⟩
  | unsaved hwrite => exact ⟨by simp [callsOf_settle], nofun, nofun, nofun⟩
  | unselected hdue hf => exact subdued_fail ..
  | uncalled hdone hf => exact subdued_fail ..
  | unanswered hf => exact subdued_fail ..

/-- A poll of a cancelled execution is subdued. -/
theorem subdued_poll (hc : t.cancelled = true) (phase : Phase) :
    t.Subdued (phase, b) (t.poll s b phase) :=
  poll_induction (fun _ _ hmove hx => hx.trans (hmove.subdued hc)) .refl

end Ticket

theorem Execution.subdued_drop (e : Execution) (b : Board) :
    e.Subdued (e.phase, b) ((e.drop b).1.phase, (e.drop b).2) := by
  unfold drop
  split
  · exact .refl
  · exact ⟨by simp [Deed.modelCall?], fun _ => rfl, fun _ => rfl, fun _ => rfl⟩

/-- A cancelled execution that is over has published that it started and that it ended. -/
theorem Ticket.Traced.exists_ended {s : Setup} {t : Ticket} {events : List Event} {phase : Phase}
    (h : t.Traced s events phase) (hc : t.cancelled = true) (hover : phase.isOver = true) :
    ∃ state, state ≠ .completed ∧
      events = [.requestStarted t.request, .requestEnded t.request.id state] := by
  cases phase with
  | ended r =>
    obtain ⟨_, _, -, hevents⟩ := Ends.eq_of_cancelled h hc
    refine ⟨_, ?_, hevents⟩
    unfold stateAfter
    split <;> nofun
  | dropped => exact ⟨.cancelled, nofun, h⟩
  | _ => simp [Phase.isOver] at hover

namespace Orchestrator

variable {o : Orchestrator} {a : Action} {e e' : Execution}

/-! ## Steps -/

/-- Whether a step lets the execution of a generation do something. -/
def Action.isTurnOf (generation : Nat) : Action → Bool
  | .poll g => g = generation
  | .drop g => g = generation
  | _ => false

theorem Follows.isSaving_eq (h : o.Follows a e e') (hc : e.cancelled = true)
    (hsaving : e.phase.isSaving = false) : e'.phase.isSaving = false := by
  rcases h.phase_eq with hphase | hphase | ⟨b, hphase⟩
  · rw [hphase, hsaving]
  · rw [hphase]
    rfl
  · rw [hphase]
    exact (Ticket.subdued_poll (b := b) hc e.phase).isSaving_eq hsaving

theorem journal_cancel (o : Orchestrator) (id : RequestId) :
    (o.cancel id).2.board.journal = o.board.journal := by
  unfold cancel
  split <;> rfl

namespace Consistent

variable {f : Execution → Board → Execution × Board} {g g' : Nat}

/-- To let an execution do something adds to its own deeds only. -/
theorem deedsOf_letExecution_of_ne (h : o.Consistent) (hf : o.Turns f) (hne : g' ≠ g) :
    (o.letExecution g f).board.journal.deedsOf g' = o.board.journal.deedsOf g' := by
  by_cases hg : ∃ e ∈ o.executions, e.generation = g
  · obtain ⟨e, he, rfl⟩ := hg
    cases hover : e.phase.isOver with
    | true => rw [h.letExecution_eq_self he (hf.eq_of_isOver e _ hover)]
    | false =>
      rw [h.letExecution_eq he]
      exact (hf.turn e he hover).deedsOf_eq g' hne
  · rw [letExecution_of_forall_ne fun e he heq => hg ⟨e, he, heq⟩]

/-- A subdued turn adds no call. -/
theorem callsOf_letExecution (h : o.Consistent) (hf : o.Turns f) (he : e ∈ o.executions)
    (hsubdued : e.Subdued (e.phase, o.board) ((f e o.board).1.phase, (f e o.board).2)) :
    (o.letExecution g f).board.journal.callsOf e.generation =
      o.board.journal.callsOf e.generation := by
  by_cases hg : e.generation = g
  · subst hg
    rw [h.letExecution_eq he]
    exact hsubdued.callsOf_eq
  · rw [Journal.callsOf, h.deedsOf_letExecution_of_ne hf hg]
    rfl

/-- No step makes a call for an execution that is cancelled. -/
theorem callsOf_perform (h : o.Consistent) (he : e ∈ o.executions) (hc : e.cancelled = true)
    (a : Action) :
    (o.perform a).2.board.journal.callsOf e.generation =
      o.board.journal.callsOf e.generation := by
  cases a with
  | submit r =>
    cases hr : o.board.inFlight.register r.id with
    | error f => rw [perform_submit_of_error hr]
    | ok taken =>
      obtain ⟨g, f⟩ := taken
      have hne := Nat.ne_of_lt (h.lt_of_register hr he)
      have henrol := h.enrol hr
      rw [h.perform_submit_of_ok hr, Orchestrator.poll, Journal.callsOf,
        henrol.deedsOf_letExecution_of_ne henrol.turns_poll hne, journal_enrol,
        Journal.deedsOf_note_of_ne hne]
      rfl
  | cancel id => rw [perform_cancel, journal_cancel]
  | drop g => exact h.callsOf_letExecution h.turns_drop he (e.subdued_drop o.board)
  | poll g => exact h.callsOf_letExecution h.turns_poll he (Ticket.subdued_poll hc e.phase)
  | pass millis => rfl

/-- An execution that is cancelled and has not begun to write leaves the memory alone. -/
theorem memory_perform (h : o.Consistent) (he : e ∈ o.executions) (hc : e.cancelled = true)
    (hsaving : e.phase.isSaving = false) (ha : Action.isTurnOf e.generation a = true) :
    (o.perform a).2.board.memory = o.board.memory ∧
      (o.perform a).2.board.files = o.board.files := by
  cases a with
  | poll g =>
    obtain rfl : g = e.generation := by simpa [Action.isTurnOf] using ha
    have hsubdued := Ticket.subdued_poll (s := o.setup) (b := o.board) hc e.phase
    rw [Orchestrator.perform, Orchestrator.poll, h.letExecution_eq he]
    exact ⟨hsubdued.memory_eq hsaving, hsubdued.files_eq hsaving⟩
  | drop g =>
    obtain rfl : g = e.generation := by simpa [Action.isTurnOf] using ha
    have hsubdued := e.subdued_drop o.board
    rw [Orchestrator.perform, Orchestrator.drop, h.letExecution_eq he]
    exact ⟨hsubdued.memory_eq hsaving, hsubdued.files_eq hsaving⟩
  | _ => simp [Action.isTurnOf] at ha

/-! ## Runs -/

/-- After a cancellation no run adds a call of the execution. -/
theorem callsOf_after (h : o.Consistent) (he : e ∈ o.executions) (hc : e.cancelled = true)
    (rest : List Action) :
    (o.after rest).board.journal.callsOf e.generation =
      o.board.journal.callsOf e.generation := by
  induction rest using List.reverseRecOn with
  | nil => rfl
  | append_singleton rest a ih =>
    obtain ⟨x, hx, hcontinues⟩ := h.exists_continues he rest
    rw [after_concat, ← hcontinues.generation_eq,
      (h.after rest).callsOf_perform hx (hcontinues.cancelled hc), hcontinues.generation_eq, ih]

/-- An execution that is cancelled does not begin to write. -/
theorem exists_not_isSaving (h : o.Consistent) (he : e ∈ o.executions) (hc : e.cancelled = true)
    (hsaving : e.phase.isSaving = false) (rest : List Action) :
    ∃ x ∈ (o.after rest).executions, e.Continues x ∧ x.phase.isSaving = false := by
  induction rest using List.reverseRecOn with
  | nil => exact ⟨e, he, ⟨rfl, rfl, id, fun _ => rfl⟩, hsaving⟩
  | append_singleton rest a ih =>
    obtain ⟨x, hx, hcontinues, hx'⟩ := ih
    obtain ⟨y, hy, hfollows⟩ := (h.after rest).exists_follows a hx
    rw [after_concat]
    exact ⟨y, hy, hcontinues.trans hfollows.continues,
      hfollows.isSaving_eq (hcontinues.cancelled hc) hx'⟩

/-- After a cancellation no turn of the execution touches memory or files, unless its exchange was
being written. -/
theorem memory_after (h : o.Consistent) (he : e ∈ o.executions) (hc : e.cancelled = true)
    (hsaving : e.phase.isSaving = false) (rest : List Action)
    (ha : Action.isTurnOf e.generation a = true) :
    ((o.after rest).perform a).2.board.memory = (o.after rest).board.memory ∧
      ((o.after rest).perform a).2.board.files = (o.after rest).board.files := by
  obtain ⟨x, hx, hcontinues, hx'⟩ := h.exists_not_isSaving he hc hsaving rest
  rw [← hcontinues.generation_eq] at ha
  exact (h.after rest).memory_perform hx (hcontinues.cancelled hc) hx' ha

end Consistent

/-! ## After a cancellation -/

theorem mem_executions_cancel {id : RequestId} {g : Nat} (hg : (o.cancel id).1 = some g)
    (he : e ∈ o.executions) (hge : e.generation = g) :
    { e with cancelled := true } ∈ (o.cancel id).2.executions := by
  rw [snd_cancel_of_some ((fst_cancel o id).symm.trans hg)]
  exact List.mem_map.mpr ⟨e, he, if_pos hge⟩

/-- After a cancellation was answered with an execution, the execution makes no call, publishes
nothing but its end, and leaves the memory alone in all that it does, unless it was writing its
exchange when it was cancelled. -/
theorem silence (setup : Setup) (memory : Memory) (files : FileSystem) (as : List Action) :
    let start := new setup memory files
    let o := start.after as
    ∀ e ∈ o.executions, ∀ before id,
      start.Answered as before (.cancel id) (.cancelled (some e.generation)) →
      ∃ x ∈ (start.after before).executions,
        x.generation = e.generation ∧ x.request = e.request ∧ x.isInFlight = true ∧
        o.board.journal.callsOf e.generation =
          (start.after before).board.journal.callsOf e.generation ∧
        (∃ published, o.board.journal.eventsOf e.generation =
            (start.after before).board.journal.eventsOf e.generation ++ published ∧
          (e.phase.isOver = false → published = []) ∧
          (e.phase.isOver = true → ∃ state, state ≠ .completed ∧
            published = [.requestEnded e.request.id state])) ∧
        (x.phase.isSaving = false → ∀ mid a, before ++ [.cancel id] <+: mid → mid ++ [a] <+: as →
          Action.isTurnOf e.generation a = true →
          ((start.after mid).perform a).2.board.memory = (start.after mid).board.memory ∧
            ((start.after mid).perform a).2.board.files = (start.after mid).board.files) ∧
        ∃ bs, (∀ a ∈ bs, a.isInternal = true) ∧ (start.after (as ++ bs)).isOver e.generation := by
  intro start o e he before id ha
  obtain ⟨hc, rfl, x, hx, hgx, hin⟩ := cancelled_of_answered ha he
  obtain ⟨rest, rfl⟩ := ha.comes
  have hcancel : ((start.after before).cancel e.request.id).1 = some e.generation := by
    simpa using ha.reply_eq
  -- From the cancellation on, the execution is `x'`.
  let x' : Execution := { x with cancelled := true }
  have hx' : x' ∈ (start.after (before ++ [.cancel e.request.id])).executions := by
    rw [after_concat, perform_cancel]
    exact mem_executions_cancel hcancel hx hgx
  have hconsistent : (start.after (before ++ [.cancel e.request.id])).Consistent :=
    consistent_after
  have hjournal : (start.after (before ++ [.cancel e.request.id])).board.journal =
      (start.after before).board.journal := by
    rw [after_concat, perform_cancel, journal_cancel]
  have hcontinues : x'.Continues e := by
    rw [after_concat, perform_cancel] at hx'
    exact (consistent_new ..).continues_of_answered ha hx' he hgx.symm
  refine ⟨x, hx, hgx, hcontinues.request_eq.symm, hin, ?calls, ?events, ?memory, ?isOver⟩
  case calls =>
    have hcalls := hconsistent.callsOf_after hx' rfl rest
    rw [← after_append, hjournal] at hcalls
    rwa [← hgx]
  case events =>
    have hstarted : (start.after before).board.journal.eventsOf e.generation =
        [.requestStarted e.request] := by
      have hover : x.phase.isOver = false := by simp_all [Execution.isInFlight]
      have hrequest : x.request = e.request := hcontinues.request_eq.symm
      rw [← hgx, ← hrequest]
      exact (traced_of_mem hx).events_eq hover
    have htraced := traced_of_mem he
    rw [hstarted]
    cases hover : e.phase.isOver with
    | false => exact ⟨[], htraced.events_eq hover, fun _ => rfl, by simp⟩
    | true =>
      obtain ⟨state, hne, hevents⟩ := htraced.exists_ended hc hover
      exact ⟨[.requestEnded e.request.id state], hevents, by simp, fun _ => ⟨state, hne, rfl⟩⟩
  case memory =>
    rintro hsaving mid a ⟨rest', rfl⟩ - hturn
    rw [← hgx] at hturn
    rw [after_append]
    exact hconsistent.memory_after hx' rfl hsaving rest' hturn
  case isOver =>
    obtain ⟨bs, hbs, -, hover⟩ := exists_await setup memory files _ [e.generation]
    exact ⟨bs, hbs, hover _ (List.mem_singleton_self _)⟩

namespace Hushed

/-- A provider that takes a while to answer. -/
def provider : Provider where
  name := "local"
  kind := .local
  listing := .ok [{ name := "gpt-4o", providerName := "local", kind := .local,
                    capabilities := .single .general, contextLength := 8192 }]
  delay := 100
  answer _ := .ok { content := "hi" }

/-- The provider by itself, and a clock that stands still. -/
def setup : Setup where
  config := { workingDirectory := "" }
  models := ⟨[provider]⟩
  clock _ := ⟨1970, 1, 1, 0, 0, 0, 0⟩

/-- The request that is cancelled. -/
def request : Request where
  id := ⟨"hush", by decide +kernel⟩
  kind := .chat
  content := "hello"

/-- An orchestrator to which nothing was submitted. -/
def start : Orchestrator :=
  new setup (.scripted {} {}) .empty

/-- The request is cancelled while the model is called, and polled when the model answers. -/
def steps : List Action :=
  [.submit request, .cancel request.id, .pass 100, .poll 1]

end Hushed

/-- A request that is cancelled while the model is called stays unanswered. -/
theorem unanswered_of_cancelled :
    ∃ e ∈ (Hushed.start.after Hushed.steps).executions, e.phase.isOver = true ∧
      ((Hushed.start.after Hushed.steps).board.journal.callsOf e.generation).length = 1 ∧
      ∃ state, state ≠ .completed ∧
        (Hushed.start.after Hushed.steps).board.journal.eventsOf e.generation =
          [.requestStarted Hushed.request, .requestEnded Hushed.request.id state] := by
  let e := (Hushed.start.after Hushed.steps).executions.head (by decide +kernel)
  have hcancelled : Hushed.start.Answered Hushed.steps [.submit Hushed.request]
      (.cancel Hushed.request.id) (.cancelled (some e.generation)) := ⟨⟨_, rfl⟩, rfl⟩
  obtain ⟨x, -, -, -, -, hcalls, ⟨published, hevents, -, hended⟩, -⟩ :=
    silence _ _ _ _ e (List.head_mem _) _ _ hcancelled
  obtain ⟨state, hstate, rfl⟩ := hended rfl
  exact ⟨e, List.head_mem _, rfl, (congrArg List.length hcalls).trans rfl, state, hstate, hevents⟩

end Orchestrator

end Switchboard
