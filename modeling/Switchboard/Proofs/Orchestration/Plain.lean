import Switchboard.Model.Scripted
import Switchboard.Proofs.Orchestration.Continuity
import Switchboard.Tool.Scripted

/-!
# Plain setups

In a plain setup a provider answers by the name of the model and the last message of the user,
and a tool answers whatever the files are. There an execution does not depend on what the memory
holds, on the files, or on the generation it was given: two executions of the same request in the
same position are in the same position after a poll, and publish the same events
(`Ticket.Alike.poll`).
-/

namespace Switchboard

/-- The provider answers by the name of the model and the last message of the user. -/
def Provider.IsPlain (p : Provider) : Prop :=
  ∀ c c' : ModelCall, c.model = c'.model → c.lastUserMessage = c'.lastUserMessage →
    p.answer c = p.answer c'

/-- The tool answers whatever the files are. -/
def Tool.IsPlain (t : Tool) : Prop :=
  ∀ fs fs' context args, t.run fs context args = t.run fs' context args

/-- A scripted provider is plain. -/
theorem ProviderScript.isPlain_toProvider (p : ProviderScript) : p.toProvider.IsPlain := by
  intro c c' hmodel hmessage
  simp only [toProvider, Provider.serve, output, hmodel, hmessage]

theorem ToolScript.isPlain_toTool (t : ToolScript) : t.toTool.IsPlain :=
  fun _ _ _ _ => rfl

theorem Tool.IsPlain.begin_eq {t : Tool} (h : t.IsPlain) (fs fs' : FileSystem)
    (context : ToolContext) (args : Json) (now : Nat) :
    t.begin fs context args now = t.begin fs' context args now := by
  simp only [Tool.begin, h fs fs']

namespace Dispatch

/-- Only plain tools are still to be run. -/
def IsPlain (d : Dispatch) : Prop :=
  ∀ t ∈ d.queue, t.IsPlain

variable {d : Dispatch} {fs : FileSystem} {now : Nat} {tools : List Tool}

/-- Plain tools take no notice of the files. -/
theorem startNext_eq_of_isPlain (htools : ∀ t ∈ tools, t.IsPlain) (fs' : FileSystem)
    (records : List ToolRecord) :
    d.startNext fs now records tools = d.startNext fs' now records tools := by
  induction tools generalizing records with
  | nil => rfl
  | cons t rest ih =>
    have hrest := fun records => ih (fun t ht => htools t (List.mem_cons_of_mem _ ht)) records
    have hbegin := (htools t List.mem_cons_self).begin_eq fs fs' d.context d.args now
    simp only [startNext, hbegin, hrest]

/-- Plain tools go on in the same way whatever the files are. -/
theorem IsPlain.poll_eq (h : d.IsPlain) (fs' : FileSystem) : d.poll fs now = d.poll fs' now := by
  simp only [Dispatch.poll, startNext_eq_of_isPlain h fs']

theorem queue_startNext_subset (records : List ToolRecord) :
    (d.startNext fs now records tools).queue ⊆ tools := by
  induction tools generalizing records with
  | nil => exact fun _ h => h
  | cons t rest ih =>
    rw [startNext]
    split
    · exact List.subset_cons_of_subset _ (ih _)
    · exact List.subset_cons_self _ _

/-- Polling keeps a dispatch plain. -/
theorem IsPlain.poll (h : d.IsPlain) : (d.poll fs now).IsPlain := by
  unfold Dispatch.poll
  split
  · exact h
  · split
    · exact h
    · exact fun t ht => h t (queue_startNext_subset _ ht)

theorem isPlain_start (htools : ∀ t ∈ tools, t.IsPlain) (context : ToolContext) (args : Json) :
    (start fs context args tools now).IsPlain :=
  fun t ht => htools t (queue_startNext_subset _ ht)

end Dispatch

/-- All providers and tools are plain. -/
structure Setup.IsPlain (s : Setup) : Prop where
  provider : ∀ p ∈ s.models.providers, p.IsPlain
  tool : ∀ t ∈ s.tools.tools, t.IsPlain

theorem Setup.IsPlain.toolsFor {s : Setup} (h : s.IsPlain) (r : Request) :
    ∀ t ∈ s.toolsFor r, t.IsPlain := by
  intro t ht
  have htools : s.toolbox.tools = s.tools.tools := by
    unfold toolbox
    split <;> rfl
  exact h.tool t (htools ▸ (List.mem_filter.mp ht).1)

/-- A plain provider takes no notice of what is recollected. -/
theorem Setup.IsPlain.beginCall_eq {s : Setup} (h : s.IsPlain) (r : Request)
    (model : ModelDescriptor) (known known' : Recollection) (now limit : Nat) (cancelled : Bool) :
    s.models.beginCall model (s.call r model known) now limit cancelled =
      s.models.beginCall model (s.call r model known') now limit cancelled := by
  unfold ModelRegistry.beginCall
  cases hp : s.models.provider? model.providerName with
  | none => rfl
  | some p =>
    have hanswer : p.answer (s.call r model known) = p.answer (s.call r model known') :=
      h.provider p (List.mem_of_find?_eq_some hp) _ _ rfl
        (Request.lastUserMessage_toCall.trans Request.lastUserMessage_toCall.symm)
    simp only [hanswer]

namespace Phase

/-- The execution runs plain tools only. -/
def IsPlain : Phase → Prop
  | gathering _ _ _ tools => tools.IsPlain
  | _ => True

/-- How far an execution has come, apart from what it has read in the memory. -/
def forget : Phase → Phase
  | gathering model readDue known tools => gathering model readDue (known.map fun _ => {}) tools
  | p => p

variable {p p' : Phase}

theorem isOver_forget : p.forget.isOver = p.isOver := by
  cases p <;> rfl

theorem response?_forget : p.forget.response? = p.response? := by
  cases p <;> rfl

theorem wake_forget : p.forget.wake = p.wake := by
  cases p with
  | gathering model readDue known tools => cases known <;> rfl
  | _ => rfl

end Phase

/-- The published events about a request. -/
def Journal.eventsAbout (j : Journal) (id : RequestId) : List Event :=
  j.events.filter fun e => e.requestId = id

@[simp] theorem Journal.eventsAbout_note (j : Journal) (id : RequestId) (g : Nat)
    (deeds : List Deed) : (j.note g deeds).eventsAbout id =
      j.eventsAbout id ++ (deeds.filterMap Deed.event?).filter fun e => e.requestId = id := by
  simp [eventsAbout, events, note, List.filterMap_map]

namespace Ticket

variable {s : Setup} {t t₁ t₂ : Ticket} {b b₁ b₂ : Board} {phase : Phase}

/-- An execution publishes events about its own request only. -/
theorem Move.eventsAbout_eq {x y : Phase × Board} (h : Move s t x y) {id : RequestId}
    (hid : t.request.id ≠ id) : y.2.journal.eventsAbout id = x.2.journal.eventsAbout id := by
  have hsettle : ∀ {b : Board} {account answer},
      (t.settle b account answer).2.journal.eventsAbout id = b.journal.eventsAbout id := by
    intro b account answer
    unfold settle
    split <;> simp [complete, fail, Event.requestId, Account.success, hid]
  cases h with
  | saved hwrite => exact hsettle
  | unsaved hwrite => exact hsettle
  | _ => simp [fail, List.filterMap_cons, Event.requestId, hid]

/-- A poll says nothing about other requests. -/
theorem eventsAbout_poll {id : RequestId} (hid : t.request.id ≠ id) :
    (t.poll s b phase).2.journal.eventsAbout id = b.journal.eventsAbout id :=
  poll_induction (P := fun x => x.2.journal.eventsAbout id = b.journal.eventsAbout id)
    (fun _ _ hmove hx => (hmove.eventsAbout_eq hid).trans hx) rfl

/-- A move takes no time and leaves the script of the memory. -/
theorem Move.now_and_script {x y : Phase × Board} (h : Move s t x y) :
    y.2.now = x.2.now ∧ y.2.memory.script = x.2.memory.script := by
  have hsettle : ∀ {b : Board} {account answer}, (t.settle b account answer).2.now = b.now ∧
      (t.settle b account answer).2.memory = b.memory := by
    intro b account answer
    unfold settle
    split <;> exact ⟨rfl, rfl⟩
  cases h with
  | saved hwrite =>
    refine ⟨hsettle.1, ?_⟩
    rw [hsettle.2]
    exact Memory.script_update
  | unsaved hwrite => exact ⟨hsettle.1, by rw [hsettle.2]⟩
  | _ => exact ⟨rfl, rfl⟩

/-- A poll takes no time and leaves the script of the memory. -/
theorem poll_now_and_script : (t.poll s b phase).2.now = b.now ∧
    (t.poll s b phase).2.memory.script = b.memory.script :=
  poll_induction (P := fun x => x.2.now = b.now ∧ x.2.memory.script = b.memory.script)
    (fun _ _ hmove hx => ⟨hmove.now_and_script.1.trans hx.1, hmove.now_and_script.2.trans hx.2⟩)
    ⟨rfl, rfl⟩

/-- A poll keeps a phase plain. -/
theorem isPlain_poll (hs : s.IsPlain) (h : phase.IsPlain) : (t.poll s b phase).1.IsPlain := by
  refine poll_induction (P := fun x => x.1.IsPlain) (fun x y hmove hx => ?_) h
  have hsettle : ∀ {b : Board} {account answer}, (t.settle b account answer).1.IsPlain := by
    intro b account answer
    unfold settle
    split <;> trivial
  cases hmove with
  | select hdue hmodel => exact Dispatch.isPlain_start (hs.toolsFor t.request) _ _
  | gather => exact Dispatch.IsPlain.poll hx
  | saved hwrite => exact hsettle
  | unsaved hwrite => exact hsettle
  | _ => trivial

/-! ## Executions in the same position -/

/-- Two executions of the same request are in the same position, as far as the board shows. -/
structure Alike (t₁ t₂ : Ticket) (b₁ b₂ : Board) : Prop where
  request_eq : t₁.request = t₂.request
  startedAt_eq : t₁.startedAt = t₂.startedAt
  cancelled_eq : t₁.cancelled = t₂.cancelled
  now_eq : b₁.now = b₂.now
  script_eq : b₁.memory.script = b₂.memory.script
  holds_eq : b₁.inFlight.holds t₁.request.id t₁.generation =
    b₂.inFlight.holds t₂.request.id t₂.generation
  events_eq : b₁.journal.eventsAbout t₁.request.id = b₂.journal.eventsAbout t₂.request.id

/-- Two executions have come equally far, and the events about the request are the same. -/
structure Agree (id : RequestId) (x₁ x₂ : Phase × Board) : Prop where
  forget_eq : x₁.1.forget = x₂.1.forget
  events_eq : x₁.2.journal.eventsAbout id = x₂.2.journal.eventsAbout id

namespace Alike

/-- Alike executions agree if their phases differ at most in what was recollected. -/
theorem agree {phase₁ phase₂ : Phase} (h : Alike t₁ t₂ b₁ b₂)
    (hphase : phase₁.forget = phase₂.forget) :
    Agree t₁.request.id (phase₁, b₁) (phase₂, b₂) :=
  ⟨hphase, by simpa [h.request_eq] using h.events_eq⟩

/-- To note the same events keeps the executions in the same position. -/
theorem note (h : Alike t₁ t₂ b₁ b₂) {deeds₁ deeds₂ : List Deed}
    (hdeeds : deeds₁.filterMap Deed.event? = deeds₂.filterMap Deed.event?) :
    Alike t₁ t₂ (b₁.note t₁.generation deeds₁) (b₂.note t₂.generation deeds₂) :=
  { h with events_eq := by simpa [hdeeds, h.request_eq] using h.events_eq }

theorem choose (h : Alike t₁ t₂ b₁ b₂) (name : Option String) :
    Alike t₁ t₂ { b₁ with currentModel := name } { b₂ with currentModel := name } :=
  ⟨h.request_eq, h.startedAt_eq, h.cancelled_eq, h.now_eq, h.script_eq, h.holds_eq, h.events_eq⟩

theorem save (h : Alike t₁ t₂ b₁ b₂) (answer : Answer) :
    Alike t₁ t₂ (t₁.save s b₁ answer) (t₂.save s b₂ answer) :=
  { h with script_eq := by simp [Ticket.save, h.script_eq] }

theorem elapsed_eq (h : Alike t₁ t₂ b₁ b₂) : t₁.elapsed b₁ = t₂.elapsed b₂ := by
  simp only [elapsed, h.now_eq, h.startedAt_eq]

theorem writeDelay_eq (h : Alike t₁ t₂ b₁ b₂) (answer : Answer) :
    b₁.memory.writeDelay (t₁.exchange answer) = b₂.memory.writeDelay (t₂.exchange answer) := by
  simp only [Memory.writeDelay, exchange, h.script_eq]

/-- Alike executions fail alike. -/
theorem fail (h : Alike t₁ t₂ b₁ b₂) (account : Account) (f : RequestFailure) :
    Agree t₁.request.id (t₁.fail b₁ account f) (t₂.fail b₂ account f) where
  forget_eq := by simp only [Ticket.fail, h.request_eq, h.elapsed_eq]
  events_eq := by
    simpa [Ticket.fail, h.request_eq] using h.events_eq

theorem complete (h : Alike t₁ t₂ b₁ b₂) (account : Account) (answer : Answer) :
    Agree t₁.request.id (t₁.complete b₁ account answer) (t₂.complete b₂ account answer) where
  forget_eq := by simp only [Ticket.complete, h.request_eq, h.elapsed_eq]
  events_eq := by
    simpa [Ticket.complete, h.request_eq, h.elapsed_eq] using h.events_eq

/-- Alike executions settle alike. -/
theorem settle (h : Alike t₁ t₂ b₁ b₂) (account : Account) (answer : Answer) :
    Agree t₁.request.id (t₁.settle b₁ account answer) (t₂.settle b₂ account answer) := by
  unfold Ticket.settle
  rw [h.holds_eq]
  split
  · exact h.complete account answer
  · exact h.fail account .cancelled

theorem pollSaving (h : Alike t₁ t₂ b₁ b₂) (account : Account) (answer : Answer)
    (write : Timed) : Agree t₁.request.id (t₁.pollSaving s b₁ account answer write)
      (t₂.pollSaving s b₂ account answer write) := by
  unfold Ticket.pollSaving
  rw [h.now_eq]
  split
  · exact (h.save answer).settle account answer
  · exact h.settle account answer
  · exact h.agree rfl

theorem beginSaving (h : Alike t₁ t₂ b₁ b₂) (account : Account) (output : ModelOutput) :
    Agree t₁.request.id (t₁.beginSaving s b₁ account output)
      (t₂.beginSaving s b₂ account output) := by
  unfold Ticket.beginSaving
  dsimp only
  rw [h.cancelled_eq, h.writeDelay_eq, h.now_eq]
  split
  · exact h.fail account .cancelled
  · exact h.pollSaving ..

theorem pollCalling (h : Alike t₁ t₂ b₁ b₂) (account : Account) (pending : PendingCall) :
    Agree t₁.request.id (t₁.pollCalling s b₁ account pending)
      (t₂.pollCalling s b₂ account pending) := by
  unfold Ticket.pollCalling
  rw [h.cancelled_eq, h.now_eq]
  split
  · exact h.beginSaving account _
  · exact h.fail account _
  · exact h.agree rfl

theorem beginCalling (h : Alike t₁ t₂ b₁ b₂) (hs : s.IsPlain) (model : ModelDescriptor)
    (known₁ known₂ : Recollection) (records : List ToolRecord) :
    Agree t₁.request.id (t₁.beginCalling s b₁ model known₁ records)
      (t₂.beginCalling s b₂ model known₂ records) := by
  have hcall : s.models.beginCall model (s.call t₁.request model known₁) b₁.now
      (s.callLimit t₁.request) t₁.cancelled =
        s.models.beginCall model (s.call t₂.request model known₂) b₂.now
          (s.callLimit t₂.request) t₂.cancelled := by
    rw [h.cancelled_eq, h.now_eq, h.request_eq, hs.beginCall_eq t₂.request model known₁ known₂]
  unfold Ticket.beginCalling
  dsimp only
  rw [hcall]
  split
  · exact h.fail _ _
  · refine Alike.pollCalling (h.note ?_) _ _
    rfl

theorem recollect (h : Alike t₁ t₂ b₁ b₂) (readDue : Nat) {known₁ known₂ : Option Recollection}
    (hknown : known₁.isSome = known₂.isSome) :
    (t₁.recollect s b₁ readDue known₁).isSome = (t₂.recollect s b₂ readDue known₂).isSome := by
  simp only [Ticket.recollect, Option.isSome_or, hknown, h.now_eq]
  split <;> rfl

/-- Alike executions gather alike, with plain tools. -/
theorem pollGathering (h : Alike t₁ t₂ b₁ b₂) (hs : s.IsPlain) (model : ModelDescriptor)
    {readDue readDue' : Nat} (hdue : readDue = readDue') {known₁ known₂ : Option Recollection}
    (hknown : known₁.isSome = known₂.isSome) {tools : Dispatch} (htools : tools.IsPlain) :
    Agree t₁.request.id (t₁.pollGathering s b₁ model readDue known₁ tools)
      (t₂.pollGathering s b₂ model readDue' known₂ tools) := by
  subst hdue
  have hread := h.recollect (s := s) readDue hknown
  have hpoll : tools.poll b₁.files b₁.now = tools.poll b₂.files b₂.now :=
    h.now_eq ▸ htools.poll_eq b₂.files
  unfold Ticket.pollGathering
  dsimp only
  rw [hpoll]
  -- Both have read the memory now, or neither has.
  cases hr₁ : t₁.recollect s b₁ readDue known₁ with
  | none =>
    have hr₂ : t₂.recollect s b₂ readDue known₂ = none := by simpa [hr₁] using hread
    rw [hr₂]
    exact (h.note rfl).agree rfl
  | some k₁ =>
    obtain ⟨k₂, hr₂⟩ := Option.isSome_iff_exists.mp (hread.symm.trans (by rw [hr₁]; rfl))
    rw [hr₂]
    cases (tools.poll b₂.files b₂.now).isDone with
    | true => exact (h.note rfl).beginCalling hs ..
    | false => exact (h.note rfl).agree rfl

/-- Alike executions dispatch the same. -/
theorem dispatch_eq (h : Alike t₁ t₂ b₁ b₂) (hs : s.IsPlain) :
    t₁.dispatch s b₁ = t₂.dispatch s b₂ := by
  simp only [dispatch, h.request_eq, h.now_eq]
  exact Dispatch.startNext_eq_of_isPlain (hs.toolsFor _) ..

theorem beginGathering (h : Alike t₁ t₂ b₁ b₂) (hs : s.IsPlain) (model : ModelDescriptor) :
    Agree t₁.request.id (t₁.beginGathering s b₁ model) (t₂.beginGathering s b₂ model) := by
  have htools : (t₂.dispatch s b₂).IsPlain := Dispatch.isPlain_start (hs.toolsFor _) _ _
  have hdue : b₁.now + b₁.memory.readDelay = b₂.now + b₂.memory.readDelay := by
    simp only [Memory.readDelay, h.now_eq, h.script_eq]
  have hdeeds := filterMap_event?_toolDeeds (t₂.dispatch s b₂) (t₂.dispatch s b₂).started
  have hchosen := (h.choose (some model.name)).note (hdeeds.trans hdeeds.symm)
  unfold Ticket.beginGathering
  rw [h.dispatch_eq hs]
  exact hchosen.pollGathering hs model hdue rfl htools

theorem pollSelecting (h : Alike t₁ t₂ b₁ b₂) (hs : s.IsPlain) (due : Nat) :
    Agree t₁.request.id (t₁.pollSelecting s b₁ due) (t₂.pollSelecting s b₂ due) := by
  unfold Ticket.pollSelecting
  rw [h.now_eq, h.request_eq]
  split
  · split
    · exact h.request_eq ▸ h.beginGathering hs _
    · exact h.request_eq ▸ h.fail {} _
  · exact h.request_eq ▸ h.agree rfl

/-- In a plain setup, two executions in the same position are polled alike. -/
theorem poll {phase₁ phase₂ : Phase} (h : Alike t₁ t₂ b₁ b₂) (hs : s.IsPlain)
    (hplain : phase₁.IsPlain) (hphase : phase₁.forget = phase₂.forget) :
    Agree t₁.request.id (t₁.poll s b₁ phase₁) (t₂.poll s b₂ phase₂) := by
  cases phase₁ with
  | gathering model readDue known₁ tools =>
    cases phase₂ with
    | gathering model' readDue' known₂ tools' =>
      simp only [Phase.forget, Phase.gathering.injEq] at hphase
      obtain ⟨rfl, rfl, hknown, rfl⟩ := hphase
      refine h.pollGathering hs model rfl ?_ hplain
      simpa using congrArg Option.isSome hknown
    | _ => simp [Phase.forget] at hphase
  | selecting due =>
    cases phase₂ <;> simp [Phase.forget] at hphase
    subst hphase
    exact h.pollSelecting hs due
  | calling account pending =>
    cases phase₂ <;> simp [Phase.forget] at hphase
    obtain ⟨rfl, rfl⟩ := hphase
    exact h.pollCalling account pending
  | saving account answer write =>
    cases phase₂ <;> simp [Phase.forget] at hphase
    obtain ⟨rfl, rfl, rfl⟩ := hphase
    exact h.pollSaving account answer write
  | ended r =>
    cases phase₂ <;> simp [Phase.forget] at hphase
    subst hphase
    exact h.agree rfl
  | dropped =>
    cases phase₂ <;> simp [Phase.forget] at hphase
    exact h.agree rfl

end Alike

end Ticket

end Switchboard
