import Switchboard.Proofs.Model.Race
import Switchboard.Proofs.Orchestration.Deeds
import Switchboard.Proofs.Tool.Records

/-!
# What an execution has done for its request

An execution runs the tools for its request once each, in order, and then asks the provider of the
chosen model, and no other, once. What it holds in a phase is what has come of that
(`Ticket.Ledger`), and so is its response in the end (`Ticket.Tells`). This is kept by all that can
happen to an execution (`kept_ledger`).
-/

namespace Switchboard

namespace Setup

variable {s : Setup} {r : Request} {deeds : List Deed} {e : Event}

/-- The tools for a request have been run once each, in order, and have left these records. -/
structure HasRun (s : Setup) (r : Request) (deeds : List Deed) (records : List ToolRecord) :
    Prop where
  runs_eq : deeds.filterMap Deed.toolCall? =
    (s.toolsFor r).map fun tool => (tool.name, toolArguments r)
  leaves : List.Forall₂ (fun tool record => tool.Leaves (s.toolContext r) (toolArguments r) record)
    (s.toolsFor r) records

/-- The provider of the chosen model has been asked once, and no other. -/
structure HasAsked (s : Setup) (r : Request) (deeds : List Deed) (model : ModelDescriptor)
    (p : Provider) (call : ModelCall) : Prop where
  model_eq : s.selectModel r = .ok model
  provider_eq : s.models.provider? model.providerName = some p
  call_eq : ∃ known, call = s.call r model known
  calls_eq : deeds.filterMap Deed.modelCall? = [(p.name, call)]

theorem HasRun.publish {records : List ToolRecord} (h : s.HasRun r deeds records) (e : Event) :
    s.HasRun r (deeds ++ [.publish e]) records :=
  ⟨by simpa [Deed.toolCall?, List.filterMap_cons] using h.runs_eq, h.leaves⟩

theorem HasAsked.publish {model : ModelDescriptor} {p : Provider} {call : ModelCall}
    (h : s.HasAsked r deeds model p call) (e : Event) :
    s.HasAsked r (deeds ++ [.publish e]) model p call :=
  ⟨h.model_eq, h.provider_eq, h.call_eq,
    by simpa [Deed.modelCall?, List.filterMap_cons] using h.calls_eq⟩

/-- Why a call fails that was handed over: the provider fails, or the limit comes before it has
answered, or the execution is cancelled. -/
inductive CallFails (s : Setup) (r : Request) (cancelled : Bool) (p : Provider)
    (call : ModelCall) : RequestFailure → Prop where
  | refused {failure : ProviderFailure} (h : p.answer call = .error failure) :
    CallFails s r cancelled p call (failure.toRequestFailure p.name)
  | expired (h : s.callLimit r < p.delay) :
    CallFails s r cancelled p call (.timeout (s.callLimit r))
  | cancelled (h : cancelled = true) : CallFails s r cancelled p call .cancelled

/-- What an execution has done for a request by the time it has this response. -/
inductive Tells (s : Setup) (r : Request) (cancelled : Bool) (deeds : List Deed) :
    Response → Prop where
  /-- There was no model to choose. -/
  | unselected {f : RequestFailure} (hf : s.selectModel r = .error f)
      (hruns : deeds.filterMap Deed.toolCall? = []) (hcalls : deeds.filterMap Deed.modelCall? = [])
      (millis : Nat) :
    Tells s r cancelled deeds (Account.failure {} r.id f.message millis)
  /-- The call was not handed to a provider. -/
  | uncalled {model : ModelDescriptor} {records : List ToolRecord} {f : RequestFailure}
      (hmodel : s.selectModel r = .ok model) (hrun : s.HasRun r deeds records)
      (hcalls : deeds.filterMap Deed.modelCall? = [])
      (hf : s.models.provider? model.providerName = none ∨ cancelled = true) (millis : Nat) :
    Tells s r cancelled deeds (Account.failure ⟨some model, records⟩ r.id f.message millis)
  /-- The call was handed to a provider and failed. -/
  | unanswered {model : ModelDescriptor} {records : List ToolRecord} {p : Provider}
      {call : ModelCall} {f : RequestFailure} (hrun : s.HasRun r deeds records)
      (hasked : s.HasAsked r deeds model p call) (hf : s.CallFails r cancelled p call f)
      (millis : Nat) :
    Tells s r cancelled deeds (Account.failure ⟨some model, records⟩ r.id f.message millis)
  /-- The model has answered. -/
  | answered {model : ModelDescriptor} {records : List ToolRecord} {p : Provider}
      {call : ModelCall} {output : ModelOutput} (hrun : s.HasRun r deeds records)
      (hasked : s.HasAsked r deeds model p call) (houtput : p.answer call = .ok output)
      (millis : Nat) :
    Tells s r cancelled deeds (Account.success ⟨some model, records⟩ r.id
      (Account.answer ⟨some model, records⟩ output) millis)

/-- To be cancelled changes nothing about a response that is there. -/
theorem Tells.cancel {cancelled : Bool} {response : Response}
    (h : s.Tells r cancelled deeds response) : s.Tells r true deeds response := by
  cases h with
  | unselected hf hruns hcalls millis => exact .unselected hf hruns hcalls millis
  | uncalled hmodel hrun hcalls hf millis =>
    exact .uncalled hmodel hrun hcalls (Or.inr rfl) millis
  | unanswered hrun hasked hf millis =>
    refine .unanswered hrun hasked ?_ millis
    cases hf with
    | refused h => exact .refused h
    | expired h => exact .expired h
    | cancelled h => exact .cancelled rfl
  | answered hrun hasked houtput millis => exact .answered hrun hasked houtput millis

end Setup

namespace Ticket

variable {s : Setup} {t : Ticket} {b : Board} {deeds : List Deed}

/-! ## The ledger -/

/-- What an execution has done by the time it has come to a phase. -/
def Ledger (s : Setup) (t : Ticket) (deeds : List Deed) : Phase → Prop
  | .selecting _ => deeds.filterMap Deed.toolCall? = [] ∧ deeds.filterMap Deed.modelCall? = []
  | .gathering model _ _ tools =>
    s.selectModel t.request = .ok model ∧ deeds.filterMap Deed.modelCall? = [] ∧
      deeds.filterMap Deed.toolCall? =
        tools.started.map (fun name => (name, Setup.toolArguments t.request)) ∧
      tools.RunsThrough (s.toolContext t.request) (Setup.toolArguments t.request)
        (s.toolsFor t.request)
  | .calling account pending =>
    ∃ model p call began, account.model = some model ∧
      s.HasRun t.request deeds account.records ∧ s.HasAsked t.request deeds model p call ∧
      pending = ⟨p.name, .start began p.delay (s.callLimit t.request), s.callLimit t.request,
        p.answer call⟩
  | .saving account answer _ =>
    ∃ model p call output, account.model = some model ∧
      s.HasRun t.request deeds account.records ∧ s.HasAsked t.request deeds model p call ∧
      p.answer call = .ok output ∧ answer = account.answer output
  | .ended response => s.Tells t.request t.cancelled deeds response
  | .dropped => True

theorem filterMap_toolCall?_toolDeeds (tools : Dispatch) (names : List String) :
    (toolDeeds tools names).filterMap Deed.toolCall? =
      names.map fun name => (name, tools.args) := by
  simp [toolDeeds, Deed.toolCall?, List.filterMap_map, Function.comp_def]

/-- A call that was handed over fails for a reason of its own. -/
theorem callFails_of_poll {p : Provider} {call : ModelCall} {began now : Nat}
    {f : RequestFailure}
    (h : (PendingCall.mk p.name (.start began p.delay (s.callLimit t.request))
      (s.callLimit t.request) (p.answer call)).poll now t.cancelled = some (.error f)) :
    s.CallFails t.request t.cancelled p call f := by
  rcases PendingCall.poll_cases h with ⟨hc, hf⟩ | ⟨-, ⟨-, hf⟩ | ⟨hdue, hdeadline, hf⟩⟩
  · obtain rfl := Except.error.inj hf
    exact .cancelled hc
  · cases hanswer : p.answer call with
    | ok output => simp [hanswer] at hf
    | error failure =>
      obtain rfl : f = failure.toRequestFailure p.name := by simpa [hanswer] using hf
      exact .refused hanswer
  · obtain rfl := Except.error.inj hf
    simp only [Timed.start] at hdue hdeadline
    exact .expired (by omega)

/-- A dispatch that is done has run all its tools. -/
theorem hasRun_of_isDone {tools : Dispatch}
    (hruns : deeds.filterMap Deed.toolCall? =
      tools.started.map fun name => (name, Setup.toolArguments t.request))
    (htools : tools.RunsThrough (s.toolContext t.request) (Setup.toolArguments t.request)
      (s.toolsFor t.request)) (hdone : tools.isDone = true) :
    s.HasRun t.request deeds tools.records where
  runs_eq := by
    rw [hruns, htools.started_eq hdone, List.map_map]
    rfl
  leaves := htools.leaves_of_isDone hdone

theorem deedsOf_fail (account : Account) (f : RequestFailure) :
    (t.fail b account f).2.journal.deedsOf t.generation =
      b.journal.deedsOf t.generation ++ [.publish (.requestEnded t.request.id (stateAfter f))] := by
  simp [fail]

/-- A settled answer is in the ledger. -/
theorem ledger_settle {account : Account} {model : ModelDescriptor} {p : Provider}
    {call : ModelCall} {output : ModelOutput}
    (hholds : b.inFlight.holds t.request.id t.generation = !t.cancelled)
    (hmodel : account.model = some model)
    (hrun : s.HasRun t.request (b.journal.deedsOf t.generation) account.records)
    (hasked : s.HasAsked t.request (b.journal.deedsOf t.generation) model p call)
    (houtput : p.answer call = .ok output) :
    t.Ledger s ((t.settle b account (account.answer output)).2.journal.deedsOf t.generation)
      (t.settle b account (account.answer output)).1 := by
  obtain ⟨_, records⟩ := account
  obtain rfl : _ = some model := hmodel
  unfold settle
  cases hc : t.cancelled with
  | true =>
    rw [if_neg (by simp [hholds, hc]), deedsOf_fail]
    exact .unanswered (hrun.publish _) (hasked.publish _) (.cancelled hc) _
  | false =>
    rw [if_pos (by simp [hholds, hc])]
    simp only [complete, journal_leave, Journal.deedsOf_note_self]
    rw [← List.append_assoc]
    exact .answered ((hrun.publish _).publish _) ((hasked.publish _).publish _) houtput _

/-- The ledger is kept by the moves of an execution. -/
theorem Move.ledger {x y : Phase × Board} (h : Move s t x y)
    (hholds : x.2.inFlight.holds t.request.id t.generation = !t.cancelled)
    (hx : t.Ledger s (x.2.journal.deedsOf t.generation) x.1) :
    t.Ledger s (y.2.journal.deedsOf t.generation) y.1 := by
  cases h with
  | @select due b model hdue hmodel =>
    have htools : (t.dispatch s b).RunsThrough _ _ _ := Dispatch.runsThrough_start ..
    refine ⟨hmodel, ?_, ?_, htools⟩
    · simp [filterMap_modelCall?_toolDeeds, hx.2]
    · simp [filterMap_toolCall?_toolDeeds, hx.1, htools.args_eq]
  | unselected hdue hf =>
    rw [deedsOf_fail]
    exact .unselected hf (by simp [Deed.toolCall?, hx.1, List.filterMap_cons])
      (by simp [Deed.modelCall?, hx.2, List.filterMap_cons]) _
  | @gather model readDue known tools b =>
    obtain ⟨hmodel, hcalls, hruns, htools⟩ := hx
    have hstarted := List.prefix_iff_eq_append.mp (tools.started_prefix_poll b.files b.now)
    refine ⟨hmodel, ?_, ?_, htools.poll ..⟩
    · simp [filterMap_modelCall?_toolDeeds, hcalls]
    · simp only [Board.journal_note, Journal.deedsOf_note_self, List.filterMap_append, hruns,
        filterMap_toolCall?_toolDeeds, htools.args_eq, ← List.map_append, hstarted]
  | uncalled hdone hf =>
    obtain ⟨hmodel, hcalls, hruns, htools⟩ := hx
    rw [deedsOf_fail]
    refine .uncalled hmodel ((hasRun_of_isDone hruns htools hdone).publish _)
      (by simp [Deed.modelCall?, hcalls, List.filterMap_cons]) ?_ _
    rcases ModelRegistry.beginCall_eq_error_iff.mp hf with ⟨hp, -⟩ | ⟨-, hc, -⟩
    · exact Or.inl hp
    · exact Or.inr hc
  | @call model readDue known tools b pending hdone hpending =>
    obtain ⟨hmodel, hcalls, hruns, htools⟩ := hx
    obtain ⟨p, hp, -, rfl⟩ := ModelRegistry.beginCall_eq_ok_iff.mp hpending
    have hrun := hasRun_of_isDone hruns htools hdone
    refine ⟨model, p, s.call t.request model known, b.now, rfl, ⟨?_, hrun.leaves⟩,
      ⟨hmodel, hp, ⟨known, rfl⟩, ?_⟩, rfl⟩
    · simpa [Deed.toolCall?, List.filterMap_cons] using hrun.runs_eq
    · simp [Deed.modelCall?, hcalls]
  | @unanswered account pending b f hf =>
    obtain ⟨model, p, call, began, hmodel, hrun, hasked, rfl⟩ := hx
    obtain ⟨_, records⟩ := account
    obtain rfl : _ = some model := hmodel
    rw [deedsOf_fail]
    exact .unanswered (hrun.publish _) (hasked.publish _) (callFails_of_poll hf) _
  | @answer account pending b output houtput =>
    obtain ⟨model, p, call, began, hmodel, hrun, hasked, rfl⟩ := hx
    exact ⟨model, p, call, output, hmodel, hrun, hasked, PendingCall.outcome_of_poll houtput, rfl⟩
  | saved hwrite =>
    obtain ⟨model, p, call, output, hmodel, hrun, hasked, houtput, rfl⟩ := hx
    exact ledger_settle (by simpa using hholds) hmodel hrun hasked houtput
  | unsaved hwrite =>
    obtain ⟨model, p, call, output, hmodel, hrun, hasked, houtput, rfl⟩ := hx
    exact ledger_settle hholds hmodel hrun hasked houtput

/-- Every move keeps the ledger. -/
theorem kept_ledger (s : Setup) : Kept s (Ledger s) where
  begins t due := by simp [Ledger, Deed.toolCall?, Deed.modelCall?]
  move _ _ _ hmove hholds hx := hmove.ledger hholds hx
  cancel t deeds phase h := by
    cases phase with
    | ended response => exact Setup.Tells.cancel h
    | _ => exact h
  drop _ _ _ _ := trivial

end Ticket

end Switchboard
