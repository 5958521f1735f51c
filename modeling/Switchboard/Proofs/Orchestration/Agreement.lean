import Switchboard.Model.Scripted
import Switchboard.Proofs.Model.Selection
import Switchboard.Proofs.Orchestration.Verdict
import Switchboard.Proofs.Orchestration.WellFormed

/-!
# Selection and call agree

A model is chosen from the lists of all providers, and its provider is found by the name that the
model carries. If providers are registered one after the other and list models under their own name
only, this is the provider that lists the model (`provider?_registerAll`). So a scripted provider
is never asked for a model that it does not list (`agreement`).
-/

namespace Switchboard

namespace RequestFailure

-- The texts are told apart by their first characters.

theorem message_timeout_ne_modelNotFound (millis : Nat) (name : String) :
    (timeout millis).message ≠ (modelNotFound name).message := by
  unfold message
  intro h
  have htake := congrArg (fun m => m.toList.take 1) h
  simp at htake

theorem message_provider_ne_modelNotFound (provider text name : String) (retryable : Bool) :
    (RequestFailure.provider provider text retryable).message ≠ (modelNotFound name).message := by
  unfold message
  intro h
  have htake := congrArg (fun m => m.toList.take 7) h
  simp at htake

theorem message_timeout_ne_provider (millis : Nat) (provider text : String) (retryable : Bool) :
    (timeout millis).message ≠ (RequestFailure.provider provider text retryable).message := by
  unfold message
  intro h
  have htake := congrArg (fun m => m.toList.take 1) h
  simp at htake

end RequestFailure

namespace ProviderFailure

/-- Only that a model is unknown has the text of it. -/
theorem eq_unknownModel_of_message {f : ProviderFailure} {name : String}
    (h : f.message = (unknownModel name).message) : f = unknownModel name := by
  unfold message at h
  have htake := congrArg (fun m => m.toList.take 1) h
  cases f with
  | unknownModel name' => simpa using h
  | _ => simp at htake

/-- The message of a failure tells which failure of the provider it was. -/
theorem message_toRequestFailure_inj {f f' : ProviderFailure} {provider : String} :
    (f.toRequestFailure provider).message = (f'.toRequestFailure provider).message ↔
      f.message = f'.message := by
  unfold toRequestFailure RequestFailure.message
  simp

end ProviderFailure

/-! ## Registries of scripted providers -/

namespace ModelRegistry

variable {r : ModelRegistry} {ps : List Provider} {p : Provider} {m : ModelDescriptor}

/-- A provider that was registered and lists a model under its own name is the one that is found by
the name that the model carries. -/
theorem provider?_registerAll (hp : p ∈ (registerAll {} ps).providers)
    (hm : m.providerName = p.name) :
    (registerAll {} ps).provider? m.providerName = some p :=
  (Registration.find?_eq_some_iff (nodup_registerAll ps)).mpr ⟨hp, hm.symm⟩

/-- A model that is selected is offered by some provider. -/
theorem mem_offered_of_select {policy : SelectionPolicy} {kind : RequestKind}
    {model provider : Option String} (h : r.select policy kind model provider = .ok m) :
    ∃ p ∈ r.providers, m ∈ p.offered := by
  obtain ⟨i, hi, -⟩ := SelectionPolicy.select_eq_ok_iff.mp h
  exact List.mem_flatMap.mp (List.mem_of_getElem? hi)

end ModelRegistry

namespace ProviderScript

variable {script : ProviderScript} {m : ModelDescriptor} {call : ModelCall}

theorem listed_of_mem_offered (h : m ∈ script.toProvider.offered) : m ∈ script.listed := by
  unfold Provider.offered toProvider at h
  cases hf : script.listFailure with
  | some f => simp [hf] at h
  | none =>
    cases hu : script.unavailable with
    | true => simp [hf, hu] at h
    | false => simpa [hf, hu] using h

/-- A scripted provider that is asked for a model that it lists fails as told, if at all. -/
theorem answer_of_mem_listed (hm : m ∈ script.listed) (hcall : call.model = m.name) :
    script.toProvider.answer call = match script.failure with
      | some f => .error f
      | none => .ok (script.output call) := by
  cases hf : script.failure with
  | some f => simp [toProvider, hf]
  | none => simpa [toProvider, hf, Provider.serve] using ⟨m, hm, hcall.symm⟩

end ProviderScript

namespace ModelRegistry

variable {r : ModelRegistry} {scripts : List ProviderScript} {p : Provider} {m : ModelDescriptor}

/-- A model is supplied by the provider that follows a script: it lists the model, as no other
does, and it is the one that is found by the name that the model carries. -/
structure SuppliedBy (r : ModelRegistry) (m : ModelDescriptor) (script : ProviderScript) :
    Prop where
  registered : script.toProvider ∈ r.providers
  name_eq : m.providerName = script.name
  lists : m ∈ script.toProvider.offered
  only : ∀ p ∈ r.providers, m ∈ p.offered → p = script.toProvider
  found : r.provider? m.providerName = some script.toProvider

/-- Every model that can be chosen is supplied by one of the scripted providers, if they list models
under their own name only. -/
theorem exists_suppliedBy (hr : r = registerAll {} (scripts.map ProviderScript.toProvider))
    (hlisted : ∀ script ∈ scripts, ∀ m ∈ script.listed, m.providerName = script.name)
    (hp : p ∈ r.providers) (hm : m ∈ p.offered) : ∃ script ∈ scripts, r.SuppliedBy m script := by
  subst hr
  have hscript : ∀ p ∈ (registerAll {} (scripts.map ProviderScript.toProvider)).providers,
      m ∈ p.offered → ∃ script ∈ scripts, script.toProvider = p ∧ m.providerName = p.name := by
    intro p hp hm
    obtain ⟨script, hscript, rfl⟩ := List.mem_map.mp ((registerAll_sublist _).subset hp)
    exact ⟨script, hscript, rfl, hlisted script hscript m (ProviderScript.listed_of_mem_offered hm)⟩
  obtain ⟨script, hmem, rfl, hname⟩ := hscript p hp hm
  have hfound := provider?_registerAll hp hname
  refine ⟨script, hmem, hp, hname, hm, fun p' hp' hm' => ?_, hfound⟩
  obtain ⟨-, -, -, hname'⟩ := hscript p' hp' hm'
  exact Option.some.inj ((provider?_registerAll hp' hname').symm.trans hfound)

end ModelRegistry

namespace Setup

variable {s : Setup} {r : Request} {model : ModelDescriptor} {script : ProviderScript}
  {deeds : List Deed} {response : Response}

/-- The errors of a response that comes from the provider that follows a script: none unless the
script says so, and that of the limit if it comes before the answer. -/
inductive EndsAsTold (s : Setup) (r : Request) (script : ProviderScript) :
    Option String → Prop where
  | answered (h : script.failure = none) : EndsAsTold s r script none
  | expired (h : s.callLimit r < script.delay) :
    EndsAsTold s r script (some (RequestFailure.timeout (s.callLimit r)).message)
  | failed {f : ProviderFailure} (h : script.failure = some f) :
    EndsAsTold s r script (some (f.toRequestFailure script.name).message)

/-- A response for a request comes from the provider that follows a script: it was asked once for
the model, and nobody else was asked, and the response names both. No text says that the model was
not found, and none that it is unknown unless the script does. -/
structure ComesFrom (s : Setup) (r : Request) (model : ModelDescriptor) (script : ProviderScript)
    (calls : List (String × ModelCall)) (response : Response) : Prop where
  asked : ∃ call, call.model = model.name ∧ calls = [(script.name, call)]
  modelName_eq : response.metadata.modelName = some model.name
  providerName_eq : response.metadata.providerName = some script.name
  ends : s.EndsAsTold r script response.error
  found : ∀ name, response.error ≠ some (RequestFailure.modelNotFound name).message
  known : ∀ name, response.error =
      some ((ProviderFailure.unknownModel name).toRequestFailure script.name).message →
    script.failure = some (.unknownModel name)

/-- A request that ends as told does not end for want of its model. -/
theorem EndsAsTold.ne_modelNotFound {error : Option String} (h : s.EndsAsTold r script error)
    (name : String) : error ≠ some (RequestFailure.modelNotFound name).message := by
  intro heq
  cases h with
  | answered h => cases heq
  | expired h =>
    exact RequestFailure.message_timeout_ne_modelNotFound _ _ (Option.some.inj heq)
  | failed h =>
    exact RequestFailure.message_provider_ne_modelNotFound _ _ _ _ (Option.some.inj heq)

/-- A provider says that a model is unknown only if the script does. -/
theorem EndsAsTold.eq_unknownModel {error : Option String} (h : s.EndsAsTold r script error)
    {name : String} (heq : error =
      some ((ProviderFailure.unknownModel name).toRequestFailure script.name).message) :
    script.failure = some (.unknownModel name) := by
  cases h with
  | answered h => cases heq
  | expired h =>
    exact (RequestFailure.message_timeout_ne_provider _ _ _ _ (Option.some.inj heq)).elim
  | failed h =>
    have hmessage := ProviderFailure.message_toRequestFailure_inj.mp (Option.some.inj heq)
    rw [h, ProviderFailure.eq_unknownModel_of_message hmessage]

/-- The model that is asked is the selected one, at its only supplier. -/
theorem HasAsked.of_suppliedBy {model' : ModelDescriptor} {p : Provider} {call : ModelCall}
    (h : s.HasAsked r deeds model' p call) (hmodel : s.selectModel r = .ok model)
    (hsupplied : s.models.SuppliedBy model script) :
    model' = model ∧ p = script.toProvider ∧ call.model = model.name := by
  obtain rfl : model' = model := Except.ok.inj (h.model_eq.symm.trans hmodel)
  obtain ⟨known, rfl⟩ := h.call_eq
  exact ⟨rfl, Option.some.inj (h.provider_eq.symm.trans hsupplied.found), rfl⟩

/-- If a model is supplied by a scripted provider, the response to a request that is not cancelled
comes from it. -/
theorem Tells.comesFrom (h : s.Tells r false deeds response) (hmodel : s.selectModel r = .ok model)
    (hsupplied : s.models.SuppliedBy model script) :
    s.ComesFrom r model script (deeds.filterMap Deed.modelCall?) response := by
  have hanswer {call : ModelCall} (hcall : call.model = model.name) :=
    ProviderScript.answer_of_mem_listed (ProviderScript.listed_of_mem_offered hsupplied.lists) hcall
  cases h with
  | unselected hf hruns hcalls millis => simp [hf] at hmodel
  | uncalled hmodel' hrun hcalls hf millis =>
    obtain rfl := Except.ok.inj (hmodel'.symm.trans hmodel)
    simp [hsupplied.found] at hf
  | @unanswered model' records p call f hrun hasked hf millis =>
    obtain ⟨rfl, rfl, hcall⟩ := hasked.of_suppliedBy hmodel hsupplied
    have hends : s.EndsAsTold r script (some f.message) := by
      cases hf with
      | cancelled h => cases h
      | expired h => exact .expired h
      | @refused failure h =>
        rw [hanswer hcall] at h
        cases hfailure : script.failure with
        | none => simp [hfailure] at h
        | some failure' =>
          obtain rfl : failure' = failure := by simpa [hfailure] using h
          exact .failed hfailure
    exact ⟨⟨call, hcall, hasked.calls_eq⟩, rfl, congrArg some hsupplied.name_eq, hends,
      hends.ne_modelNotFound, fun _ => hends.eq_unknownModel⟩
  | @answered model' records p call output hrun hasked houtput millis =>
    obtain ⟨rfl, rfl, hcall⟩ := hasked.of_suppliedBy hmodel hsupplied
    have hends : s.EndsAsTold r script none := by
      rw [hanswer hcall] at houtput
      cases hfailure : script.failure with
      | none => exact .answered hfailure
      | some f => simp [hfailure] at houtput
    exact ⟨⟨call, hcall, hasked.calls_eq⟩, rfl, congrArg some hsupplied.name_eq, hends,
      hends.ne_modelNotFound, fun _ => hends.eq_unknownModel⟩

end Setup

namespace Ticket

variable {s : Setup} {t : Ticket} {deeds : List Deed} {phase : Phase}

/-- At any time an execution has asked nobody, or the provider of the chosen model once. -/
theorem Ledger.calls (h : t.Ledger s deeds phase) (hphase : phase ≠ .dropped) :
    deeds.filterMap Deed.modelCall? = [] ∨
      ∃ model p call, s.HasAsked t.request deeds model p call := by
  cases phase with
  | selecting due => exact Or.inl h.2
  | gathering model readDue known tools => exact Or.inl h.2.1
  | calling account pending =>
    obtain ⟨model, p, call, _, -, -, hasked, -⟩ := h
    exact Or.inr ⟨model, p, call, hasked⟩
  | saving account answer write =>
    obtain ⟨model, p, call, _, -, -, hasked, -⟩ := h
    exact Or.inr ⟨model, p, call, hasked⟩
  | ended response =>
    cases h with
    | unselected hf hruns hcalls millis => exact Or.inl hcalls
    | uncalled hmodel hrun hcalls hf millis => exact Or.inl hcalls
    | unanswered hrun hasked hf millis => exact Or.inr ⟨_, _, _, hasked⟩
    | answered hrun hasked houtput millis => exact Or.inr ⟨_, _, _, hasked⟩
  | dropped => exact absurd rfl hphase

end Ticket

namespace Orchestrator

section New

variable {setup : Setup} {memory : Memory} {files : FileSystem} {as bs before : List Action}
  {r : Request} {g : Nat} {model : ModelDescriptor} {script : ProviderScript}

/-- An execution that is neither cancelled nor given up and has come to its end has a response. -/
theorem exists_response?_of_isOver
    (hadmitted : (new setup memory files).Answered as before (.submit r) (.admitted g))
    (hcancelled : ∀ before id,
      ¬ (new setup memory files).Answered as before (.cancel id) (.cancelled (some g)))
    (hgivenUp : ¬ (new setup memory files).GivenUp as g) (hbs : ∀ a ∈ bs, a.isInternal = true)
    (hover : ((new setup memory files).after (as ++ bs)).isOver g = true) :
    ∃ response, ((new setup memory files).after (as ++ bs)).response? g = some response := by
  have hadmitted' : (new setup memory files).Answered (as ++ bs) before (.submit r)
      (.admitted g) := ⟨hadmitted.comes.trans (List.prefix_append ..), hadmitted.reply_eq⟩
  obtain ⟨e, he, rfl, rfl⟩ := exists_execution_of_admitted hadmitted'
  have hdropped := (spared_of_internal hbs he hcancelled hgivenUp).2
  obtain ⟨response, hended⟩ := consistent_after.exists_ended he hover hdropped
  exact ⟨response, (consistent_after.response?_eq_some_iff he).mpr hended⟩

/-- If the model that is chosen is supplied by a scripted provider, a response to a request that is
neither cancelled nor given up comes from it. -/
theorem comesFrom_of_response? {response : Response}
    (hadmitted : (new setup memory files).Answered as before (.submit r) (.admitted g))
    (hcancelled : ∀ before id,
      ¬ (new setup memory files).Answered as before (.cancel id) (.cancelled (some g)))
    (hgivenUp : ¬ (new setup memory files).GivenUp as g) (hbs : ∀ a ∈ bs, a.isInternal = true)
    (hmodel : setup.selectModel r = .ok model)
    (hsupplied : setup.models.SuppliedBy model script)
    (hresponse : ((new setup memory files).after (as ++ bs)).response? g = some response) :
    setup.ComesFrom r model script
      (((new setup memory files).after (as ++ bs)).board.journal.callsOf g) response := by
  have hadmitted' : (new setup memory files).Answered (as ++ bs) before (.submit r)
      (.admitted g) := ⟨hadmitted.comes.trans (List.prefix_append ..), hadmitted.reply_eq⟩
  obtain ⟨e, he, rfl, rfl, htells⟩ := tells_of_response? hadmitted' hresponse
  rw [(spared_of_internal hbs he hcancelled hgivenUp).1] at htells
  exact htells.comesFrom hmodel hsupplied

/-- Over providers that follow scripts, are registered one after the other and list models under
their own name only, a request for which a model is chosen and that is neither cancelled nor given
up has its response from the one provider that lists the model. Until then that provider has been
asked at most once, and nobody else. -/
theorem agreement (scripts : List ProviderScript) (setup : Setup) (memory : Memory)
    (files : FileSystem) (as before : List Action) (r : Request) (g : Nat)
    (model : ModelDescriptor)
    (hmodels : setup.models =
      ModelRegistry.registerAll {} (scripts.map ProviderScript.toProvider))
    (hlisted : ∀ script ∈ scripts, ∀ m ∈ script.listed, m.providerName = script.name)
    (hadmitted : (new setup memory files).Answered as before (.submit r) (.admitted g))
    (hcancelled : ∀ before id,
      ¬ (new setup memory files).Answered as before (.cancel id) (.cancelled (some g)))
    (hgivenUp : ¬ (new setup memory files).GivenUp as g)
    (hmodel : setup.selectModel r = .ok model) :
    let o := (new setup memory files).after as
    ∃ script ∈ scripts, setup.models.SuppliedBy model script ∧
      (o.board.journal.callsOf g = [] ∨
        ∃ call, call.model = model.name ∧ o.board.journal.callsOf g = [(script.name, call)]) ∧
      (∀ response, o.response? g = some response →
        setup.ComesFrom r model script (o.board.journal.callsOf g) response) ∧
      ∃ response, (o.await [g]).response? g = some response ∧
        setup.ComesFrom r model script ((o.await [g]).board.journal.callsOf g) response := by
  intro o
  obtain ⟨p, hp, hm⟩ := ModelRegistry.mem_offered_of_select hmodel
  obtain ⟨script, hscript, hsupplied⟩ := ModelRegistry.exists_suppliedBy hmodels hlisted hp hm
  refine ⟨script, hscript, hsupplied, ?_, fun response hresponse => ?_, ?_⟩
  · obtain ⟨e, he, rfl, rfl⟩ := exists_execution_of_admitted hadmitted
    have hledger := shows_after (Ticket.kept_ledger setup) memory files as e he
    rcases hledger.calls (mt (dropped_iff he).mp hgivenUp) with hnone | ⟨_, _, call, hasked⟩
    · exact Or.inl hnone
    · obtain ⟨rfl, rfl, hcall⟩ := hasked.of_suppliedBy hmodel hsupplied
      exact Or.inr ⟨call, hcall, hasked.calls_eq⟩
  · have hstay : (new setup memory files).after (as ++ []) = o := by rw [List.append_nil]
    rw [← hstay] at hresponse ⊢
    exact comesFrom_of_response? hadmitted hcancelled hgivenUp
      (fun _ hmem => absurd hmem List.not_mem_nil) hmodel hsupplied hresponse
  · obtain ⟨bs, hbs, hawait, hover⟩ := exists_await setup memory files as [g]
    obtain ⟨response, hresponse⟩ := exists_response?_of_isOver hadmitted hcancelled hgivenUp hbs
      (hover g (List.mem_singleton_self g))
    rw [hawait]
    exact ⟨response, hresponse,
      comesFrom_of_response? hadmitted hcancelled hgivenUp hbs hmodel hsupplied hresponse⟩

end New

namespace Rehearsal

/-- A provider that may be told to fail. -/
def script (failure : Option ProviderFailure) : ProviderScript where
  name := "local"
  models := [.general "gpt-4o"]
  failure := failure

/-- The provider by itself, and a clock that stands still. -/
def setup (failure : Option ProviderFailure) : Setup where
  config := { workingDirectory := "" }
  models := ModelRegistry.registerAll {} ([script failure].map ProviderScript.toProvider)
  clock _ := ⟨1970, 1, 1, 0, 0, 0, 0⟩

/-- The model of the provider. -/
def model : ModelDescriptor where
  name := "gpt-4o"
  providerName := "local"
  kind := .local
  capabilities := .single .general
  contextLength := 8192

/-- A request that names no model. -/
def request : Request where
  id := ⟨"rehearsal", by decide +kernel⟩
  kind := .chat
  content := "hello"

/-- An orchestrator to which nothing was submitted. -/
def start (failure : Option ProviderFailure) : Orchestrator :=
  new (setup failure) (.transient {}) .empty

end Rehearsal

/-- The response to a rehearsed request comes from the scripted provider. -/
theorem comesFrom_of_rehearsal :
    (Rehearsal.setup none).selectModel Rehearsal.request = .ok Rehearsal.model ∧
      let o := (Rehearsal.start none).after [.submit Rehearsal.request]
      ∃ response, (o.await [1]).response? 1 = some response ∧
        (Rehearsal.setup none).ComesFrom Rehearsal.request Rehearsal.model (Rehearsal.script none)
          ((o.await [1]).board.journal.callsOf 1) response := by
  have hlisted : ∀ s ∈ [Rehearsal.script none], ∀ m ∈ s.listed, m.providerName = s.name := by
    simp [Rehearsal.script, ProviderScript.listed, ProviderScript.describe]
  have hno : ∀ a : Action, a ≠ .submit Rehearsal.request →
      ∀ before, ¬ before ++ [a] <+: [.submit Rehearsal.request] := by
    rintro a ha before ⟨rest, h⟩
    cases before <;> simp_all
  obtain ⟨s, hs, -, -, -, hend⟩ := agreement [Rehearsal.script none] (Rehearsal.setup none)
    (.transient {}) .empty [.submit Rehearsal.request] [] Rehearsal.request 1 Rehearsal.model rfl
    hlisted ⟨List.prefix_refl _, rfl⟩ (fun before id h => hno (.cancel id) nofun before h.comes)
    (fun ⟨before, h, _⟩ => hno (.drop 1) nofun before h) rfl
  obtain rfl := List.mem_singleton.mp hs
  exact ⟨rfl, hend⟩

/-- A provider that is told to fail as if it did not know the model fails so for a model that it
lists. -/
theorem unknownModel_of_rehearsal :
    let failure := ProviderFailure.unknownModel "gpt-4o"
    (Rehearsal.setup (some failure)).selectModel Rehearsal.request = .ok Rehearsal.model ∧
      (Rehearsal.script (some failure)).listed = [Rehearsal.model] ∧
      Rehearsal.model.providerName = (Rehearsal.script (some failure)).name ∧
      ∃ response,
        ((Rehearsal.start (some failure)).execute Rehearsal.request).1 = .ok (some response) ∧
        response.error = some (failure.toRequestFailure "local").message :=
  ⟨rfl, rfl, rfl, _, rfl, rfl⟩

end Orchestrator

end Switchboard
