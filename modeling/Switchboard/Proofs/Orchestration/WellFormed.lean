import Switchboard.Proofs.Orchestration.Ledger
import Switchboard.Proofs.Orchestration.Lifecycle

/-!
# Responses are well formed

A response is put together where an execution ends, be it with an answer, a failure or a
cancellation. Wherever that is, the response lists the tools that were run, it has a text exactly if
it has no error, and it names the model exactly if there was one to choose (`wellFormed_responses`).
-/

namespace Switchboard

/-- The tools that one execution ran, each with its arguments. -/
def Journal.runsOf (j : Journal) (generation : Nat) : List (String × Json) :=
  (j.deedsOf generation).filterMap Deed.toolCall?

namespace Setup

variable {s : Setup} {r : Request} {deeds : List Deed} {cancelled : Bool} {response : Response}

/-! ## What a response lists -/

/-- The records of a response are those of the tools that were run for the request, in order. There
are none if and only if none was run. -/
structure ListsTools (s : Setup) (r : Request) (runs : List (String × Json))
    (results : Option (List ToolRecord)) : Prop where
  eq_none_iff : results = none ↔ runs = []
  ne_some_nil : results ≠ some []
  leaves : ∀ records ∈ results,
    runs = (s.toolsFor r).map (fun tool => (tool.name, toolArguments r)) ∧
      List.Forall₂ (fun tool record => tool.Leaves (s.toolContext r) (toolArguments r) record)
        (s.toolsFor r) records

/-- A response for a request for which an execution ran some tools and made some calls is well
formed. -/
structure WellFormed (s : Setup) (r : Request) (runs : List (String × Json))
    (calls : List (String × ModelCall)) (response : Response) : Prop where
  requestId_eq : response.requestId = r.id
  tools : s.ListsTools r runs response.toolResults
  success : response.error = none → ∃ p ∈ s.models.providers, ∃ call output,
    calls = [(p.name, call)] ∧ p.answer call = .ok output ∧
      response.content = output.content ++ (match response.toolResults with
        | none => ""
        | some records =>
          "\n\nTool results:\n" ++ "\n".intercalate (records.map ToolRecord.summary)) ∧
      response.metadata.tokenCount =
        output.tokenCount.getD (Text.words output.content.toList).length
  failure : response.error ≠ none → response.content = "" ∧ response.metadata.tokenCount = 0
  names : response.metadata.modelName = none ↔ response.metadata.providerName = none
  unnamed : response.metadata.modelName = none ↔ ∃ f, s.selectModel r = .error f

theorem listsTools_nil (model : Option ModelDescriptor) :
    s.ListsTools r [] (Account.toolResults ⟨model, []⟩) :=
  ⟨by simp [Account.toolResults], by simp [Account.toolResults], by simp [Account.toolResults]⟩

/-- The tools that ran are the ones that are listed. -/
theorem HasRun.listsTools {records : List ToolRecord} (h : s.HasRun r deeds records)
    (model : Option ModelDescriptor) :
    s.ListsTools r (deeds.filterMap Deed.toolCall?) (Account.toolResults ⟨model, records⟩) := by
  have hnil : records = [] ↔ deeds.filterMap Deed.toolCall? = [] := by
    rw [h.runs_eq, List.map_eq_nil_iff, ← List.length_eq_zero_iff, ← h.leaves.length_eq,
      List.length_eq_zero_iff]
  refine ⟨?_, ?_, ?_⟩
  · simp [Account.toolResults, hnil]
  · simp [Account.toolResults]
  · simp only [Account.toolResults, List.isEmpty_iff]
    split
    case isTrue => simp
    case isFalse => simpa using ⟨h.runs_eq, h.leaves⟩

/-- A response of failure is well formed. -/
theorem wellFormed_failure {account : Account} {runs : List (String × Json)}
    {calls : List (String × ModelCall)} (f : RequestFailure) (millis : Nat)
    (htools : s.ListsTools r runs account.toolResults)
    (hmodel : account.model = none ↔ ∃ f, s.selectModel r = .error f) :
    s.WellFormed r runs calls (account.failure r.id f.message millis) where
  requestId_eq := rfl
  tools := htools
  success h := by simp [Account.failure, Response.failure] at h
  failure _ := ⟨rfl, rfl⟩
  names := by simp [Account.failure, Response.failure, Account.metadata]
  unnamed := by simpa [Account.failure, Response.failure, Account.metadata] using hmodel

/-- A response with an answer is well formed. -/
theorem wellFormed_success {account : Account} {runs : List (String × Json)} {p : Provider}
    {call : ModelCall} {output : ModelOutput} (millis : Nat)
    (htools : s.ListsTools r runs account.toolResults)
    (hmodel : account.model = none ↔ ∃ f, s.selectModel r = .error f)
    (hp : p ∈ s.models.providers) (houtput : p.answer call = .ok output) :
    s.WellFormed r runs [(p.name, call)]
      (account.success r.id (account.answer output) millis) where
  requestId_eq := rfl
  tools := htools
  success _ := by
    refine ⟨p, hp, call, output, rfl, houtput, ?_, rfl⟩
    simp only [Account.success, Account.answer, Account.toolSection, Account.toolResults]
    split <;> rfl
  failure h := absurd rfl h
  names := by simp [Account.success, Account.metadata]
  unnamed := by simpa [Account.success, Account.metadata] using hmodel

/-- A response that tells what was done is well formed. -/
theorem Tells.wellFormed (h : s.Tells r cancelled deeds response) :
    s.WellFormed r (deeds.filterMap Deed.toolCall?) (deeds.filterMap Deed.modelCall?)
      response := by
  cases h with
  | unselected hf hruns hcalls millis =>
    rw [hruns]
    exact wellFormed_failure _ millis (listsTools_nil none) (by simp [hf])
  | uncalled hmodel hrun hcalls hf millis =>
    exact wellFormed_failure _ millis (hrun.listsTools _) (by simp [hmodel])
  | unanswered hrun hasked hf millis =>
    exact wellFormed_failure _ millis (hrun.listsTools _) (by simp [hasked.model_eq])
  | answered hrun hasked houtput millis =>
    rw [hasked.calls_eq]
    exact wellFormed_success millis (hrun.listsTools _) (by simp [hasked.model_eq])
      (List.mem_of_find?_eq_some hasked.provider_eq) houtput

end Setup

namespace Orchestrator

variable {setup : Setup} {memory : Memory} {files : FileSystem} {as before : List Action}

/-- A response tells what its execution has done. -/
theorem tells_of_response? {r : Request} {g : Nat} {response : Response}
    (hadmitted : (new setup memory files).Answered as before (.submit r) (.admitted g))
    (hresponse : ((new setup memory files).after as).response? g = some response) :
    ∃ e ∈ ((new setup memory files).after as).executions, e.generation = g ∧ e.request = r ∧
      setup.Tells r e.cancelled (((new setup memory files).after as).board.journal.deedsOf g)
        response := by
  obtain ⟨e, he, rfl, rfl⟩ := exists_execution_of_admitted hadmitted
  have hledger := shows_after (Ticket.kept_ledger setup) memory files as e he
  rw [(consistent_after.response?_eq_some_iff he).mp hresponse] at hledger
  exact ⟨e, he, rfl, rfl, hledger⟩

/-- Every response of a run is well formed, and so is the response to which the execution of a
request comes that is admitted after it. -/
theorem wellFormed_responses (setup : Setup) (memory : Memory) (files : FileSystem)
    (as : List Action) :
    let start := new setup memory files
    let o := start.after as
    (∀ before r g response, start.Answered as before (.submit r) (.admitted g) →
      o.response? g = some response →
        setup.WellFormed r (o.board.journal.runsOf g) (o.board.journal.callsOf g) response) ∧
    ∀ r g, (o.perform (.submit r)).1 = .admitted g →
      ∃ response, (o.execute r).1 = .ok (some response) ∧
        setup.WellFormed r ((o.execute r).2.board.journal.runsOf g)
          ((o.execute r).2.board.journal.callsOf g) response := by
  intro start o
  have hwell : ∀ as before r g response, start.Answered as before (.submit r) (.admitted g) →
      (start.after as).response? g = some response →
        setup.WellFormed r ((start.after as).board.journal.runsOf g)
          ((start.after as).board.journal.callsOf g) response := by
    intro as before r g response hadmitted hresponse
    obtain ⟨_, -, -, -, htells⟩ := tells_of_response? hadmitted hresponse
    exact htells.wellFormed
  refine ⟨hwell as, fun r g hg => ?_⟩
  obtain ⟨bs, response, -, hexecute, hresponse⟩ := execute_of_admitted hg
  rw [hexecute]
  exact ⟨response, rfl, hwell _ as r g response
    ⟨⟨bs, (List.append_cons ..).symm⟩, hg⟩ hresponse⟩

end Orchestrator

end Switchboard
