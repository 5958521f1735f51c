import Switchboard.Proofs.Orchestration.Verdict

/-!
# Failures of tools and memory

What the tools do and what becomes of the memory shows in a response only as the section on tools
below the text of the model (`Response.Agrees`). Two runs over the same scripted providers and the
same configuration, with any tools, limits of tools, memories and files, tell the same verdict to
every request that they admit (`absorption`).

Tools do have a say in whether a request is admitted: as long as a slow tool keeps an execution
going, another request of its identifier is rejected (`rejected_of_slowTool`).
-/

namespace Switchboard

namespace Response

/-- What the tools did, as it stands below the text of the model. -/
def toolSection (response : Response) : String :=
  Account.toolSection ⟨none, response.toolResults.getD []⟩

/-- Two responses tell the same, apart from what the tools did and how long it took. -/
structure Agrees (r₁ r₂ : Response) : Prop where
  requestId_eq : r₁.requestId = r₂.requestId
  error_eq : r₁.error = r₂.error
  modelName_eq : r₁.metadata.modelName = r₂.metadata.modelName
  providerName_eq : r₁.metadata.providerName = r₂.metadata.providerName
  tokenCount_eq : r₁.metadata.tokenCount = r₂.metadata.tokenCount
  content : r₁.error = none →
    ∃ text, r₁.content = text ++ r₁.toolSection ∧ r₂.content = text ++ r₂.toolSection

end Response

theorem Account.getD_toolResults (a : Account) : a.toolResults.getD [] = a.records := by
  unfold toolResults
  split <;> simp_all

/-- The verdict is all that responses tell that agree. -/
theorem Setup.agrees_respond {s₁ s₂ : Setup} {r : Request}
    (hmodel : s₁.selectModel r = s₂.selectModel r) (hverdict : s₁.verdict r = s₂.verdict r)
    (records₁ records₂ : List ToolRecord) (millis₁ millis₂ : Nat) :
    (s₁.respond r records₁ millis₁).Agrees (s₂.respond r records₂ millis₂) := by
  cases hv : s₂.verdict r with
  | error f =>
    rw [respond_of_error (hverdict.trans hv), respond_of_error hv, hmodel]
    exact ⟨rfl, rfl, rfl, rfl, rfl, nofun⟩
  | ok output =>
    rw [respond_of_ok (hverdict.trans hv), respond_of_ok hv, hmodel]
    refine ⟨rfl, rfl, rfl, rfl, rfl, fun _ => ⟨output.content, ?_, ?_⟩⟩
    all_goals
      simp only [Response.toolSection, Account.success, Account.getD_toolResults]
      rfl

/-- What surrounds the calls of models: tools and their limits, memory and files. -/
structure Surroundings where
  tools : ToolRegistry := {}
  toolTimeout : Nat := 30000
  enabledTools : Option (List String) := none
  memory : Memory
  files : FileSystem

namespace Surroundings

/-- The setup with the tools and their limits. -/
def setup (w : Surroundings) (config : Config) (providers : List ProviderScript)
    (clock : Nat → Timestamp) : Setup where
  config := { config with toolTimeout := w.toolTimeout, enabledTools := w.enabledTools }
  models := ⟨providers.map ProviderScript.toProvider⟩
  tools := w.tools
  clock

/-- The orchestrator in its surroundings. -/
def start (w : Surroundings) (config : Config) (providers : List ProviderScript)
    (clock : Nat → Timestamp) : Orchestrator :=
  .new (w.setup config providers clock) w.memory w.files

variable {w : Surroundings} {config : Config} {providers : List ProviderScript}
  {clock : Nat → Timestamp}

theorem isPlain_of_mem : ∀ p ∈ (w.setup config providers clock).models.providers, p.IsPlain := by
  intro p hp
  obtain ⟨script, -, rfl⟩ := List.mem_map.mp hp
  exact script.isPlain_toProvider

theorem selectModel_eq (w₁ w₂ : Surroundings) (r : Request) :
    (w₁.setup config providers clock).selectModel r =
      (w₂.setup config providers clock).selectModel r :=
  rfl

/-- The verdict on a request is the same in all surroundings. -/
theorem verdict_eq (w₁ w₂ : Surroundings) (r : Request) :
    (w₁.setup config providers clock).verdict r = (w₂.setup config providers clock).verdict r :=
  rfl

theorem stateFor_eq (w₁ w₂ : Surroundings) (r : Request) :
    (w₁.setup config providers clock).stateFor r = (w₂.setup config providers clock).stateFor r :=
  rfl

end Surroundings

namespace Orchestrator

variable {o : Orchestrator} {as before : List Action} {r : Request} {g : Nat}

/-! ## Requests that are spared -/

/-- The steps are on time, they admit the request with the generation `g`, and neither cancel its
execution nor give it up. -/
structure Spares (o : Orchestrator) (as : List Action) (r : Request) (g : Nat) : Prop where
  onTime : o.OnTime as
  admitted : ∃ before, o.Answered as before (.submit r) (.admitted g)
  uncancelled : ∀ before id, ¬ o.Answered as before (.cancel id) (.cancelled (some g))
  kept : ¬ o.GivenUp as g

/-- A request is executed by submitting it and waiting for its execution. -/
theorem execute_eq_await {o' : Orchestrator} (h : o.submit r = (.ok g, o')) :
    o.execute r = (.ok ((o'.await [g]).response? g), o'.await [g]) := by
  simp [execute, h, Except.map, Except.toOption]

section New

variable {setup : Setup} {memory : Memory} {files : FileSystem}

/-- A request that has just been admitted is spared so far. -/
theorem spares_of_admitted (hontime : (new setup memory files).OnTime as)
    (hg : (((new setup memory files).after as).perform (.submit r)).1 = .admitted g) :
    (new setup memory files).Spares (as ++ [.submit r]) r g := by
  obtain ⟨e, -, rfl, -, hbegins⟩ := consistent_after.exists_begins hg
  -- No execution before had the generation that is given out.
  have hnew : ∀ before, before <+: as →
      ∀ x ∈ ((new setup memory files).after before).executions, x.generation ≠ e.generation := by
    rintro before ⟨rest, rfl⟩ x hx heq
    obtain ⟨y, hy, hcontinues⟩ := consistent_after.exists_continues hx rest
    rw [← after_append] at hy
    have hlt := hbegins.newest y hy
    have hgeneration := hcontinues.generation_eq
    omega
  refine ⟨onTime_concat.mpr ⟨hontime, trivial⟩, ⟨as, List.prefix_refl _, hg⟩, ?_, ?_⟩
  · rintro before id ⟨hcomes, hreply⟩
    rcases List.prefix_concat_iff.mp hcomes with heq | hcomes
    · simpa using (List.append_inj' heq rfl).2
    · have hcancel : (((new setup memory files).after before).cancel id).1 =
          some e.generation := by simpa using hreply
      obtain ⟨x, hx, -, -, hgx⟩ := consistent_after.fst_cancel_eq_some_iff.mp hcancel
      exact hnew before ((List.prefix_append ..).trans hcomes) x hx hgx
  · rintro ⟨before, hcomes, x, hx, hgx, -⟩
    rcases List.prefix_concat_iff.mp hcomes with heq | hcomes
    · simpa using (List.append_inj' heq rfl).2
    · exact hnew before ((List.prefix_append ..).trans hcomes) x hx hgx

end New

/-- A request whose identifier is not in flight is admitted. -/
theorem Consistent.submit_of_free (h : o.Consistent)
    (hfree : o.board.inFlight.generation? r.id = none) :
    ∃ g, (o.perform (.submit r)).1 = .admitted g := by
  cases hr : o.board.inFlight.register r.id with
  | error f =>
    obtain ⟨-, g, hg⟩ := InFlight.register_eq_error_iff.mp hr
    exact absurd hg (InFlight.generation?_eq_none_iff.mp hfree g)
  | ok taken => exact ⟨taken.1, by rw [h.perform_submit_of_ok hr]⟩

/-! ## Two runs -/

/-- In two orchestrators the executions of a request have ended with responses that agree, and in
the same state. -/
structure TellAlike (o₁ o₂ : Orchestrator) (id : RequestId) (g₁ g₂ : Nat) (r₁ r₂ : Response) :
    Prop where
  response₁ : o₁.response? g₁ = some r₁
  response₂ : o₂.response? g₂ = some r₂
  agrees : r₁.Agrees r₂
  ended : ∃ state, ∀ state',
    (.requestEnded id state' ∈ o₁.board.journal.eventsOf g₁ ↔ state' = state) ∧
    (.requestEnded id state' ∈ o₂.board.journal.eventsOf g₂ ↔ state' = state)

section Runs

variable {config : Config} {providers : List ProviderScript} {clock : Nat → Timestamp}
  {w w₁ w₂ : Surroundings} {as₁ as₂ : List Action} {g₁ g₂ : Nat}

/-- Two runs that spare a request tell the same to those who wait for it. -/
theorem exists_tellAlike (h₁ : (w₁.start config providers clock).Spares as₁ r g₁)
    (h₂ : (w₂.start config providers clock).Spares as₂ r g₂) :
    ∃ r₁ r₂, TellAlike (((w₁.start config providers clock).after as₁).await [g₁])
      (((w₂.start config providers clock).after as₂).await [g₂]) r.id g₁ g₂ r₁ r₂ := by
  obtain ⟨before₁, hadmitted₁⟩ := h₁.admitted
  obtain ⟨before₂, hadmitted₂⟩ := h₂.admitted
  obtain ⟨records₁, millis₁, hresponse₁, hended₁⟩ :=
    exists_response Surroundings.isPlain_of_mem h₁.onTime hadmitted₁ h₁.uncancelled h₁.kept
  obtain ⟨records₂, millis₂, hresponse₂, hended₂⟩ :=
    exists_response Surroundings.isPlain_of_mem h₂.onTime hadmitted₂ h₂.uncancelled h₂.kept
  refine ⟨_, _, hresponse₁, hresponse₂, Setup.agrees_respond
    (Surroundings.selectModel_eq w₁ w₂ r) (Surroundings.verdict_eq w₁ w₂ r) .., _,
    fun state => ⟨hended₁ state, ?_⟩⟩
  rw [Surroundings.stateFor_eq w₁ w₂ r]
  exact hended₂ state

/-- After a scenario a request whose identifier is not in flight is admitted and spared. -/
theorem exists_spares_play (commands : List Command)
    (hfree : ((w.start config providers clock).play commands).2.board.inFlight.generation? r.id =
      none) :
    ∃ as g, (w.start config providers clock).Spares as r g ∧
      ((w.start config providers clock).play commands).2.submit r =
        (.ok g, (w.start config providers clock).after as) := by
  obtain ⟨as, hontime, heq⟩ :=
    Punctual.exists_play (punctual_new _ _ _) (consistent_new ..) commands
  rw [Surroundings.start, heq] at hfree ⊢
  obtain ⟨g, hg⟩ := consistent_after.submit_of_free hfree
  refine ⟨as ++ [.submit r], g, spares_of_admitted hontime hg, ?_⟩
  rw [after_concat, submit_of_admitted hg]

/-- A request whose identifier is in flight is a duplicate. -/
theorem execute_of_generation? (hg : o.board.inFlight.generation? r.id = some g) :
    (o.execute r).1 = .error (.duplicate r.id) := by
  have hr : o.board.inFlight.register r.id = .error (.duplicate r.id) := by
    simp [InFlight.register, hg]
  rw [execute_of_error hr]

/-- Over the same scripted providers and the same configuration, whatever the tools and their
limits, the memory and the files: after the same scenario, a request whose identifier is not in
flight is executed in both runs with responses that agree, and ends in the same state; a request
whose identifier is in flight is rejected. However the executions interleave, all that is told on
time of a request that is neither cancelled nor given up agrees. -/
theorem absorption (config : Config) (providers : List ProviderScript) (clock : Nat → Timestamp)
    (w₁ w₂ : Surroundings) (r : Request) :
    let start₁ := w₁.start config providers clock
    let start₂ := w₂.start config providers clock
    (∀ commands,
      let o₁ := (start₁.play commands).2
      let o₂ := (start₂.play commands).2
      (∀ g, o₁.board.inFlight.generation? r.id = some g →
        (o₁.execute r).1 = .error (.duplicate r.id)) ∧
      (o₁.board.inFlight.generation? r.id = none → o₂.board.inFlight.generation? r.id = none →
        ∃ g₁ g₂ r₁ r₂, (o₁.submit r).1 = .ok g₁ ∧ (o₂.submit r).1 = .ok g₂ ∧
          (o₁.execute r).1 = .ok (some r₁) ∧ (o₂.execute r).1 = .ok (some r₂) ∧
          TellAlike (o₁.execute r).2 (o₂.execute r).2 r.id g₁ g₂ r₁ r₂)) ∧
    ∀ as₁ as₂ g₁ g₂, start₁.Spares as₁ r g₁ → start₂.Spares as₂ r g₂ →
      ∃ r₁ r₂, TellAlike ((start₁.after as₁).await [g₁]) ((start₂.after as₂).await [g₂]) r.id
        g₁ g₂ r₁ r₂ := by
  intro start₁ start₂
  refine ⟨fun commands => ⟨fun g hg => execute_of_generation? hg, fun hfree₁ hfree₂ => ?_⟩,
    fun as₁ as₂ g₁ g₂ h₁ h₂ => exists_tellAlike h₁ h₂⟩
  obtain ⟨as₁, g₁, hspares₁, hsubmit₁⟩ := exists_spares_play commands hfree₁
  obtain ⟨as₂, g₂, hspares₂, hsubmit₂⟩ := exists_spares_play commands hfree₂
  obtain ⟨r₁, r₂, htell⟩ := exists_tellAlike hspares₁ hspares₂
  refine ⟨g₁, g₂, r₁, r₂, ?_, ?_, ?_, ?_, ?_⟩
  · rw [hsubmit₁]
  · rw [hsubmit₂]
  · rw [execute_eq_await hsubmit₁, htell.response₁]
  · rw [execute_eq_await hsubmit₂, htell.response₂]
  · rw [execute_eq_await hsubmit₁, execute_eq_await hsubmit₂]
    exact htell

end Runs

/-! ## A slow tool -/

namespace Lingering

/-- The configuration, in which nothing is said. -/
def config : Config where
  workingDirectory := ""

/-- One provider with one model. -/
def providers : List ProviderScript :=
  [{ name := "local", models := [.general "gpt-4o"] }]

/-- A clock that stands still. -/
def clock (_ : Nat) : Timestamp :=
  ⟨1970, 1, 1, 0, 0, 0, 0⟩

/-- A tool that takes 50 milliseconds. -/
def tool : ToolScript where
  name := "slow"
  capabilities := [.general]
  delay := 50

/-- Surroundings with the tool. -/
def slow : Surroundings where
  tools := ⟨[tool.toTool], none, .default⟩
  memory := .scripted {} {}
  files := .empty

/-- Surroundings without tools. -/
def bare : Surroundings where
  memory := .scripted {} {}
  files := .empty

/-- The request that is sent twice. -/
def request : Request where
  id := ⟨"twice", by decide +kernel⟩
  kind := .chat
  content := "hello"

/-- The request has been submitted a while ago. -/
def commands : List Command :=
  [.submit request, .wait 10]

end Lingering

open Lingering in
/-- With a slow tool a request that is executed again is rejected, without it is executed. -/
theorem rejected_of_slowTool :
    (((slow.start config providers clock).play commands).2.execute request).1 =
        .error (.duplicate request.id) ∧
      ∃ response, (((bare.start config providers clock).play commands).2.execute request).1 =
        .ok (some response) :=
  ⟨rfl, _, rfl⟩

end Orchestrator

end Switchboard
