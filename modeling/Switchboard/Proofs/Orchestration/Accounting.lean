import Switchboard.Proofs.Orchestration.Absorption
import Switchboard.Proofs.Tool.Waits

/-!
# Where the time goes

An execution on time waits to learn which models there are, then for the tools while the memory is
read, then for the model, and then for the exchange to be written. No time is lost between these
(`Setup.OnClock`), so the duration that a response tells is the sum of the waits (`accounting`),
whatever other executions do meanwhile.

A memory that does not wait has no share in that. One that does makes responses late
(`late_of_slowMemory`).
-/

namespace Switchboard

namespace Setup

variable {s : Setup} {script : MemoryScript} {r : Request} {model : ModelDescriptor}

/-- The tools that are run for a request, and how long each is waited for; none without a model. -/
def toolWaits (s : Setup) (r : Request) : List (String × Nat) :=
  match s.selectModel r with
  | .ok _ => (s.toolsFor r).map fun tool =>
    (tool.name, tool.wait (s.toolContext r) (toolArguments r))
  | .error _ => []

/-- How long the model is waited for, if there is one and its provider is registered. -/
def modelWait (s : Setup) (r : Request) : Nat :=
  match s.selectModel r with
  | .ok model =>
    match s.models.provider? model.providerName with
    | some p => min p.delay (s.callLimit r)
    | none => 0
  | .error _ => 0

/-- How long it takes to read the memory, which is not read without a model. -/
def readWait (s : Setup) (script : MemoryScript) (r : Request) : Nat :=
  match s.selectModel r with
  | .ok _ => script.readDelay
  | .error _ => 0

/-- How long it is waited for an exchange to be written. -/
def saveWait (s : Setup) (script : MemoryScript) : Nat :=
  min script.appendDelay s.config.persistTimeout

/-- How long it takes to gather what the model is told; tools are run while the memory is read. -/
def gatherWait (s : Setup) (script : MemoryScript) (r : Request) : Nat :=
  max (s.readWait script r) ((s.toolWaits r).map Prod.snd).sum

/-- How long the execution of a request waits in all, with an exchange to write or without. -/
def totalWait (s : Setup) (script : MemoryScript) (r : Request) (saves : Bool) : Nat :=
  s.models.listingDelay + s.gatherWait script r + s.modelWait r +
    if saves then s.saveWait script else 0

theorem toolWaits_of_ok (h : s.selectModel r = .ok model) :
    s.toolWaits r = (s.toolsFor r).map fun tool =>
      (tool.name, tool.wait (s.toolContext r) (toolArguments r)) := by
  rw [toolWaits, h]

theorem gatherWait_of_ok (h : s.selectModel r = .ok model) :
    s.gatherWait script r = max script.readDelay
      (Tool.totalWait (s.toolsFor r) (s.toolContext r) (toolArguments r)) := by
  simp [gatherWait, readWait, toolWaits, h, Tool.totalWait, Function.comp_def]

/-- A model is waited for until it answers or the limit is reached. -/
theorem modelWait_of_some {p : Provider} (h : s.selectModel r = .ok model)
    (hp : s.models.provider? model.providerName = some p) :
    s.modelWait r = min p.delay (s.callLimit r) := by
  simp [modelWait, h, hp]

theorem modelWait_of_none (h : s.selectModel r = .ok model)
    (hp : s.models.provider? model.providerName = none) : s.modelWait r = 0 := by
  simp [modelWait, h, hp]

theorem totalWait_false :
    s.totalWait script r false = s.models.listingDelay + s.gatherWait script r + s.modelWait r :=
  rfl

theorem totalWait_true :
    s.totalWait script r true = s.totalWait script r false + s.saveWait script :=
  rfl

end Setup

/-- The tools that were run, and how long each took. -/
def ToolRecord.waits (records : List ToolRecord) : List (String × Nat) :=
  records.map fun record => (record.toolName, record.durationMillis)

namespace Response

/-- How long the tools took. -/
def toolMillis (response : Response) : Nat :=
  (response.records.map (·.durationMillis)).sum

@[simp] theorem records_failure (account : Account) (id : RequestId) (error : String)
    (millis : Nat) : (account.failure id error millis).records = account.records :=
  account.getD_toolResults

@[simp] theorem records_success (account : Account) (id : RequestId) (answer : Answer)
    (millis : Nat) : (account.success id answer millis).records = account.records :=
  account.getD_toolResults

theorem toolMillis_eq (response : Response) :
    response.toolMillis = ((ToolRecord.waits response.records).map Prod.snd).sum := by
  simp [toolMillis, ToolRecord.waits, Function.comp_def]

end Response

namespace Setup

variable {s : Setup} {script : MemoryScript} {r : Request} {model : ModelDescriptor}

/-- A response accounts for the time that an execution took: its records tell how long each tool was
waited for, and an execution that is spared has taken as long as it took to learn which models there
are, to run the tools while the memory was read, to wait for the model, and to write the exchange if
there was an answer. An execution that is not spared has not taken longer. -/
structure Accounts (s : Setup) (script : MemoryScript) (r : Request) (spared : Prop)
    (response : Response) : Prop where
  tools : ToolRecord.waits response.records = s.toolWaits r
  duration_eq : spared → response.metadata.durationMillis =
    s.models.listingDelay + max (s.readWait script r) response.toolMillis + s.modelWait r +
      if response.error = none then s.saveWait script else 0
  duration_le : response.metadata.durationMillis ≤
    s.models.listingDelay + max (s.readWait script r) response.toolMillis + s.modelWait r +
      s.saveWait script

/-- A response accounts for the time exactly if it says the whole wait when spared, and never more.
-/
theorem accounts_iff {spared : Prop} {response : Response}
    (htools : ToolRecord.waits response.records = s.toolWaits r) :
    s.Accounts script r spared response ↔
      (spared → response.metadata.durationMillis =
        s.totalWait script r response.error.isNone) ∧
      response.metadata.durationMillis ≤ s.totalWait script r true := by
  have hgather : s.gatherWait script r = max (s.readWait script r) response.toolMillis := by
    rw [gatherWait, response.toolMillis_eq, htools]
  simp only [totalWait, hgather, Option.isNone_iff_eq_none, if_true]
  exact ⟨fun h => ⟨h.duration_eq, h.duration_le⟩, fun h => ⟨htools, h.1, h.2⟩⟩

/-- What a phase holds at an instant is in step with the waits so far, and the instant for which the
execution waits has not passed. -/
def OnClock (s : Setup) (script : MemoryScript) (t : Ticket) (now : Nat) : Phase → Prop
  | .selecting due => due = t.startedAt + s.models.listingDelay ∧ now ≤ due
  | .gathering model readDue known tools =>
    s.selectModel t.request = .ok model ∧
      now ≤ t.startedAt + s.models.listingDelay + s.gatherWait script t.request ∧
      readDue = t.startedAt + s.models.listingDelay + script.readDelay ∧
      (if known.isSome then readDue ≤ now else now ≤ readDue) ∧
      tools.RunsOnTime (s.toolContext t.request) (toolArguments t.request)
        (s.toolsFor t.request) (t.startedAt + s.models.listingDelay) now
  | .calling account pending =>
    ToolRecord.waits account.records = s.toolWaits t.request ∧
      pending.timed.wake = t.startedAt + s.totalWait script t.request false ∧
      now ≤ pending.timed.wake
  | .saving account _ write =>
    ToolRecord.waits account.records = s.toolWaits t.request ∧
      write.wake = t.startedAt + s.totalWait script t.request true ∧ now ≤ write.wake
  | .ended response => s.Accounts script t.request (t.cancelled = false) response
  | .dropped => True

end Setup

namespace Phase

variable {model : ModelDescriptor} {readDue later : Nat} {known : Option Recollection}
  {tools : Dispatch}

/-- What is gathered wakes when the memory is read or a tool is done, whichever is first. -/
theorem le_of_wake_gathering
    (h : ∀ i, (gathering model readDue known tools).wake = some i → later ≤ i) :
    (known = none → later ≤ readDue) ∧ ∀ i, tools.wake = some i → later ≤ i := by
  have hle : ∀ i ∈ (if known.isNone then [readDue] else []) ++ tools.wake.toList, later ≤ i := by
    intro i hi
    obtain ⟨first, hfirst⟩ := Option.isSome_iff_exists.mp (List.isSome_min?_of_mem hi)
    exact (h first hfirst).trans ((List.min?_eq_some_iff.mp hfirst).2 i hi)
  refine ⟨?_, fun i hi => hle i (by simp [hi])⟩
  rintro rfl
  exact hle readDue (by simp)

/-- What is gathered rests as long as something is waited for. -/
theorem rests_gathering_iff :
    (gathering model readDue known tools).Rests ↔ known = none ∨ tools.isDone = false := by
  refine ⟨fun h => ?_, fun h => Or.inr (isSome_wake_gathering h)⟩
  cases known with
  | none => exact Or.inl rfl
  | some known =>
    cases hrunning : tools.running with
    | none => simp [Rests, isOver, wake, Dispatch.wake, hrunning] at h
    | some run => exact Or.inr (by simp [Dispatch.isDone, hrunning])

end Phase

namespace Ticket

variable {s : Setup} {script : MemoryScript} {t : Ticket} {b : Board} {account : Account}

/-! ## Moves -/

/-- A failure on time accounts for the time. -/
theorem accounts_fail (f : RequestFailure)
    (htools : ToolRecord.waits account.records = s.toolWaits t.request)
    (heq : t.cancelled = false → b.now = t.startedAt + s.totalWait script t.request false)
    (hle : b.now ≤ t.startedAt + s.totalWait script t.request true) :
    s.OnClock script t b.now (t.fail b account f).1 := by
  refine (Setup.accounts_iff (by simpa using htools)).mpr ⟨fun hc => ?_, ?_⟩
  · exact Nat.sub_eq_of_eq_add' (heq hc)
  · exact Nat.sub_le_iff_le_add'.mpr hle

/-- An end on time accounts for the time. -/
theorem accounts_settle (answer : Answer)
    (hholds : b.inFlight.holds t.request.id t.generation = !t.cancelled)
    (htools : ToolRecord.waits account.records = s.toolWaits t.request)
    (hnow : b.now = t.startedAt + s.totalWait script t.request true) :
    s.OnClock script t b.now (t.settle b account answer).1 := by
  unfold settle
  cases hc : t.cancelled with
  | true =>
    rw [if_neg (by simp [hholds, hc])]
    exact accounts_fail _ htools (by simp [hc]) hnow.le
  | false =>
    rw [if_pos (by simp [hholds, hc])]
    have hmillis : b.now - t.startedAt = s.totalWait script t.request true :=
      Nat.sub_eq_of_eq_add' hnow
    exact (Setup.accounts_iff (by simpa using htools)).mpr ⟨fun _ => hmillis, hmillis.le⟩

/-- What is gathered on time is there when the memory has been read and the tools are done, and no
later. -/
theorem gathered_of_onClock {now readDue : Nat} {model : ModelDescriptor} {known : Recollection}
    {tools : Dispatch} (h : s.OnClock script t now (.gathering model readDue (some known) tools))
    (hdone : tools.isDone = true) :
    ToolRecord.waits tools.records = s.toolWaits t.request ∧
      now = t.startedAt + s.models.listingDelay + s.gatherWait script t.request := by
  obtain ⟨hmodel, hnow, rfl, hknown, htools⟩ := h
  obtain ⟨hrecords, hover⟩ := htools.of_isDone hdone
  refine ⟨hrecords.trans (Setup.toolWaits_of_ok hmodel).symm, Nat.le_antisymm hnow ?_⟩
  rw [Setup.gatherWait_of_ok hmodel]
  simp only [Option.isSome_some, if_true] at hknown
  omega

/-- A move keeps an execution in step with its waits. -/
theorem Move.onClock {x y : Phase × Board} (h : Move s t x y)
    (hscript : x.2.memory.script = script)
    (hholds : x.2.inFlight.holds t.request.id t.generation = !t.cancelled)
    (hx : s.OnClock script t x.2.now x.1) : s.OnClock script t y.2.now y.1 := by
  rw [h.now_and_script.1]
  cases h with
  | @select due b model hdue hmodel =>
    obtain ⟨rfl, hnow⟩ := hx
    have hnow : b.now = t.startedAt + s.models.listingDelay := Nat.le_antisymm hnow hdue
    have hread : b.memory.readDelay = script.readDelay := congrArg MemoryScript.readDelay hscript
    refine ⟨hmodel, ?_, by rw [hnow, hread], ?_, ?_⟩
    · exact hnow ▸ Nat.le_add_right _ _
    · exact Nat.le_add_right _ _
    · rw [← hnow]
      exact Dispatch.runsOnTime_start ..
  | @unselected due b f hdue hf =>
    obtain ⟨rfl, hnow⟩ := hx
    have htotal : s.totalWait script t.request false = s.models.listingDelay := by
      simp [Setup.totalWait, Setup.gatherWait, Setup.readWait, Setup.toolWaits, Setup.modelWait, hf]
    have hnow : b.now = t.startedAt + s.totalWait script t.request false :=
      htotal ▸ Nat.le_antisymm hnow hdue
    refine accounts_fail f (by simp [ToolRecord.waits, Setup.toolWaits, hf]) (fun _ => hnow) ?_
    rw [hnow, Setup.totalWait_true]
    omega
  | @gather model readDue known tools b =>
    obtain ⟨hmodel, hnow, hdue, hknown, htools⟩ := hx
    refine ⟨hmodel, hnow, hdue, ?_, htools.poll b.files⟩
    unfold recollect
    cases known with
    | some known => exact hknown
    | none =>
      by_cases hread : readDue ≤ b.now
      · simp [hread]
      · simpa [hread] using Nat.le_of_not_le hread
  | @uncalled model readDue known tools b f hdone hf =>
    obtain ⟨hrecords, hnow⟩ : _ ∧ b.now = _ := gathered_of_onClock hx hdone
    have hmodel : s.selectModel t.request = .ok model := hx.1
    refine accounts_fail f hrecords (fun hc => ?_) ?_
    · have hp : s.models.provider? model.providerName = none := by
        rcases ModelRegistry.beginCall_eq_error_iff.mp hf with ⟨hp, -⟩ | ⟨-, hc', -⟩
        · exact hp
        · simp [hc] at hc'
      rw [hnow, Setup.totalWait_false, Setup.modelWait_of_none hmodel hp]
      omega
    · rw [hnow, Setup.totalWait_true, Setup.totalWait_false]
      omega
  | @call model readDue known tools b pending hdone hpending =>
    obtain ⟨hrecords, hnow⟩ : _ ∧ b.now = _ := gathered_of_onClock hx hdone
    obtain ⟨p, hp, -, rfl⟩ := ModelRegistry.beginCall_eq_ok_iff.mp hpending
    have hwake : (Timed.start b.now p.delay (s.callLimit t.request)).wake =
        t.startedAt + s.totalWait script t.request false := by
      rw [Timed.wake_start, hnow, Setup.totalWait_false, Setup.modelWait_of_some hx.1 hp]
      omega
    exact ⟨hrecords, hwake, Timed.wake_start .. ▸ Nat.le_add_right _ _⟩
  | @unanswered account pending b f hf =>
    obtain ⟨hrecords, hwake, hnow⟩ : _ ∧ _ ∧ b.now ≤ pending.timed.wake := hx
    have hle : b.now ≤ t.startedAt + s.totalWait script t.request true := by
      rw [Setup.totalWait_true]
      omega
    refine accounts_fail f hrecords (fun hc => ?_) hle
    rw [hc] at hf
    exact (PendingCall.eq_wake_of_poll hnow hf).trans hwake
  | @answer account pending b output houtput =>
    obtain ⟨hrecords, hwake, hnow⟩ := hx
    rw [PendingCall.cancelled_eq_false_of_poll houtput] at houtput
    have hnow : b.now = pending.timed.wake := PendingCall.eq_wake_of_poll hnow houtput
    have hdelay : b.memory.writeDelay (t.exchange (account.answer output)) = script.appendDelay :=
      congrArg MemoryScript.appendDelay hscript
    refine ⟨hrecords, ?_, Timed.wake_start .. ▸ Nat.le_add_right _ _⟩
    rw [Timed.wake_start, hnow, hwake, hdelay, Setup.totalWait_true]
    exact Nat.add_assoc ..
  | @saved account answer write b hwrite =>
    obtain ⟨hrecords, hwake, hnow⟩ := hx
    have hnow : b.now = write.wake := Timed.eq_wake_of_progress hnow (by simp [hwrite])
    exact accounts_settle answer (by simpa using hholds) hrecords (hnow.trans hwake)
  | @unsaved account answer write b hwrite =>
    obtain ⟨hrecords, hwake, hnow⟩ := hx
    have hnow : b.now = write.wake := Timed.eq_wake_of_progress hnow (by simp [hwrite])
    exact accounts_settle answer hholds hrecords (hnow.trans hwake)

/-- An execution stays in step with its waits while time passes until it wakes. -/
theorem onClock_pass {now later : Nat} {phase : Phase} (hle : now ≤ later) (hrests : phase.Rests)
    (hwake : ∀ i, phase.wake = some i → later ≤ i) (h : s.OnClock script t now phase) :
    s.OnClock script t later phase := by
  cases phase with
  | selecting due => exact ⟨h.1, hwake due rfl⟩
  | gathering model readDue known tools =>
    obtain ⟨hmodel, -, rfl, hknown, htools⟩ := h
    obtain ⟨hread, hrun⟩ := Phase.le_of_wake_gathering hwake
    have htools := htools.pass hle hrun
    refine ⟨hmodel, ?_, rfl, ?_, htools⟩
    · rw [Setup.gatherWait_of_ok hmodel]
      cases known with
      | none =>
        have := hread rfl
        omega
      | some known =>
        have hdone := (Phase.rests_gathering_iff.mp hrests).resolve_left (by simp)
        have := htools.le_of_isDone_eq_false hdone
        omega
    · cases known with
      | none => exact hread rfl
      | some known => exact hknown.trans hle
  | calling account pending => exact ⟨h.1, h.2.1, hwake _ rfl⟩
  | saving account answer write => exact ⟨h.1, h.2.1, hwake _ rfl⟩
  | ended response => exact h
  | dropped => exact h

/-- Executions that are polled on time stay on the clock. -/
theorem keptOnTime_onClock (s : Setup) (script : MemoryScript) :
    KeptOnTime s script fun t now phase => s.OnClock script t now phase where
  begins t := ⟨rfl, Nat.le_add_right _ _⟩
  move _ _ _ hmove hscript hholds hx := hmove.onClock hscript hholds hx
  pass _ _ _ _ hle hrests hwake hx := onClock_pass hle hrests hwake hx
  cancel t now phase hx := by
    cases phase with
    | ended response => exact ⟨hx.tools, nofun, hx.duration_le⟩
    | _ => exact hx
  drop _ _ _ _ := trivial

end Ticket

namespace Surroundings

variable {w : Surroundings} {config : Config} {providers : List ProviderScript}
  {clock : Nat → Timestamp}

/-- Scripted providers are known at once. -/
theorem listingDelay_eq_zero : (w.setup config providers clock).models.listingDelay = 0 := by
  have hzero : ∀ scripts : List ProviderScript,
      ((scripts.map ProviderScript.toProvider).map (·.listingDelay)).foldl max 0 = 0 := by
    intro scripts
    induction scripts with
    | nil => rfl
    | cons script scripts ih => exact ih
  exact hzero providers

end Surroundings

namespace Orchestrator

variable {as before : List Action} {r : Request} {g : Nat}

/-! ## Runs -/

section New

variable {setup : Setup} {memory : Memory} {files : FileSystem}

/-- In a run on time a response accounts for the time of its execution. -/
theorem accounts_of_response? {response : Response} (has : (new setup memory files).OnTime as)
    (hadmitted : (new setup memory files).Answered as before (.submit r) (.admitted g))
    (hresponse : ((new setup memory files).after as).response? g = some response) :
    setup.Accounts memory.script r
      (∀ before id,
        ¬ (new setup memory files).Answered as before (.cancel id) (.cancelled (some g)))
      response := by
  obtain ⟨e, he, rfl, rfl⟩ := exists_execution_of_admitted hadmitted
  have hclock := (lasts_after (Ticket.keptOnTime_onClock setup memory.script) has).holds e he
  rw [(consistent_after.response?_eq_some_iff he).mp hresponse] at hclock
  have haccounts : setup.Accounts memory.script e.request (e.cancelled = false) response := hclock
  refine ⟨haccounts.tools, fun huncancelled => haccounts.duration_eq ?_, haccounts.duration_le⟩
  rw [← Bool.not_eq_true, cancelled_iff he]
  rintro ⟨before, hcancel⟩
  exact huncancelled before _ hcancel

/-- The caller who waits for a request that is spared gets a response that accounts for the time. -/
theorem exists_accounts (h : (new setup memory files).Spares as r g) :
    ∃ response, (((new setup memory files).after as).await [g]).response? g = some response ∧
      setup.Accounts memory.script r True response := by
  obtain ⟨before, hadmitted⟩ := h.admitted
  obtain ⟨bs, hontime, hawait, e, he, rfl, rfl, hc, response, hphase⟩ :=
    exists_ended_await h.onTime hadmitted h.uncancelled h.kept
  have hclock := (lasts_after (Ticket.keptOnTime_onClock setup memory.script) hontime).holds e he
  rw [hphase] at hclock
  have haccounts : setup.Accounts memory.script e.request (e.cancelled = false) response := hclock
  rw [hawait]
  exact ⟨response, (consistent_after.response?_eq_some_iff he).mpr hphase, haccounts.tools,
    fun _ => haccounts.duration_eq hc, haccounts.duration_le⟩

end New

/-- Over scripted providers, whatever else is executed at the same time: on time, every response
accounts for the time of its execution, exactly if it was not cancelled and as a bound if it was. A
request that is spared is answered so, and so is one that is executed after any scenario. Where the
memory does not wait, the duration of a response is that of its tools and of the model. -/
theorem accounting (config : Config) (providers : List ProviderScript) (clock : Nat → Timestamp)
    (w : Surroundings) :
    let setup := w.setup config providers clock
    let start := w.start config providers clock
    let script := w.memory.script
    setup.models.listingDelay = 0 ∧
    (∀ as before r g response, start.OnTime as →
      start.Answered as before (.submit r) (.admitted g) →
      (start.after as).response? g = some response →
      setup.Accounts script r
        (∀ before id, ¬ start.Answered as before (.cancel id) (.cancelled (some g))) response) ∧
    (∀ as r g, start.Spares as r g →
      ∃ response, ((start.after as).await [g]).response? g = some response ∧
        setup.Accounts script r True response) ∧
    (∀ commands r,
      let o := (start.play commands).2
      o.board.inFlight.generation? r.id = none →
      ∃ response, (o.execute r).1 = .ok (some response) ∧
        setup.Accounts script r True response) ∧
    (script.readDelay = 0 → script.appendDelay = 0 → ∀ r spared response,
      setup.Accounts script r spared response →
      (spared →
        response.metadata.durationMillis = response.toolMillis + setup.modelWait r) ∧
      response.metadata.durationMillis ≤ response.toolMillis + setup.modelWait r) := by
  intro setup start script
  refine ⟨Surroundings.listingDelay_eq_zero, fun as before r g response has hadmitted hresponse =>
    accounts_of_response? has hadmitted hresponse, fun as r g h => exists_accounts h,
    fun commands r => ?_, fun hread hsave r spared response h => ?_⟩
  · intro o hfree
    obtain ⟨as, g, hspares, hsubmit⟩ := exists_spares_play commands hfree
    obtain ⟨response, hresponse, haccounts⟩ := exists_accounts hspares
    refine ⟨response, ?_, haccounts⟩
    rw [execute_eq_await hsubmit]
    exact congrArg Except.ok hresponse
  · have hlisting : setup.models.listingDelay = 0 := Surroundings.listingDelay_eq_zero
    have hreadWait : setup.readWait script r = 0 := by
      rw [Setup.readWait, hread]
      split <;> rfl
    have hsaveWait : setup.saveWait script = 0 := by simp [Setup.saveWait, hsave]
    have heq := h.duration_eq
    have hle := h.duration_le
    simp only [hlisting, hreadWait, hsaveWait, ite_self, Nat.zero_max] at heq hle
    exact ⟨fun hspared => by rw [heq hspared]; omega, by omega⟩

namespace Lingering

/-- The memory takes a while to be read and to be written. -/
def forgetful : Surroundings where
  memory := .scripted { readDelay := 50, appendDelay := 20 } {}
  files := .empty

end Lingering

open Lingering in
/-- Over a slow memory a response is late though there is neither a tool nor a model to wait for. -/
theorem late_of_slowMemory :
    ∃ response, ((forgetful.start config providers clock).execute request).1 =
        .ok (some response) ∧ response.error = none ∧ response.toolMillis = 0 ∧
      (forgetful.setup config providers clock).modelWait request = 0 ∧
      response.metadata.durationMillis = 70 :=
  ⟨_, rfl, rfl, rfl, rfl, rfl⟩

end Orchestrator

end Switchboard
