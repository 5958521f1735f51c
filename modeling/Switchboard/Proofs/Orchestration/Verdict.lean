import Switchboard.Proofs.Model.Race
import Switchboard.Proofs.Orchestration.Cancellation
import Switchboard.Proofs.Orchestration.Timing

/-!
# What a request comes to

Over plain providers it is settled by the models, the configuration and the request what a request
comes to that is neither cancelled nor given up: the output of the model or a failure
(`Setup.verdict`). Tools, memory and files have no say in it. On its way an execution holds what
agrees with the verdict (`Setup.OnCourse`), and its response tells it (`exists_response`), provided
that all happens on time: a call that is asked too late may have finished after its limit.
-/

namespace Switchboard

namespace Setup

variable {s : Setup} {r : Request} {model : ModelDescriptor}

/-- What a request comes to that nobody cancels: the answer of the provider of the model, if there
is one and it answers within the limit. -/
def verdict (s : Setup) (r : Request) : Except RequestFailure ModelOutput :=
  match s.selectModel r with
  | .error f => .error f
  | .ok model =>
    match s.models.provider? model.providerName with
    | none => .error (.modelNotFound model.name)
    | some p =>
      if p.delay ≤ s.callLimit r then
        (p.answer (s.call r model {})).mapError fun f => f.toRequestFailure p.name
      else .error (.timeout (s.callLimit r))

/-- The response that tells the verdict, with what the tools did. -/
def respond (s : Setup) (r : Request) (records : List ToolRecord) (millis : Nat) : Response :=
  let account : Account := ⟨(s.selectModel r).toOption, records⟩
  match s.verdict r with
  | .ok output => account.success r.id (account.answer output) millis
  | .error f => account.failure r.id f.message millis

/-- The state in which the verdict ends a request. -/
def stateFor (s : Setup) (r : Request) : RequestState :=
  if (s.verdict r).isOk then .completed else .failed

theorem verdict_of_selectModel_error {f : RequestFailure} (h : s.selectModel r = .error f) :
    s.verdict r = .error f := by
  simp [verdict, h]

theorem verdict_of_provider?_eq_none (h : s.selectModel r = .ok model)
    (hp : s.models.provider? model.providerName = none) :
    s.verdict r = .error (.modelNotFound model.name) := by
  simp [verdict, h, hp]

theorem respond_of_error {f : RequestFailure} (h : s.verdict r = .error f)
    (records : List ToolRecord) (millis : Nat) :
    s.respond r records millis =
      Account.failure ⟨(s.selectModel r).toOption, records⟩ r.id f.message millis := by
  simp [respond, h]

theorem respond_of_ok {output : ModelOutput} (h : s.verdict r = .ok output)
    (records : List ToolRecord) (millis : Nat) :
    s.respond r records millis =
      let account : Account := ⟨(s.selectModel r).toOption, records⟩
      account.success r.id (account.answer output) millis := by
  simp [respond, h]

/-- A response has no error exactly if the verdict is an answer. -/
theorem error_respond (records : List ToolRecord) (millis : Nat) :
    (s.respond r records millis).error = none ↔ (s.verdict r).isOk = true := by
  unfold respond
  cases s.verdict r <;> simp [Account.success, Account.failure, Response.failure, Except.isOk,
    Except.toBool]

end Setup

/-- A call for a request, handed over to a plain provider, ends with the verdict. -/
theorem Setup.endsWith_verdict {s : Setup} {r : Request} {model : ModelDescriptor}
    {known : Recollection} {now : Nat} {pending : PendingCall}
    (hs : ∀ p ∈ s.models.providers, p.IsPlain) (hmodel : s.selectModel r = .ok model)
    (h : s.models.beginCall model (s.call r model known) now (s.callLimit r) false =
      .ok pending) : pending.EndsWith (s.verdict r) ∧ now ≤ pending.timed.wake := by
  obtain ⟨p, hp, -, rfl⟩ := ModelRegistry.beginCall_eq_ok_iff.mp h
  have hanswer : p.answer (s.call r model known) = p.answer (s.call r model {}) :=
    hs p (List.mem_of_find?_eq_some hp) _ _ rfl
      (Request.lastUserMessage_toCall.trans Request.lastUserMessage_toCall.symm)
  refine ⟨?_, by simp [Timed.wake, Timed.start]⟩
  have hverdict := PendingCall.endsWith_start p.name now p.delay (s.callLimit r)
    (p.answer (s.call r model known))
  rw [hanswer] at hverdict ⊢
  simpa only [Setup.verdict, hmodel, hp] using hverdict

/-! ## The way to the verdict -/

namespace Setup

/-- What an execution holds in a phase agrees with the verdict, and a call that it waits for has
not been left waiting. -/
def OnCourse (s : Setup) (r : Request) (now : Nat) : Phase → Prop
  | .selecting _ => True
  | .gathering model _ _ _ => s.selectModel r = .ok model
  | .calling account pending => account.model = (s.selectModel r).toOption ∧
      pending.EndsWith (s.verdict r) ∧ now ≤ pending.timed.wake
  | .saving account answer _ => account.model = (s.selectModel r).toOption ∧
      ∃ output, s.verdict r = .ok output ∧ answer = account.answer output
  | .ended response => ∃ records millis, response = s.respond r records millis
  | .dropped => True

/-- An execution stays on course as long as no instant passes for which it waits. -/
theorem OnCourse.pass {s : Setup} {r : Request} {now later : Nat} {phase : Phase}
    (h : s.OnCourse r now phase) (hwake : ∀ i, phase.wake = some i → later ≤ i) :
    s.OnCourse r later phase := by
  cases phase with
  | calling account pending => exact ⟨h.1, h.2.1, hwake _ rfl⟩
  | _ => exact h

end Setup

namespace Ticket

variable {s : Setup} {t : Ticket} {b : Board} {x y : Phase × Board}

/-- The execution is on course, and in flight unless it is over. -/
structure OnCourse (s : Setup) (t : Ticket) (x : Phase × Board) : Prop where
  phase : s.OnCourse t.request x.2.now x.1
  holds : x.1.isOver = false → x.2.inFlight.holds t.request.id t.generation = true

/-- An execution that fails with the verdict is on course. -/
theorem onCourse_fail {account : Account} {f : RequestFailure}
    (hmodel : account.model = (s.selectModel t.request).toOption)
    (hf : s.verdict t.request = .error f) : t.OnCourse s (t.fail b account f) where
  phase := ⟨account.records, t.elapsed b, by rw [Setup.respond_of_error hf, ← hmodel]⟩
  holds := nofun

/-- An execution that settles the answer of the verdict is on course. -/
theorem onCourse_settle {account : Account} {output : ModelOutput}
    (hholds : b.inFlight.holds t.request.id t.generation = true)
    (hmodel : account.model = (s.selectModel t.request).toOption)
    (houtput : s.verdict t.request = .ok output) :
    t.OnCourse s (t.settle b account (account.answer output)) := by
  rw [settle, if_pos hholds]
  exact ⟨⟨account.records, t.elapsed b, by rw [Setup.respond_of_ok houtput, ← hmodel]⟩,
    by simp [complete, Phase.isOver]⟩

/-- A move keeps an execution on course that is not cancelled. -/
theorem Move.onCourse (h : Move s t x y) (hs : ∀ p ∈ s.models.providers, p.IsPlain)
    (hc : t.cancelled = false) (hx : t.OnCourse s x) : t.OnCourse s y := by
  have hholds := hx.holds h.isOver_eq_false
  obtain ⟨hx, -⟩ := hx
  cases h with
  | select hdue hmodel => exact ⟨hmodel, fun _ => hholds⟩
  | unselected hdue hf =>
    exact onCourse_fail (by rw [hf]; rfl) (Setup.verdict_of_selectModel_error hf)
  | gather => exact ⟨hx, fun _ => hholds⟩
  | uncalled hdone hf =>
    obtain ⟨hp, rfl⟩ : _ ∧ _ := by simpa [hc] using ModelRegistry.beginCall_eq_error_iff.mp hf
    have hmodel : s.selectModel t.request = .ok _ := hx
    exact onCourse_fail (by rw [hmodel]; rfl) (Setup.verdict_of_provider?_eq_none hmodel hp)
  | call hdone hpending =>
    have hmodel : s.selectModel t.request = .ok _ := hx
    rw [hc] at hpending
    exact ⟨⟨by rw [hmodel]; rfl, Setup.endsWith_verdict hs hmodel hpending⟩, fun _ => hholds⟩
  | unanswered hf =>
    obtain ⟨hmodel, hends, hnow⟩ := hx
    rw [hc] at hf
    exact onCourse_fail hmodel (hends _ hnow _ hf).symm
  | answer houtput =>
    obtain ⟨hmodel, hends, hnow⟩ := hx
    rw [hc] at houtput
    exact ⟨⟨hmodel, _, (hends _ hnow _ houtput).symm, rfl⟩, fun _ => hholds⟩
  | saved hwrite =>
    obtain ⟨hmodel, output, houtput, rfl⟩ := hx
    exact onCourse_settle (by simpa using hholds) hmodel houtput
  | unsaved hwrite =>
    obtain ⟨hmodel, output, houtput, rfl⟩ := hx
    exact onCourse_settle hholds hmodel houtput

/-- An execution that is not cancelled stays on course on time. -/
theorem keptOnTime_onCourse {script : MemoryScript} (hs : ∀ p ∈ s.models.providers, p.IsPlain) :
    KeptOnTime s script fun t now phase =>
      t.cancelled = false → s.OnCourse t.request now phase where
  begins _ _ := trivial
  move t x y hmove _ hholds hx hc :=
    (hmove.onCourse hs hc ⟨hx hc, fun _ => by rw [hholds, hc]; rfl⟩).phase
  pass _ _ _ _ _ _ hwake hx hc := (hx hc).pass hwake
  cancel _ _ _ _ hc := by simp at hc
  drop _ _ _ _ _ := trivial

/-- An execution that is not cancelled ends in the state that its response tells. -/
theorem Ends.requestEnded_mem_iff {response : Response} {events : List Event}
    (h : t.Ends s response events) (hc : t.cancelled = false) {state : RequestState} :
    .requestEnded t.request.id state ∈ events ↔
      state = if response.error = none then .completed else .failed := by
  cases h with
  | completed account answer millis hserved hcancelled => simp [Account.success]
  | failed account f millis hf =>
    have hne : f ≠ .cancelled := by
      rintro rfl
      simp [hf.cancelled] at hc
    simp [stateAfter_of_ne hne, Account.failure, Response.failure]

end Ticket

namespace Orchestrator

variable {a : Action} {as bs : List Action} {e : Execution} {g : Nat}
  {r : Request}

/-! ## Runs -/

section New

variable {setup : Setup} {memory : Memory} {files : FileSystem} {before : List Action}

/-- A step that is not one of the schedule was taken before the schedule went on. -/
theorem prefix_of_internal (h : before ++ [a] <+: as ++ bs)
    (hbs : ∀ b ∈ bs, b.isInternal = true) (ha : a.isInternal = false) : before ++ [a] <+: as := by
  induction bs using List.reverseRecOn with
  | nil => simpa using h
  | append_singleton bs b ih =>
    rw [← List.append_assoc] at h
    rcases List.prefix_concat_iff.mp h with heq | h
    · obtain rfl : a = b := by simpa using (List.append_inj' heq rfl).2
      simp [hbs a (by simp)] at ha
    · exact ih h fun b hb => hbs b (by simp [hb])

/-- What the schedule does neither cancels an execution nor gives it up. -/
theorem spared_of_internal (hbs : ∀ a ∈ bs, a.isInternal = true)
    (he : e ∈ ((new setup memory files).after (as ++ bs)).executions)
    (hcancelled : ∀ before id,
      ¬ (new setup memory files).Answered as before (.cancel id) (.cancelled (some e.generation)))
    (hgivenUp : ¬ (new setup memory files).GivenUp as e.generation) :
    e.cancelled = false ∧ e.phase ≠ .dropped := by
  rw [← Bool.not_eq_true, cancelled_iff he, Ne, dropped_iff he]
  constructor
  · rintro ⟨before, hcomes, hreply⟩
    exact hcancelled _ _ ⟨prefix_of_internal hcomes hbs rfl, hreply⟩
  · rintro ⟨before, hcomes, hx⟩
    exact hgivenUp ⟨before, prefix_of_internal hcomes hbs rfl, hx⟩

/-- Waiting for a request that is neither cancelled nor given up is on time, and ends with its
execution. -/
theorem exists_ended_await (has : (new setup memory files).OnTime as)
    (hadmitted : (new setup memory files).Answered as before (.submit r) (.admitted g))
    (hcancelled : ∀ before id,
      ¬ (new setup memory files).Answered as before (.cancel id) (.cancelled (some g)))
    (hgivenUp : ¬ (new setup memory files).GivenUp as g) :
    ∃ bs, (new setup memory files).OnTime (as ++ bs) ∧
      ((new setup memory files).after as).await [g] = (new setup memory files).after (as ++ bs) ∧
      ∃ e ∈ ((new setup memory files).after (as ++ bs)).executions, e.generation = g ∧
        e.request = r ∧ e.cancelled = false ∧ ∃ response, e.phase = .ended response := by
  have hpunctual := Punctual.after (punctual_new setup memory files) (consistent_new ..) has
  obtain ⟨bs, hbs, hontime, hawait⟩ := hpunctual.exists_await consistent_after [g]
  obtain ⟨_, -, hawait', hover⟩ := exists_await setup memory files as [g]
  have hover := hover g (List.mem_singleton_self g)
  rw [← hawait', hawait, ← after_append] at hover
  refine ⟨bs, onTime_append.mpr ⟨has, hontime⟩, by rw [hawait, after_append], ?_⟩
  have hadmitted' : (new setup memory files).Answered (as ++ bs) before (.submit r)
      (.admitted g) := ⟨hadmitted.comes.trans (List.prefix_append ..), hadmitted.reply_eq⟩
  obtain ⟨e, he, rfl, rfl⟩ := exists_execution_of_admitted hadmitted'
  obtain ⟨hc, hdropped⟩ := spared_of_internal hbs he hcancelled hgivenUp
  exact ⟨e, he, rfl, rfl, hc, consistent_after.exists_ended he hover hdropped⟩

/-- The caller who waits for a request that is neither cancelled nor given up gets the response
that tells the verdict, and the request ends accordingly. -/
theorem exists_response (hs : ∀ p ∈ setup.models.providers, p.IsPlain)
    (has : (new setup memory files).OnTime as)
    (hadmitted : (new setup memory files).Answered as before (.submit r) (.admitted g))
    (hcancelled : ∀ before id,
      ¬ (new setup memory files).Answered as before (.cancel id) (.cancelled (some g)))
    (hgivenUp : ¬ (new setup memory files).GivenUp as g) :
    ∃ records millis,
      (((new setup memory files).after as).await [g]).response? g =
        some (setup.respond r records millis) ∧
      ∀ state, .requestEnded r.id state ∈
          (((new setup memory files).after as).await [g]).board.journal.eventsOf g ↔
        state = setup.stateFor r := by
  obtain ⟨bs, hontime, hawait, e, he, rfl, rfl, hc, response, hphase⟩ :=
    exists_ended_await has hadmitted hcancelled hgivenUp
  rw [hawait]
  have hcourse := (lasts_after (Ticket.keptOnTime_onCourse hs) hontime).holds e he hc
  have htraced := traced_of_mem he
  rw [hphase] at hcourse htraced
  obtain ⟨records, millis, rfl⟩ := hcourse
  refine ⟨records, millis, (consistent_after.response?_eq_some_iff he).mpr hphase, fun state => ?_⟩
  rw [Ticket.Ends.requestEnded_mem_iff htraced hc, Setup.stateFor]
  simp only [Setup.error_respond]

end New

end Orchestrator

end Switchboard
