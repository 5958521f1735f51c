import Switchboard.Proofs.Orchestration.Instants

/-!
# Isolation of identifiers

A scenario says what is asked of an orchestrator and when: requests are submitted, cancelled and
given up, with waits in between. Over scripted providers and tools, what the callers of one
identifier are told and the events about it are the same if all that concerns other identifiers
is left out of the scenario (`isolation`).
-/

namespace Switchboard

/-- What is asked of an orchestrator. -/
inductive Command where
  | submit (r : Request)
  | cancel (id : RequestId)
  /-- Gives up an execution of an identifier, counted from its first. -/
  | drop (id : RequestId) (place : Nat)
  | wait (millis : Nat)

/-- Whether a command concerns an identifier. Time passes for all. -/
def Command.concerns (id : RequestId) : Command → Bool
  | submit r => r.id = id
  | cancel id' => id' = id
  | drop id' _ => id' = id
  | wait _ => true

/-- What is known at once of a submission or cancellation: the generation of the execution or why
there is none, and whether there was one to cancel. -/
inductive Receipt where
  | submitted (result : Except RequestFailure Nat)
  | cancelled (found : Bool)

/-- What the caller of a submission or cancellation is told. -/
inductive Outcome where
  | executed (result : Except RequestFailure (Option Response))
  | cancelled (found : Bool)

namespace Orchestrator

/-- Carries out a command; the receipt, with the identifier. -/
def obey (o : Orchestrator) : Command → List (RequestId × Receipt) × Orchestrator
  | .submit r => ([(r.id, .submitted (o.submit r).1)], (o.submit r).2)
  | .cancel id => ([(id, .cancelled (o.interrupt id).1)], (o.interrupt id).2)
  | .drop id place => ([], ((o.generationsOf id)[place]?).elim o o.drop)
  | .wait millis => ([], o.advance millis)

/-- Carries out commands one after the other. -/
def play (o : Orchestrator) : List Command → List (RequestId × Receipt) × Orchestrator
  | [] => ([], o)
  | c :: rest =>
    let first := o.obey c
    let others := first.2.play rest
    (first.1 ++ others.1, others.2)

/-- What the caller is told by now. -/
def outcome (o : Orchestrator) : Receipt → Outcome
  | .submitted result => .executed (result.map o.response?)
  | .cancelled found => .cancelled found

/-- What the callers of an identifier are told by now. -/
def outcomesOf (o : Orchestrator) (id : RequestId) (receipts : List (RequestId × Receipt)) :
    List Outcome :=
  (receipts.filter fun r => r.1 = id).map fun r => o.outcome r.2

variable {o o₁ o₂ o₁' o₂' : Orchestrator} {id : RequestId} {c : Command} {g₁ g₂ : Nat}

theorem play_append (cs ds : List Command) : o.play (cs ++ ds) =
    ((o.play cs).1 ++ ((o.play cs).2.play ds).1, ((o.play cs).2.play ds).2) := by
  induction cs generalizing o with
  | nil => rfl
  | cons c cs ih => simp [play, ih]

theorem play_concat (cs : List Command) : o.play (cs ++ [c]) =
    ((o.play cs).1 ++ ((o.play cs).2.obey c).1, ((o.play cs).2.obey c).2) := by
  simp [play_append, play]

/-! ## Commands keep the orchestrator steady -/

theorem Plain.steady_poll (h : o.Plain) {g : Nat} (hidle : ∀ e ∈ o.executions,
    e.generation ≠ g → ∀ i, e.phase.wake = some i → o.now < i) : (o.poll g).Steady where
  toPlain := h.poll g
  idle := by
    have hfoldl : ([g].foldl Orchestrator.poll o).Idle :=
      h.idle_foldl_poll fun e he hg => hidle e he (by simpa using hg)
    exact hfoldl

/-- How a submission goes on from the execution that is enrolled. -/
theorem Plain.submit_cases (h : o.Plain) (r : Request) :
    (∃ f, o.board.inFlight.generation? r.id ≠ none ∧ o.submit r = (.error f, o) ∧
        f = .duplicate r.id) ∨
      ∃ g f, o.board.inFlight.generation? r.id = none ∧
        o.board.inFlight.register r.id = .ok (g, f) ∧
        o.submit r = (.ok g, (o.enrol r g f).poll g) := by
  cases hr : o.board.inFlight.register r.id with
  | error f =>
    obtain ⟨rfl, g, hg⟩ := InFlight.register_eq_error_iff.mp hr
    refine Or.inl ⟨_, fun hnone => ?_, submit_eq_error hr, rfl⟩
    exact InFlight.generation?_eq_none_iff.mp hnone g hg
  | ok taken =>
    obtain ⟨g, f⟩ := taken
    refine Or.inr ⟨g, f, ?_, rfl, h.consistent.submit_eq_ok hr⟩
    exact InFlight.generation?_eq_none_iff.mpr (InFlight.register_eq_ok_iff.mp hr).1

/-- A request that is enrolled and polled leaves an orchestrator steady. -/
theorem Steady.enrol_poll (h : o.Steady) {r : Request} {g : Nat} {f : InFlight}
    (hr : o.board.inFlight.register r.id = .ok (g, f)) : ((o.enrol r g f).poll g).Steady := by
  refine (h.toPlain.enrol hr).steady_poll fun e he hg => ?_
  rcases mem_executions_enrol.mp he with he | rfl
  · exact h.idle e he
  · exact absurd rfl hg

/-- A cancellation lets the execution that it tells go on. -/
theorem interrupt_eq (o : Orchestrator) (id' : RequestId) :
    o.interrupt id' = match o.board.inFlight.generation? id' with
      | some g => (true, (o.cancel id').2.poll g)
      | none => (false, o) := by
  unfold interrupt
  cases hg : o.board.inFlight.generation? id' with
  | none => simp [cancel, hg]
  | some g => simp [cancel, hg]

theorem Steady.interrupt (h : o.Steady) (id' : RequestId) : (o.interrupt id').2.Steady := by
  rw [interrupt_eq]
  cases hg : o.board.inFlight.generation? id' with
  | none => exact h
  | some g =>
    refine (h.toPlain.cancel id').steady_poll fun e he _ => ?_
    rw [now_cancel]
    exact forall_cancel id' h.idle h.idle e he

theorem Steady.drop (h : o.Steady) (g : Nat) : (o.drop g).Steady where
  toPlain := h.toPlain.drop g
  idle := by
    unfold Idle
    rw [now_drop]
    exact h.consistent.forall_letExecution h.consistent.turns_drop (fun e he _ => h.idle e he)
      fun e _ _ i hi => by simp [Execution.wake_drop] at hi

/-- Every command leaves an orchestrator steady. -/
theorem Steady.obey (h : o.Steady) (c : Command) : (o.obey c).2.Steady := by
  cases c with
  | submit r =>
    rcases h.toPlain.submit_cases r with ⟨f, -, heq, -⟩ | ⟨g, f, -, hr, heq⟩
    · simpa only [Orchestrator.obey, heq] using h
    · simpa only [Orchestrator.obey, heq] using h.enrol_poll hr
  | cancel id' => exact h.interrupt id'
  | drop id' place =>
    simp only [Orchestrator.obey]
    cases (o.generationsOf id')[place]? with
    | none => exact h
    | some g => exact h.drop g
  | wait millis => exact (h.advance_spec millis).1

/-- A request that is admitted adds its generation to those of its identifier. -/
theorem Plain.generationsOf_submit (h : o.Plain) (r : Request) :
    (o.submit r).2.generationsOf id = o.generationsOf id ++
      if r.id = id then (o.submit r).1.toOption.toList else [] := by
  rcases h.submit_cases r with ⟨f, -, heq, -⟩ | ⟨g, f, -, hr, heq⟩
  · simp [heq, Except.toOption]
  · rw [heq, (h.enrol hr).consistent.generationsOf_poll, generationsOf_enrol]
    rfl

/-- A cancellation adds no generation. -/
theorem Plain.generationsOf_interrupt (h : o.Plain) (id' : RequestId) :
    (o.interrupt id').2.generationsOf id = o.generationsOf id := by
  rw [interrupt_eq]
  cases hg : o.board.inFlight.generation? id' with
  | none => rfl
  | some g => exact (h.cancel id').consistent.generationsOf_poll.trans generationsOf_cancel

/-- Executions keep their places. -/
theorem Steady.generationsOf_obey (h : o.Steady) (c : Command) :
    o.generationsOf id <+: (o.obey c).2.generationsOf id := by
  cases c with
  | submit r =>
    simp only [Orchestrator.obey, h.toPlain.generationsOf_submit]
    exact List.prefix_append ..
  | cancel id' =>
    simp only [Orchestrator.obey, h.toPlain.generationsOf_interrupt]
    exact List.prefix_refl _
  | drop id' place =>
    simp only [Orchestrator.obey]
    cases (o.generationsOf id')[place]? with
    | none => exact List.prefix_refl _
    | some g =>
      exact (h.consistent.generationsOf_letExecution h.consistent.turns_drop).symm ▸
        List.prefix_refl _
  | wait millis =>
    simp only [Orchestrator.obey, (h.advance_spec millis).2.2 id]
    exact List.prefix_refl _

theorem Plain.now_submit (h : o.Plain) (r : Request) : (o.submit r).2.now = o.now := by
  rcases h.submit_cases r with ⟨f, -, heq, -⟩ | ⟨g, f, -, hr, heq⟩
  · rw [heq]
  · rw [heq, now_poll]
    rfl

theorem now_interrupt (id' : RequestId) : (o.interrupt id').2.now = o.now := by
  rw [interrupt_eq]
  cases hg : o.board.inFlight.generation? id' with
  | none => rfl
  | some g => exact now_poll.trans now_cancel

/-- A generation of one identifier is not one of another. -/
theorem Consistent.notMem_generationsOf (h : o.Consistent) {id' : RequestId} {g : Nat}
    (hg : g ∈ o.generationsOf id') (hid : id' ≠ id) : g ∉ o.generationsOf id := by
  obtain ⟨e, he, rfl, rfl⟩ := mem_generationsOf.mp hg
  rwa [h.mem_generationsOf_iff he]

/-- A command that does not concern an identifier is not seen. -/
theorem Steady.obey_of_not_concerns (h : o.Steady) (hc : c.concerns id = false) :
    (o.obey c).2.sight id = o.sight id ∧ (o.obey c).2.now = o.now ∧
      (o.obey c).1.filter (fun r => r.1 = id) = [] := by
  cases c with
  | submit r =>
    have hid : r.id ≠ id := by simpa [Command.concerns] using hc
    refine ⟨?_, h.toPlain.now_submit r, by simp [Orchestrator.obey, hid]⟩
    simp only [Orchestrator.obey]
    rcases h.toPlain.submit_cases r with ⟨f, -, heq, -⟩ | ⟨g, f, -, hr, heq⟩
    · rw [heq]
    · rw [heq, (h.toPlain.enrol hr).sight_poll_of_notMem, sight_enrol_of_ne hid]
      exact (h.toPlain.enrol hr).consistent.notMem_generationsOf
        (by simp [generationsOf_enrol]) hid
  | cancel id' =>
    have hid : id' ≠ id := by simpa [Command.concerns] using hc
    refine ⟨?_, now_interrupt id', by simp [Orchestrator.obey, hid]⟩
    simp only [Orchestrator.obey, interrupt_eq]
    cases hg : o.board.inFlight.generation? id' with
    | none => rfl
    | some g =>
      obtain ⟨n, e, hn, rfl, -⟩ := h.consistent.exists_of_generation? hg
      have hmem : e.generation ∈ o.generationsOf id' :=
        List.mem_map_of_mem (List.mem_of_getElem? hn)
      rw [(h.toPlain.cancel id').sight_poll_of_notMem, h.consistent.sight_cancel_of_ne hid]
      rw [generationsOf_cancel]
      exact h.consistent.notMem_generationsOf hmem hid
  | drop id' place =>
    have hid : id' ≠ id := by simpa [Command.concerns] using hc
    simp only [Orchestrator.obey]
    cases hg : (o.generationsOf id')[place]? with
    | none => exact ⟨rfl, rfl, rfl⟩
    | some g =>
      refine ⟨h.toPlain.sight_drop_of_notMem ?_, now_drop, rfl⟩
      exact h.consistent.notMem_generationsOf (List.mem_of_getElem? hg) hid
  | wait millis => simp [Command.concerns] at hc

/-! ## Scenarios in which the same is seen -/

/-- Two receipts for callers of an identifier tell them the same. -/
inductive SameReceipt (id : RequestId) (o₁ o₂ : Orchestrator) : Receipt → Receipt → Prop where
  | admitted {g₁ g₂ : Nat} (h : Matched id o₁ o₂ g₁ g₂) :
    SameReceipt id o₁ o₂ (.submitted (.ok g₁)) (.submitted (.ok g₂))
  | rejected (f : RequestFailure) :
    SameReceipt id o₁ o₂ (.submitted (.error f)) (.submitted (.error f))
  | cancelled (found : Bool) : SameReceipt id o₁ o₂ (.cancelled found) (.cancelled found)

theorem Matched.mono (h : Matched id o₁ o₂ g₁ g₂)
    (h₁ : o₁.generationsOf id <+: o₁'.generationsOf id)
    (h₂ : o₂.generationsOf id <+: o₂'.generationsOf id) : Matched id o₁' o₂' g₁ g₂ := by
  obtain ⟨n, hn₁, hn₂⟩ := h
  obtain ⟨rest₁, hrest₁⟩ := h₁
  obtain ⟨rest₂, hrest₂⟩ := h₂
  obtain ⟨hlt₁, -⟩ := List.getElem?_eq_some_iff.mp hn₁
  obtain ⟨hlt₂, -⟩ := List.getElem?_eq_some_iff.mp hn₂
  refine ⟨n, ?_, ?_⟩
  · rw [← hrest₁, List.getElem?_append_left hlt₁, hn₁]
  · rw [← hrest₂, List.getElem?_append_left hlt₂, hn₂]

theorem SameReceipt.mono {r₁ r₂ : Receipt} (h : SameReceipt id o₁ o₂ r₁ r₂)
    (h₁ : o₁.generationsOf id <+: o₁'.generationsOf id)
    (h₂ : o₂.generationsOf id <+: o₂'.generationsOf id) : SameReceipt id o₁' o₂' r₁ r₂ := by
  cases h with
  | admitted hmatched => exact .admitted (hmatched.mono h₁ h₂)
  | rejected f => exact .rejected f
  | cancelled found => exact .cancelled found

/-- The same receipts have the same outcome where the same is seen. -/
theorem SameReceipt.outcome_eq {r₁ r₂ : Receipt} (h : SameReceipt id o₁ o₂ r₁ r₂)
    (h₁ : o₁.Consistent) (h₂ : o₂.Consistent) (hsight : o₁.sight id = o₂.sight id) :
    o₁.outcome r₁ = o₂.outcome r₂ := by
  cases h with
  | admitted hmatched =>
    obtain ⟨n, e₁, e₂, hn₁, rfl, hn₂, rfl⟩ := hmatched.exists_getElem?
    have he₁ := (mem_executionsOf.mp (List.mem_of_getElem? hn₁)).1
    have he₂ := (mem_executionsOf.mp (List.mem_of_getElem? hn₂)).1
    simp only [outcome, Except.map, h₁.response?_eq he₁, h₂.response?_eq he₂,
      (seen_of_getElem? hsight hn₁ hn₂).response?_eq]
  | rejected f => rfl
  | cancelled found => rfl

/-- Two orchestrators in which the same is seen of an identifier, at the same instant, and the
receipts that tell its callers the same. -/
structure Agree (id : RequestId) (p₁ p₂ : List (RequestId × Receipt) × Orchestrator) : Prop where
  sight_eq : p₁.2.sight id = p₂.2.sight id
  now_eq : p₁.2.now = p₂.2.now
  receipts : List.Forall₂ (fun r₁ r₂ => SameReceipt id p₁.2 p₂.2 r₁.2 r₂.2)
    (p₁.1.filter fun r => r.1 = id) (p₂.1.filter fun r => r.1 = id)

/-- Scenarios that agree have the same outcomes. -/
theorem Agree.outcomesOf_eq {p₁ p₂ : List (RequestId × Receipt) × Orchestrator}
    (h : Agree id p₁ p₂) (h₁ : p₁.2.Consistent) (h₂ : p₂.2.Consistent) :
    p₁.2.outcomesOf id p₁.1 = p₂.2.outcomesOf id p₂.1 := by
  unfold outcomesOf
  rw [← List.forall₂_eq_eq_eq, List.forall₂_map_left_iff, List.forall₂_map_right_iff]
  exact h.receipts.imp fun _ _ hr => hr.outcome_eq h₁ h₂ h.sight_eq

/-- Requests enrolled where the same is seen match each other. -/
theorem matched_enrol {r : Request} {f₁ f₂ : InFlight} (hsight : o₁.sight r.id = o₂.sight r.id) :
    Matched r.id (o₁.enrol r g₁ f₁) (o₂.enrol r g₂ f₂) g₁ g₂ := by
  have hlength : (o₁.generationsOf r.id).length = (o₂.generationsOf r.id).length := by
    simpa [generationsOf] using length_executionsOf_eq hsight
  refine ⟨(o₁.generationsOf r.id).length, ?_, ?_⟩
  · rw [generationsOf_enrol, if_pos rfl, List.getElem?_concat_length]
  · rw [hlength, generationsOf_enrol, if_pos rfl, List.getElem?_concat_length]

/-- From equal sights a request is admitted in both or rejected in both. -/
theorem agree_submit (h₁ : o₁.Steady) (h₂ : o₂.Steady) {r : Request}
    (hsight : o₁.sight r.id = o₂.sight r.id) (hnow : o₁.now = o₂.now) :
    Agree r.id (o₁.obey (.submit r)) (o₂.obey (.submit r)) := by
  have hflight := inFlight_cases h₁.consistent h₂.consistent hsight
  have hnow' := (h₁.toPlain.now_submit r).trans (hnow.trans (h₂.toPlain.now_submit r).symm)
  rcases h₁.toPlain.submit_cases r with ⟨_, hg₁, heq₁, rfl⟩ | ⟨g₁, f₁, hg₁, hr₁, heq₁⟩
  · rcases h₂.toPlain.submit_cases r with ⟨_, -, heq₂, rfl⟩ | ⟨g₂, f₂, hg₂, -, -⟩
    · refine ⟨by simpa only [obey, heq₁, heq₂] using hsight, hnow', ?_⟩
      simpa [obey, heq₁, heq₂] using SameReceipt.rejected _
    · rcases hflight with ⟨hnone, -⟩ | ⟨_, _, -, hsome, -⟩
      · exact absurd hnone hg₁
      · simp [hg₂] at hsome
  · rcases h₂.toPlain.submit_cases r with ⟨f₂, hg₂, -, -⟩ | ⟨g₂, f₂, -, hr₂, heq₂⟩
    · rcases hflight with ⟨-, hnone⟩ | ⟨_, _, hsome, -, -⟩
      · exact absurd hnone hg₂
      · simp [hg₁] at hsome
    · have hplain₁ := h₁.toPlain.enrol hr₁
      have hplain₂ := h₂.toPlain.enrol hr₂
      have hmatched : Matched r.id (o₁.enrol r g₁ f₁) (o₂.enrol r g₂ f₂) g₁ g₂ :=
        matched_enrol hsight
      have hpolled : Matched r.id ((o₁.enrol r g₁ f₁).poll g₁) ((o₂.enrol r g₂ f₂).poll g₂) g₁ g₂ :=
        hmatched.mono (hplain₁.consistent.generationsOf_poll.symm ▸ List.prefix_refl _)
          (hplain₂.consistent.generationsOf_poll.symm ▸ List.prefix_refl _)
      refine ⟨?_, hnow', by simpa [obey, heq₁, heq₂] using SameReceipt.admitted hpolled⟩
      simpa only [obey, heq₁, heq₂] using
        sight_poll hplain₁ hplain₂ (sight_enrol hsight hnow) hnow hmatched

/-- From equal sights a cancellation finds an execution in both or in neither. -/
theorem agree_cancel (h₁ : o₁.Steady) (h₂ : o₂.Steady) (hsight : o₁.sight id = o₂.sight id)
    (hnow : o₁.now = o₂.now) : Agree id (o₁.obey (.cancel id)) (o₂.obey (.cancel id)) := by
  have hnow' := (now_interrupt id).trans (hnow.trans (now_interrupt id).symm)
  rcases inFlight_cases h₁.consistent h₂.consistent hsight with
    ⟨hg₁, hg₂⟩ | ⟨g₁, g₂, hg₁, hg₂, hmatched⟩
  · refine ⟨by simpa only [obey, interrupt_eq, hg₁, hg₂] using hsight, hnow', ?_⟩
    simpa [obey, interrupt_eq, hg₁, hg₂] using SameReceipt.cancelled false
  · have hmatched' : Matched id (o₁.cancel id).2 (o₂.cancel id).2 g₁ g₂ :=
      hmatched.mono (generationsOf_cancel.symm ▸ List.prefix_refl _)
        (generationsOf_cancel.symm ▸ List.prefix_refl _)
    have hpoll := sight_poll (h₁.toPlain.cancel id) (h₂.toPlain.cancel id)
      (sight_cancel h₁.consistent h₂.consistent hsight)
      (now_cancel.trans (hnow.trans now_cancel.symm)) hmatched'
    refine ⟨by simpa only [obey, interrupt_eq, hg₁, hg₂] using hpoll, hnow', ?_⟩
    simpa [obey, interrupt_eq, hg₁, hg₂] using SameReceipt.cancelled true

theorem agree_drop (h₁ : o₁.Steady) (h₂ : o₂.Steady) (hsight : o₁.sight id = o₂.sight id)
    (hnow : o₁.now = o₂.now) (place : Nat) :
    Agree id (o₁.obey (.drop id place)) (o₂.obey (.drop id place)) := by
  have hlength : (o₁.generationsOf id).length = (o₂.generationsOf id).length := by
    simpa [generationsOf] using length_executionsOf_eq hsight
  simp only [obey]
  rcases Nat.lt_or_ge place (o₁.generationsOf id).length with hlt | hge
  · have hg₁ := List.getElem?_eq_getElem hlt
    have hg₂ := List.getElem?_eq_getElem (hlength ▸ hlt)
    rw [hg₁, hg₂]
    refine ⟨sight_drop h₁.toPlain h₂.toPlain hsight hnow ⟨place, hg₁, hg₂⟩, ?_, .nil⟩
    exact now_drop.trans (hnow.trans now_drop.symm)
  · rw [List.getElem?_eq_none hge, List.getElem?_eq_none (hlength ▸ hge)]
    exact ⟨hsight, hnow, .nil⟩

/-- From equal sights a command on the identifier leads to equal sights, and its caller is told the
same. -/
theorem agree_obey (h₁ : o₁.Steady) (h₂ : o₂.Steady) (hsight : o₁.sight id = o₂.sight id)
    (hnow : o₁.now = o₂.now) (hc : c.concerns id = true) : Agree id (o₁.obey c) (o₂.obey c) := by
  cases c with
  | submit r =>
    obtain rfl : r.id = id := by simpa [Command.concerns] using hc
    exact agree_submit h₁ h₂ hsight hnow
  | cancel id' =>
    obtain rfl : id' = id := by simpa [Command.concerns] using hc
    exact agree_cancel h₁ h₂ hsight hnow
  | drop id' place =>
    obtain rfl : id' = id := by simpa [Command.concerns] using hc
    exact agree_drop h₁ h₂ hsight hnow place
  | wait millis =>
    refine ⟨sight_advance h₁ h₂ hsight hnow millis, ?_, .nil⟩
    exact (h₁.advance_spec millis).2.1.trans (hnow ▸ (h₂.advance_spec millis).2.1.symm)

/-- Every scenario leaves an orchestrator steady. -/
theorem Steady.play (h : o.Steady) (commands : List Command) : (o.play commands).2.Steady := by
  induction commands generalizing o with
  | nil => exact h
  | cons c cs ih => exact ih (h.obey c)

/-- Commands that do not concern an identifier can be left out. -/
theorem Steady.agree_play (h : o.Steady) (id : RequestId) (commands : List Command) :
    Agree id (o.play commands) (o.play (commands.filter (·.concerns id))) := by
  induction commands using List.reverseRecOn with
  | nil => exact ⟨rfl, rfl, .nil⟩
  | append_singleton cs c ih =>
    have h₁ := h.play cs
    have h₂ := h.play (cs.filter (·.concerns id))
    rw [play_concat, List.filter_append]
    cases hc : c.concerns id with
    | false =>
      obtain ⟨hsight, hnow, hnone⟩ := h₁.obey_of_not_concerns hc
      simp only [List.filter_singleton, hc, cond_false, List.append_nil]
      refine ⟨hsight.trans ih.sight_eq, hnow.trans ih.now_eq, ?_⟩
      rw [List.filter_append, hnone, List.append_nil]
      exact ih.receipts.imp fun _ _ hr => hr.mono (h₁.generationsOf_obey c) (List.prefix_refl _)
    | true =>
      have hstep := agree_obey h₁ h₂ ih.sight_eq ih.now_eq hc
      simp only [List.filter_singleton, hc, cond_true, play_concat]
      refine ⟨hstep.sight_eq, hstep.now_eq, ?_⟩
      rw [List.filter_append, List.filter_append]
      refine List.rel_append (ih.receipts.imp fun _ _ hr => ?_) hstep.receipts
      exact hr.mono (h₁.generationsOf_obey c) (h₂.generationsOf_obey c)

/-- What is told in the end is the same as well. -/
theorem Agree.outcomesOf_awaitAll_eq {p₁ p₂ : List (RequestId × Receipt) × Orchestrator}
    (h : Agree id p₁ p₂) (h₁ : p₁.2.Steady) (h₂ : p₂.2.Steady) :
    p₁.2.awaitAll.outcomesOf id p₁.1 = p₂.2.awaitAll.outcomesOf id p₂.1 := by
  obtain ⟨hend₁, hgenerations₁⟩ := h₁.awaitAll_spec
  obtain ⟨hend₂, hgenerations₂⟩ := h₂.awaitAll_spec
  unfold outcomesOf
  rw [← List.forall₂_eq_eq_eq, List.forall₂_map_left_iff, List.forall₂_map_right_iff]
  refine h.receipts.imp fun _ _ hr => ?_
  have hlater : SameReceipt id p₁.2.awaitAll p₂.2.awaitAll _ _ :=
    hr.mono ((hgenerations₁ id).symm ▸ List.prefix_refl _)
      ((hgenerations₂ id).symm ▸ List.prefix_refl _)
  exact hlater.outcome_eq hend₁.consistent hend₂.consistent (sight_awaitAll h₁ h₂ h.sight_eq)

/-- A new orchestrator is steady. -/
theorem steady_new {setup : Setup} (hsetup : setup.IsPlain) (memory : Memory)
    (files : FileSystem) : (new setup memory files).Steady where
  consistent := consistent_new setup memory files
  setup := hsetup
  phase e he := by simp [new] at he
  idle e he := by simp [new] at he

/-- Over scripted providers and tools, what the callers of an identifier are told and the events
about it are the same whether or not a scenario concerns other identifiers as well: at the end of
the scenario, and when all executions have come to their end. -/
theorem isolation (config : Config) (providers : List ProviderScript) (tools : List ToolScript)
    (enabled : Option (List String)) (table : EligibilityTable) (clock : Nat → Timestamp)
    (memory : Memory) (files : FileSystem) (commands : List Command) (id : RequestId) :
    let setup : Setup :=
      { config, clock, models := ⟨providers.map ProviderScript.toProvider⟩
        tools := ⟨tools.map ToolScript.toTool, enabled, table⟩ }
    let whole := (new setup memory files).play commands
    let alone := (new setup memory files).play (commands.filter (·.concerns id))
    (whole.2.outcomesOf id whole.1 = alone.2.outcomesOf id alone.1 ∧
      whole.2.board.journal.eventsAbout id = alone.2.board.journal.eventsAbout id) ∧
    (whole.2.awaitAll.outcomesOf id whole.1 = alone.2.awaitAll.outcomesOf id alone.1 ∧
      whole.2.awaitAll.board.journal.eventsAbout id =
        alone.2.awaitAll.board.journal.eventsAbout id) := by
  intro setup whole alone
  have hsetup : setup.IsPlain := by
    refine ⟨fun p hp => ?_, fun t ht => ?_⟩
    · obtain ⟨script, -, rfl⟩ := List.mem_map.mp hp
      exact script.isPlain_toProvider
    · obtain ⟨script, -, rfl⟩ := List.mem_map.mp ht
      exact script.isPlain_toTool
  have hstart := steady_new hsetup memory files
  have h₁ := hstart.play commands
  have h₂ := hstart.play (commands.filter (·.concerns id))
  have hagree := hstart.agree_play id commands
  exact ⟨⟨hagree.outcomesOf_eq h₁.consistent h₂.consistent, events_eq_of_sight hagree.sight_eq⟩,
    hagree.outcomesOf_awaitAll_eq h₁ h₂, events_eq_of_sight (sight_awaitAll h₁ h₂ hagree.sight_eq)⟩

end Orchestrator

end Switchboard
