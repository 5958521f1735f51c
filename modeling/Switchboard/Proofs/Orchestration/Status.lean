import Switchboard.Orchestration.Status
import Switchboard.Proofs.Bytes
import Switchboard.Proofs.Orchestration.Admission

/-!
# What the status tells

The requests that the status lists are those of the requests in flight, each once and in the order
of its bytes (`InFlight.pairwise_active`). The model that it names was chosen by the last execution
that chose one: `Selects` says when an execution chooses a model by what it did before and after,
and no other step changes the name (`Consistent.tracks_perform`). So the status is exact in every
run (`exactness`).
-/

namespace Switchboard

namespace InFlight

variable {f : InFlight} {id : RequestId}

theorem mem_active : id ∈ f.active ↔ ∃ g, (id, g) ∈ f.entries := by
  simp [active]

/-- The requests in flight are listed in the order of their bytes, each once. -/
theorem Distinct.pairwise_active (hf : f.Distinct) :
    f.active.Pairwise fun a b => Text.bytes a.text < Text.bytes b.text := by
  have hordered : f.active.Pairwise fun a b => RequestId.le a b = true :=
    List.pairwise_mergeSort (fun a b c hab hbc => by
        simp only [RequestId.le, decide_eq_true_eq] at hab hbc ⊢
        exact le_trans hab hbc)
      (fun a b => by simpa [RequestId.le] using le_total a.text b.text) _
  have hnodup : f.active.Nodup := (List.mergeSort_perm _ _).nodup_iff.mpr hf
  refine (hordered.and hnodup).imp fun {a b} ⟨hle, hne⟩ => Text.bytes_lt_bytes ?_
  exact lt_of_le_of_ne (by simpa [RequestId.le] using hle)
    fun heq => hne (RequestId.text_inj.mp heq)

end InFlight

/-- Whether the execution has not chosen a model yet. -/
def Phase.isSelecting : Phase → Bool
  | selecting _ => true
  | _ => false

/-- The name of the model for a request, if there is one to choose. -/
def Setup.choice? (s : Setup) (r : Request) : Option String :=
  (s.selectModel r).toOption.map (·.name)

namespace Ticket

variable {s : Setup} {t : Ticket} {b : Board} {x y : Phase × Board}

theorem isSelecting_settle (account : Account) (answer : Answer) :
    (t.settle b account answer).1.isSelecting = false := by
  unfold settle
  split <;> rfl

theorem currentModel_settle (account : Account) (answer : Answer) :
    (t.settle b account answer).2.currentModel = b.currentModel := by
  unfold settle
  split <;> rfl

/-- No move leads back to choosing a model. -/
theorem Move.isSelecting_eq_false (h : Move s t x y) : y.1.isSelecting = false := by
  cases h with
  | saved hwrite => exact isSelecting_settle ..
  | unsaved hwrite => exact isSelecting_settle ..
  | _ => rfl

/-- The move that chooses a model is the one that notes its name. -/
theorem Move.currentModel_eq (h : Move s t x y) :
    y.2.currentModel =
      if x.1.isSelecting then (s.choice? t.request).or x.2.currentModel
      else x.2.currentModel := by
  cases h with
  | select hdue hmodel =>
    simp [Setup.choice?, hmodel, Except.toOption, Phase.isSelecting, Board.note]
  | unselected hdue hf =>
    simp [Setup.choice?, hf, Except.toOption, Phase.isSelecting, fail, leave, Board.note]
  | saved hwrite => exact currentModel_settle ..
  | unsaved hwrite => exact currentModel_settle ..
  | _ => rfl

/-- A poll notes the name of the model that is chosen in it. -/
theorem currentModel_poll (phase : Phase) :
    (t.poll s b phase).2.currentModel =
      if phase.isSelecting && !(t.poll s b phase).1.isSelecting then
        (s.choice? t.request).or b.currentModel
      else b.currentModel := by
  -- An execution that has not chosen yet has not moved yet, so the name is still the old one.
  let P (y : Phase × Board) : Prop :=
    (y.1.isSelecting = true → phase.isSelecting = true) ∧
      y.2.currentModel = if phase.isSelecting && !y.1.isSelecting then
        (s.choice? t.request).or b.currentModel else b.currentModel
  have hmove : ∀ x y, Move s t x y → P x → P y := by
    rintro x y hmove ⟨hselecting, hmodel⟩
    have hy := hmove.isSelecting_eq_false
    refine ⟨by simp [hy], ?_⟩
    rw [hmove.currentModel_eq]
    cases hx : x.1.isSelecting with
    | true => simp [hmodel, hx, hy, hselecting hx]
    | false => simp [hmodel, hx, hy]
  have hpoll : P (t.poll s b phase) := poll_induction hmove ⟨id, by simp⟩
  exact hpoll.2

end Ticket

namespace Orchestrator

variable {o o' : Orchestrator} {e : Execution} {model : ModelDescriptor}

/-- From `o` to `o'` an execution has chosen a model: it had none before and was not given up, and
this is the model for its request. -/
structure Selects (o o' : Orchestrator) (e : Execution) (model : ModelDescriptor) : Prop where
  mem : e ∈ o'.executions
  before : ∀ x ∈ o.executions, x.generation = e.generation → x.phase.isSelecting = true
  after : e.phase.isSelecting = false
  kept : e.phase ≠ .dropped
  model_eq : o.setup.selectModel e.request = .ok model

/-- From `o` to `o'` the status follows the executions: it names the model that one of them chose,
and the same as before if none did. -/
structure Tracks (o o' : Orchestrator) : Prop where
  chosen : ∀ e model, Selects o o' e model → o'.board.currentModel = some model.name
  kept : (∀ e model, ¬ Selects o o' e model) → o'.board.currentModel = o.board.currentModel

/-! ## Steps -/

/-- The status need not follow executions that choose nothing. -/
theorem tracks_of_forall
    (h : ∀ e ∈ o'.executions, ∃ x ∈ o.executions, x.generation = e.generation ∧
      (e.phase = x.phase ∨ e.phase = .dropped))
    (hmodel : o'.board.currentModel = o.board.currentModel) : o.Tracks o' where
  chosen e model hselects := by
    obtain ⟨x, hx, hg, hphase | hphase⟩ := h e hselects.mem
    · have hbefore := hselects.before x hx hg
      rw [← hphase, hselects.after] at hbefore
      cases hbefore
    · exact absurd hphase hselects.kept
  kept _ := hmodel

theorem tracks_refl : o.Tracks o :=
  tracks_of_forall (fun e he => ⟨e, he, rfl, Or.inl rfl⟩) rfl

namespace Consistent

theorem tracks_cancel (id : RequestId) : o.Tracks (o.cancel id).2 := by
  cases hg : o.board.inFlight.generation? id with
  | none =>
    rw [snd_cancel_of_none hg]
    exact tracks_refl
  | some g =>
    rw [snd_cancel_of_some hg]
    refine tracks_of_forall (fun e he => ?_) rfl
    obtain ⟨x, hx, rfl⟩ := List.mem_map.mp he
    exact ⟨x, hx, generation_notify.symm, Or.inl phase_notify⟩

theorem tracks_drop (h : o.Consistent) (g : Nat) : o.Tracks (o.drop g) := by
  by_cases hg : ∃ e ∈ o.executions, e.generation = g
  · obtain ⟨e, he, rfl⟩ := hg
    cases hover : e.phase.isOver with
    | true =>
      rw [Orchestrator.drop, h.letExecution_eq_self he (Execution.drop_of_isOver hover)]
      exact tracks_refl
    | false =>
      rw [Orchestrator.drop, h.letExecution_eq he, Execution.drop, if_neg (by simp [hover])]
      refine tracks_of_forall (fun e' he' => ?_) rfl
      rcases mem_replace.mp he' with ⟨he', -⟩ | ⟨rfl, -⟩
      · exact ⟨e', he', rfl, Or.inl rfl⟩
      · exact ⟨e, he, rfl, Or.inr rfl⟩
  · rw [Orchestrator.drop, letExecution_of_forall_ne fun e he heq => hg ⟨e, he, heq⟩]
    exact tracks_refl

/-- In a poll only the execution that is polled can choose a model. -/
theorem selects_poll_iff (h : o.Consistent) {x : Execution} (hx : x ∈ o.executions) :
    o.Selects (o.poll x.generation) e model ↔
      e = (x.poll o.setup o.board).1 ∧ x.phase.isSelecting = true ∧
        e.phase.isSelecting = false ∧ o.setup.selectModel x.request = .ok model := by
  have hmem : e ∈ (o.poll x.generation).executions ↔
      e ∈ replace o.executions (x.poll o.setup o.board).1 := by
    rw [Orchestrator.poll, h.letExecution_eq hx]
  constructor
  · rintro ⟨he, hbefore, hafter, -, hmodel⟩
    rcases mem_replace.mp (hmem.mp he) with ⟨he, -⟩ | ⟨rfl, -⟩
    · have hselecting := hbefore e he rfl
      rw [hafter] at hselecting
      cases hselecting
    · exact ⟨rfl, hbefore x hx rfl, hafter, hmodel⟩
  · rintro ⟨rfl, hbefore, hafter, hmodel⟩
    refine ⟨hmem.mpr (mem_replace.mpr (Or.inr ⟨rfl, x, hx, rfl⟩)), fun y hy hg => ?_, hafter,
      Ticket.poll_ne_dropped fun hphase => ?_, hmodel⟩
    · rwa [h.eq_of_generation_eq hy hx hg]
    · simp [hphase, Phase.isSelecting] at hbefore

/-- A poll lets the status follow the execution that is polled. -/
theorem tracks_poll (h : o.Consistent) (g : Nat) : o.Tracks (o.poll g) := by
  by_cases hg : ∃ x ∈ o.executions, x.generation = g
  · obtain ⟨x, hx, rfl⟩ := hg
    have hpoll := Ticket.currentModel_poll (s := o.setup) (t := x.toTicket) (b := o.board) x.phase
    have hmodel : (o.poll x.generation).board.currentModel =
        (x.poll o.setup o.board).2.currentModel := by
      rw [Orchestrator.poll, h.letExecution_eq hx]
    rw [Execution.poll, hpoll] at hmodel
    refine ⟨fun e model hselects => ?_, fun hnone => ?_⟩
    · obtain ⟨rfl, hbefore, hafter, hselected⟩ := (h.selects_poll_iff hx).mp hselects
      simp only [Execution.poll] at hafter
      simp [hmodel, hbefore, hafter, Setup.choice?, hselected, Except.toOption]
    · rw [hmodel]
      split
      case isTrue hselecting =>
        simp only [Bool.and_eq_true, Bool.not_eq_true'] at hselecting
        cases hselected : o.setup.selectModel x.request with
        | error f => simp [Setup.choice?, hselected, Except.toOption]
        | ok model =>
          exact absurd ((h.selects_poll_iff hx).mpr
            ⟨rfl, hselecting.1, hselecting.2, hselected⟩) (hnone _ model)
      case isFalse => rfl
  · rw [Orchestrator.poll, letExecution_of_forall_ne fun e he heq => hg ⟨e, he, heq⟩]
    exact tracks_refl

/-- A request is tracked through its first poll. -/
theorem tracks_submit (h : o.Consistent) (r : Request) : o.Tracks (o.submit r).2 := by
  cases hr : o.board.inFlight.register r.id with
  | error f =>
    rw [submit_eq_error hr]
    exact tracks_refl
  | ok taken =>
    obtain ⟨g, f⟩ := taken
    rw [h.submit_eq_ok hr]
    -- What the execution that begins chooses, it chooses in its first poll.
    have hiff : ∀ e model, o.Selects ((o.enrol r g f).poll g) e model ↔
        (o.enrol r g f).Selects ((o.enrol r g f).poll g) e model := by
      refine fun e model => ⟨fun hs => ⟨hs.mem, fun x hx hgx => ?_, hs.after, hs.kept, hs.model_eq⟩,
        fun hs => ⟨hs.mem, fun x hx hgx => hs.before x ?_ hgx, hs.after, hs.kept, hs.model_eq⟩⟩
      · rcases mem_executions_enrol.mp hx with hx | rfl
        · exact hs.before x hx hgx
        · rfl
      · exact mem_executions_enrol.mpr (Or.inl hx)
    have htracks := (h.enrol hr).tracks_poll g
    exact ⟨fun e model hs => htracks.chosen e model ((hiff e model).mp hs),
      fun hnone => htracks.kept fun e model hs => hnone e model ((hiff e model).mpr hs)⟩

/-- In every step the status follows the executions. -/
theorem tracks_perform (h : o.Consistent) (a : Action) : o.Tracks (o.perform a).2 := by
  cases a with
  | submit r => simpa using h.tracks_submit r
  | cancel id => exact tracks_cancel id
  | drop g => exact h.tracks_drop g
  | poll g => exact h.tracks_poll g
  | pass millis => exact tracks_of_forall (fun e he => ⟨e, he, rfl, Or.inl rfl⟩) rfl

end Consistent

/-! ## Runs -/

section New

variable {setup : Setup} {memory : Memory} {files : FileSystem} {as before : List Action}
  {a : Action} {name : String}

/-- In the course of the steps `as`, after the steps `before`, the step `a` chose a model. -/
structure SelectsIn (o : Orchestrator) (as before : List Action) (a : Action)
    (model : ModelDescriptor) : Prop where
  comes : before ++ [a] <+: as
  selects : ∃ e, (o.after before).Selects ((o.after before).perform a).2 e model

/-- The last model that was chosen in the course of the steps has this name. -/
def LastSelected (o : Orchestrator) (as : List Action) (name : String) : Prop :=
  ∃ before a model, o.SelectsIn as before a model ∧ model.name = name ∧
    ∀ mid a' model', before ++ [a] <+: mid → ¬ o.SelectsIn as mid a' model'

/-- One more step may be the last to select a model. -/
theorem selectsIn_concat {a' : Action} :
    o.SelectsIn (as ++ [a]) before a' model ↔ o.SelectsIn as before a' model ∨
      (before = as ∧ a' = a ∧ ∃ e, (o.after as).Selects ((o.after as).perform a).2 e model) := by
  constructor
  · rintro ⟨hcomes, hselects⟩
    rcases List.prefix_concat_iff.mp hcomes with heq | hcomes
    · obtain ⟨rfl, ha⟩ := List.append_inj' heq rfl
      obtain rfl : a' = a := by simpa using ha
      exact Or.inr ⟨rfl, rfl, hselects⟩
    · exact Or.inl ⟨hcomes, hselects⟩
  · rintro (⟨hcomes, hselects⟩ | ⟨rfl, rfl, hselects⟩)
    · exact ⟨hcomes.trans (List.prefix_append ..), hselects⟩
    · exact ⟨List.prefix_refl _, hselects⟩

/-- The current model is the one selected last. -/
theorem currentModel_of_lastSelected (h : (new setup memory files).LastSelected as name) :
    ((new setup memory files).after as).board.currentModel = some name := by
  induction as using List.reverseRecOn with
  | nil =>
    obtain ⟨before, a, model, ⟨hcomes, -⟩, -⟩ := h
    simp at hcomes
  | append_singleton as a ih =>
    have hconsistent : ((new setup memory files).after as).Consistent := consistent_after
    have htracks := hconsistent.tracks_perform a
    obtain ⟨before, b, model, hin, rfl, hlast⟩ := h
    rw [after_concat]
    rcases selectsIn_concat.mp hin with hin | ⟨rfl, rfl, e, hselects⟩
    · rw [htracks.kept fun e model hselects => hlast as a model hin.comes
        (selectsIn_concat.mpr (Or.inr ⟨rfl, rfl, e, hselects⟩))]
      exact ih ⟨before, b, model, hin, rfl, fun mid a' model' hmid hin' =>
        hlast mid a' model' hmid (selectsIn_concat.mpr (Or.inl hin'))⟩
    · exact htracks.chosen e model hselects

/-- Of the models that were chosen one is the last. -/
theorem exists_lastSelected (h : o.SelectsIn as before a model) :
    ∃ name, o.LastSelected as name := by
  induction as using List.reverseRecOn generalizing before a model with
  | nil => simpa using h.comes
  | append_singleton as b ih =>
    by_cases hnew : ∃ e model, (o.after as).Selects ((o.after as).perform b).2 e model
    · obtain ⟨e, model, hselects⟩ := hnew
      refine ⟨_, as, b, model, selectsIn_concat.mpr (Or.inr ⟨rfl, rfl, e, hselects⟩), rfl,
        fun mid a' model' hmid hin => ?_⟩
      have hle := hmid.length_le
      have hle' := hin.comes.length_le
      simp only [List.length_append, List.length_singleton] at hle hle'
      omega
    · rcases selectsIn_concat.mp h with h | ⟨-, -, e, hselects⟩
      · obtain ⟨name, before', a', model', hin, hname, hlast⟩ := ih h
        refine ⟨name, before', a', model', selectsIn_concat.mpr (Or.inl hin), hname,
          fun mid c model'' hmid hin' => ?_⟩
        rcases selectsIn_concat.mp hin' with hin' | ⟨-, -, e, hselects⟩
        · exact hlast mid c model'' hmid hin'
        · exact hnew ⟨e, model'', hselects⟩
      · exact absurd ⟨e, model, hselects⟩ hnew

/-- Without a selection there is no current model. -/
theorem currentModel_of_not_selectsIn
    (h : ∀ before a model, ¬ (new setup memory files).SelectsIn as before a model) :
    ((new setup memory files).after as).board.currentModel = none := by
  induction as using List.reverseRecOn with
  | nil => rfl
  | append_singleton as a ih =>
    have hconsistent : ((new setup memory files).after as).Consistent := consistent_after
    have htracks := hconsistent.tracks_perform a
    rw [after_concat, htracks.kept fun e model hselects => h as a model
      (selectsIn_concat.mpr (Or.inr ⟨rfl, rfl, e, hselects⟩))]
    exact ih fun before b model hin => h before b model (selectsIn_concat.mpr (Or.inl hin))

/-- In every run the status lists, in the order of their bytes and each once, the identifiers of
the requests that were admitted and are neither over nor cancelled, and says whether there are any;
when all that were admitted are over there are none. It names the model that was chosen last, and
none as long as none was chosen. -/
theorem exactness (setup : Setup) (memory : Memory) (files : FileSystem) (as : List Action) :
    let start := new setup memory files
    let o := start.after as
    (o.status.activeRequests.Pairwise fun a b => Text.bytes a.text < Text.bytes b.text) ∧
    (∀ id, id ∈ o.status.activeRequests ↔
      ∃ before r g, start.Answered as before (.submit r) (.admitted g) ∧ r.id = id ∧
        o.isOver g = false ∧
        ∀ before', ¬ start.Answered as before' (.cancel id) (.cancelled (some g))) ∧
    (o.status.isProcessing = true ↔ o.status.activeRequests ≠ []) ∧
    ((∀ before r g, start.Answered as before (.submit r) (.admitted g) → o.isOver g = true) →
      o.status.activeRequests = []) ∧
    (∀ name, o.status.currentModel = some name ↔ start.LastSelected as name) ∧
    (o.status.currentModel = none ↔ ∀ before a model, ¬ start.SelectsIn as before a model) := by
  intro start o
  have h : o.Consistent := consistent_after
  have hmem : ∀ id, id ∈ o.status.activeRequests ↔
      ∃ before r g, start.Answered as before (.submit r) (.admitted g) ∧ r.id = id ∧
        o.isOver g = false ∧
        ∀ before', ¬ start.Answered as before' (.cancel id) (.cancelled (some g)) := by
    intro id
    change id ∈ o.board.inFlight.active ↔ _
    simp only [InFlight.mem_active, o, start, mem_entries_iff_admitted]
    constructor
    · rintro ⟨g, ⟨before, r, ha, hid⟩, hover, hcancel⟩
      exact ⟨before, r, g, ha, hid, hover, hcancel⟩
    · rintro ⟨before, r, g, ha, hid, hover, hcancel⟩
      exact ⟨g, ⟨before, r, ha, hid⟩, hover, hcancel⟩
  refine ⟨h.distinct.pairwise_active, hmem, ?_, fun hover => ?_, fun name => ⟨fun hname => ?_,
    currentModel_of_lastSelected⟩, fun hnone before a model hin => ?_,
    currentModel_of_not_selectsIn⟩
  · simp [status]
  · refine List.eq_nil_iff_forall_not_mem.mpr fun id hid => ?_
    obtain ⟨before, r, g, ha, -, hnot, -⟩ := (hmem id).mp hid
    simp [hover before r g ha] at hnot
  · by_cases hin : ∃ before a model, start.SelectsIn as before a model
    · obtain ⟨before, a, model, hin⟩ := hin
      obtain ⟨name', hlast⟩ := exists_lastSelected hin
      have hname' : o.board.currentModel = some name' := currentModel_of_lastSelected hlast
      obtain rfl := Option.some.inj (hname.symm.trans hname')
      exact hlast
    · have hnone : o.board.currentModel = none := currentModel_of_not_selectsIn
        fun before a model h => hin ⟨before, a, model, h⟩
      cases hname.symm.trans hnone
  · obtain ⟨name, hlast⟩ := exists_lastSelected hin
    have hname : o.board.currentModel = some name := currentModel_of_lastSelected hlast
    cases hnone.symm.trans hname

end New

end Orchestrator

end Switchboard
