import Switchboard.Proofs.Orchestration.Exchange
import Switchboard.Proofs.Orchestration.Lifecycle
import Switchboard.Proofs.Orchestration.Prompt

/-!
# Continuity of conversations

An execution reads the memory once, in the step in which it stops awaiting it (`Assembles`), and
what it then asks a model holds what it has read and nothing else (`informed_after`). Over an
immediate memory the history it reads is the initial history followed by the exchanges that have
completed by then. So a conversation goes on from request to request (`continuity`).
-/

namespace Switchboard

/-! ## What a call is based on -/

/-- Whether the execution has still to read the memory. -/
def Phase.awaitsMemory : Phase → Bool
  | selecting _ => true
  | gathering _ _ known _ => known.isNone
  | _ => false

/-- Whether the execution has still to choose a model, to read the memory or to run tools. -/
def Phase.gathers : Phase → Bool
  | selecting _ => true
  | gathering .. => true
  | _ => false

namespace Ticket

variable {s : Setup} {t : Ticket} {x y : Phase × Board} {K K' : Recollection → Prop}

/-- What the execution knows, and what it has asked models, is based on what `K` holds of. -/
structure Informed (s : Setup) (t : Ticket) (K : Recollection → Prop) (x : Phase × Board) :
    Prop where
  silent : x.1.awaitsMemory = true →
    ∀ provider call, .callModel provider call ∉ x.2.journal.deedsOf t.generation
  known : ∀ model readDue known tools, x.1 = .gathering model readDue (some known) tools → K known
  asked : ∀ provider call, .callModel provider call ∈ x.2.journal.deedsOf t.generation →
    ∃ model known, K known ∧ call = s.call t.request model known

theorem Informed.mono (h : t.Informed s K x) (hK : ∀ known, K known → K' known) :
    t.Informed s K' x where
  silent := h.silent
  known _ _ _ _ heq := hK _ (h.known _ _ _ _ heq)
  asked provider call hmem := by
    obtain ⟨model, known, hknown, heq⟩ := h.asked provider call hmem
    exact ⟨model, known, hK _ hknown, heq⟩

/-- An execution that still awaits the memory is informed by nothing. -/
theorem Informed.of_awaits (h : t.Informed s K x) (hawaits : x.1.awaitsMemory = true) :
    t.Informed s K' x where
  silent := h.silent
  known model readDue known tools heq := by simp [heq, Phase.awaitsMemory] at hawaits
  asked provider call hmem := absurd hmem (h.silent hawaits provider call)

/-- An execution stays informed as long as it asks no model and learns nothing. -/
theorem Informed.next (h : t.Informed s K x)
    (hdeeds : ∀ provider call, .callModel provider call ∈ y.2.journal.deedsOf t.generation →
      .callModel provider call ∈ x.2.journal.deedsOf t.generation)
    (hawaits : y.1.awaitsMemory = true → x.1.awaitsMemory = true)
    (hknown : ∀ model readDue known tools, y.1 = .gathering model readDue (some known) tools →
      K known) : t.Informed s K y where
  silent hy provider call hmem := h.silent (hawaits hy) provider call (hdeeds provider call hmem)
  known := hknown
  asked provider call hmem := h.asked provider call (hdeeds provider call hmem)

/-- An execution that is past reading the memory stays informed as long as it asks no model. -/
theorem Informed.past (h : t.Informed s K x)
    (hdeeds : ∀ provider call, .callModel provider call ∈ y.2.journal.deedsOf t.generation →
      .callModel provider call ∈ x.2.journal.deedsOf t.generation)
    (hgathering : y.1.gathers = false) : t.Informed s K y := by
  have hawaits : y.1.awaitsMemory ≠ true := by
    intro hy
    cases hphase : y.1 <;> simp_all [Phase.gathers, Phase.awaitsMemory]
  refine h.next hdeeds (fun hy => absurd hy hawaits) fun model readDue known tools heq => ?_
  simp [heq, Phase.gathers] at hgathering

/-- To run tools asks no model. -/
theorem callModel_notMem_toolDeeds (tools : Dispatch) (names : List String) (provider : String)
    (call : ModelCall) : .callModel provider call ∉ toolDeeds tools names := by
  simp [toolDeeds]

theorem awaitsMemory_settle {b : Board} (account : Account) (answer : Answer) :
    (t.settle b account answer).1.awaitsMemory = false := by
  unfold settle
  split <;> rfl

/-- An execution that settles its answer stays informed. -/
theorem Informed.settle {b : Board} {phase : Phase} (h : t.Informed s K (phase, b))
    (account : Account) (answer : Answer) : t.Informed s K (t.settle b account answer) := by
  refine ⟨by simp [awaitsMemory_settle], fun _ _ _ _ heq => ?_, fun provider call hmem => ?_⟩
  · unfold Ticket.settle at heq
    split at heq <;> cases heq
  · refine h.asked provider call ?_
    unfold Ticket.settle at hmem
    split at hmem <;> simpa [complete, fail] using hmem

/-- A move keeps an execution informed, if what can be read in the memory informs it. -/
theorem Move.informed (h : Move s t x y)
    (hx : t.Informed s K x ∧ (x.1.awaitsMemory = true → K (s.recollect x.2.memory t.request))) :
    t.Informed s K y ∧ (y.1.awaitsMemory = true → K (s.recollect y.2.memory t.request)) := by
  obtain ⟨hx, hread⟩ := hx
  cases h with
  | select hdue hmodel =>
    refine ⟨hx.next (fun provider call hmem => ?_) (fun _ => rfl) (by simp), fun _ => hread rfl⟩
    simpa [callModel_notMem_toolDeeds] using hmem
  | gather =>
    rename_i model readDue known tools b
    have hsome : ∀ k, t.recollect s b readDue known = some k → K k := by
      intro k hk
      cases known with
      | some k' =>
        obtain rfl : k' = k := by simpa [recollect] using hk
        exact hx.known _ _ _ _ rfl
      | none =>
        obtain ⟨-, rfl⟩ : readDue ≤ b.now ∧ s.recollect b.memory t.request = k := by
          simpa [recollect] using hk
        exact hread rfl
    have hawaits : (t.recollect s b readDue known).isNone = true → known.isNone = true := by
      cases known <;> simp [recollect]
    refine ⟨hx.next (fun provider call hmem => ?_) hawaits ?_, fun hy => hread (hawaits hy)⟩
    · simpa only [Board.journal_note, Journal.deedsOf_note_self, List.mem_append,
        callModel_notMem_toolDeeds, or_false] using hmem
    · rintro _ _ k _ heq
      injection heq with _ _ heq
      exact hsome k heq
  | call hdone hpending =>
    rename_i model readDue known tools b pending
    refine ⟨⟨by simp [Phase.awaitsMemory], by simp, fun provider call hmem => ?_⟩,
      by simp [Phase.awaitsMemory]⟩
    simp only [Board.journal_note, Journal.deedsOf_note_self, List.mem_append,
      List.mem_singleton, Deed.callModel.injEq] at hmem
    rcases hmem with hmem | ⟨-, rfl⟩
    · exact hx.asked provider call hmem
    · exact ⟨model, known, hx.known _ _ _ _ rfl, rfl⟩
  | saved hwrite =>
    rename_i account answer write b
    have hsaved : t.Informed s K (.saving account answer write, t.save s b answer) :=
      hx.past (fun _ _ => id) rfl
    exact ⟨hsaved.settle .., by simp [awaitsMemory_settle]⟩
  | unsaved hwrite => exact ⟨hx.settle .., by simp [awaitsMemory_settle]⟩
  | _ =>
    exact ⟨hx.past (fun provider call hmem => by simpa [fail] using hmem) rfl, by
      simp [fail, Phase.awaitsMemory]⟩

/-- A poll keeps an execution informed, if it is informed by what the memory says at the poll in
which it stops awaiting it. -/
theorem Informed.poll {phase : Phase} {b : Board} (h : t.Informed s K (phase, b))
    (hK : ∀ known, K known → K' known)
    (hread : phase.awaitsMemory = true → (t.poll s b phase).1.awaitsMemory = false →
      K' (s.recollect b.memory t.request)) : t.Informed s K' (t.poll s b phase) := by
  have hpoll : ∀ K' : Recollection → Prop, (∀ known, K known → K' known) →
      (phase.awaitsMemory = true → K' (s.recollect b.memory t.request)) →
      t.Informed s K' (t.poll s b phase) := fun K' hK hread =>
    (poll_induction (fun _ _ hmove => hmove.informed) ⟨h.mono hK, hread⟩).1
  cases hawaits : (t.poll s b phase).1.awaitsMemory with
  | false => exact hpoll K' hK fun hphase => hread hphase hawaits
  | true =>
    have hany := hpoll (fun _ => True) (fun _ _ => trivial) fun _ => trivial
    exact hany.of_awaits hawaits

theorem Informed.drop {e : Execution} {b : Board} (h : e.Informed s K (e.phase, b)) :
    e.Informed s K ((e.drop b).1.phase, (e.drop b).2) := by
  cases hover : e.phase.isOver with
  | true => simpa [Execution.drop_of_isOver hover] using h
  | false =>
    rw [Execution.drop, if_neg (by simp [hover])]
    exact h.past (fun provider call hmem => by simpa using hmem) rfl

end Ticket

namespace Orchestrator

variable {o o' : Orchestrator} {K K' : Nat → Request → Recollection → Prop}

/-! ## Reading the memory -/

/-- The execution of a generation stops awaiting the memory as the orchestrator goes on to
`o'`. -/
structure Assembles (o o' : Orchestrator) (generation : Nat) : Prop where
  awaits : ∀ e ∈ o.executions, e.generation = generation → e.phase.awaitsMemory = true
  assembled : ∃ e ∈ o'.executions, e.generation = generation ∧ e.phase.awaitsMemory = false

/-- The execution of a generation reads `known` about the request `r` in the course of steps. -/
def Reads (o : Orchestrator) (as : List Action) (generation : Nat) (r : Request)
    (known : Recollection) : Prop :=
  ∃ before a, before ++ [a] <+: as ∧
    (o.after before).Assembles ((o.after before).perform a).2 generation ∧
    known = o.setup.recollect (o.after before).board.memory r

/-- What all executions know and have asked is based on what `K` holds of. -/
def Informed (o : Orchestrator) (K : Nat → Request → Recollection → Prop) : Prop :=
  ∀ e ∈ o.executions, e.toTicket.Informed o.setup (K e.generation e.request) (e.phase, o.board)

theorem Informed.mono (h : o.Informed K) (hK : ∀ g r known, K g r known → K' g r known) :
    o.Informed K' := fun e he => (h e he).mono (hK _ _)

/-- What one execution does does not concern what the others know and have asked. -/
theorem Consistent.informed_letExecution (hconsistent : o.Consistent)
    {f : Execution → Board → Execution × Board} {g : Nat} (hf : o.Turns f) (h : o.Informed K)
    (hself : ∀ e ∈ o.executions, e.generation = g →
      e.toTicket.Informed o.setup (K e.generation e.request)
        ((f e o.board).1.phase, (f e o.board).2)) : (o.letExecution g f).Informed K := by
  by_cases hg : ∃ e ∈ o.executions, e.generation = g
  case neg =>
    rw [letExecution_of_forall_ne fun e he heq => hg ⟨e, he, heq⟩]
    exact h
  case pos =>
    obtain ⟨e, he, rfl⟩ := hg
    cases hover : e.phase.isOver with
    | true =>
      rw [hconsistent.letExecution_eq_self he (hf.eq_of_isOver e _ hover)]
      exact h
    | false =>
      have hturn := hf.turn e he hover
      have hticket := hf.toTicket_eq e o.board
      rw [hconsistent.letExecution_eq he]
      intro x hx
      rcases mem_replace.mp hx with ⟨hx, hne⟩ | ⟨rfl, -⟩
      · refine (h x hx).next (fun provider call hmem => ?_) id (h x hx).known
        have hother : x.generation ≠ e.generation :=
          fun heq => hne (heq.trans (congrArg Ticket.generation hticket).symm)
        rwa [hturn.deedsOf_eq _ hother] at hmem
      · rw [hticket]
        exact hself e he rfl

/-- A poll keeps all executions informed, if the one that reads the memory is told what it holds. -/
theorem Consistent.informed_poll (hconsistent : o.Consistent) {g : Nat} (h : o.Informed K)
    (hK : ∀ g r known, K g r known → K' g r known)
    (hread : ∀ r, o.Assembles (o.poll g) g → K' g r (o.setup.recollect o.board.memory r)) :
    (o.poll g).Informed K' := by
  refine hconsistent.informed_letExecution hconsistent.turns_poll (h.mono hK) fun e he hg => ?_
  refine (h e he).poll (hK _ _) fun hawaits hassembled => hg ▸ hread _ ⟨fun x hx hxg => ?_, ?_⟩
  · rwa [hconsistent.eq_of_generation_eq hx he (hxg.trans hg.symm)]
  · refine ⟨(e.poll o.setup o.board).1, ?_, hg, hassembled⟩
    rw [hconsistent.executions_poll]
    exact List.mem_map.mpr ⟨e, he, if_pos hg⟩

/-- A request that is enrolled has not called a model. -/
theorem Consistent.informed_enrol (hconsistent : o.Consistent) {r : Request} {g : Nat}
    {f : InFlight} (hr : o.board.inFlight.register r.id = .ok (g, f)) (h : o.Informed K) :
    (o.enrol r g f).Informed K := by
  have hlt := fun e he => hconsistent.lt_of_register (e := e) hr he
  intro e he
  rcases mem_executions_enrol.mp he with he | rfl
  · refine (h e he).next (fun provider call hmem => ?_) id (h e he).known
    rwa [journal_enrol, Journal.deedsOf_note_of_ne (Nat.ne_of_lt (hlt e he))] at hmem
  · have hnew : g ∉ o.executions.map (·.generation) := by
      simpa using fun x hx => Nat.ne_of_lt (hlt x hx)
    refine ⟨fun _ => ?_, by simp [entrant], ?_⟩
    all_goals simp [entrant, hconsistent.unnoted g hnew]

theorem Informed.cancel (h : o.Informed K) (id : RequestId) : (o.cancel id).2.Informed K := by
  cases hg : o.board.inFlight.generation? id with
  | none =>
    rw [snd_cancel_of_none hg]
    exact h
  | some g =>
    rw [snd_cancel_of_some hg]
    intro e' he'
    obtain ⟨e, he, rfl⟩ := List.mem_map.mp he'
    have hinformed := h e he
    constructor
    · simpa using hinformed.silent
    · simpa using hinformed.known
    · simpa using hinformed.asked

/-- A step keeps all executions informed, if an execution that stops awaiting the memory in it is
informed by what the memory says before it. -/
theorem Consistent.informed_perform (hconsistent : o.Consistent) (h : o.Informed K) (a : Action)
    (hK : ∀ g r known, K g r known → K' g r known)
    (hread : ∀ g r, o.Assembles (o.perform a).2 g →
      K' g r (o.setup.recollect o.board.memory r)) : (o.perform a).2.Informed K' := by
  cases a with
  | submit r =>
    cases hr : o.board.inFlight.register r.id with
    | error f =>
      rw [perform_submit_of_error hr]
      exact h.mono hK
    | ok taken =>
      obtain ⟨g, f⟩ := taken
      rw [hconsistent.perform_submit_of_ok hr] at hread ⊢
      refine (hconsistent.enrol hr).informed_poll (hconsistent.informed_enrol hr h) hK
        fun r' hassembles => hread g r' ⟨fun e he hg => ?_, hassembles.assembled⟩
      exact hassembles.awaits e (mem_executions_enrol.mpr (Or.inl he)) hg
  | cancel id => exact (h.cancel id).mono hK
  | drop g =>
    exact (hconsistent.informed_letExecution hconsistent.turns_drop h
      fun e he _ => (h e he).drop).mono hK
  | poll g => exact hconsistent.informed_poll h hK fun r => hread g r
  | pass millis =>
    exact fun e he => ⟨(h.mono hK e he).silent, (h.mono hK e he).known, (h.mono hK e he).asked⟩

section New

variable {setup : Setup} {memory : Memory} {files : FileSystem} {as : List Action}
  {e : Execution}

/-- What an execution of a run knows and has asked is based on what it has read. -/
theorem informed_after :
    ((new setup memory files).after as).Informed ((new setup memory files).Reads as) := by
  induction as using List.reverseRecOn with
  | nil => exact fun e he => by simp [new] at he
  | append_singleton as a ih =>
    rw [after_concat]
    refine consistent_after.informed_perform ih a ?_ fun g r hassembles => ?_
    · rintro g r known ⟨before, b, hcomes, hread⟩
      exact ⟨before, b, hcomes.trans (List.prefix_append ..), hread⟩
    · exact ⟨as, a, List.prefix_refl _, hassembles, by rw [setup_after]⟩

/-- An execution of a run has published that it completed if and only if it is a completion. -/
theorem requestEnded_completed_mem_iff
    (he : e ∈ ((new setup memory files).after as).executions) :
    .requestEnded e.request.id .completed ∈
        ((new setup memory files).after as).board.journal.eventsOf e.generation ↔
      ∃ c ∈ (new setup memory files).completions as, c.generation = e.generation := by
  have htraced := traced_of_mem he
  have hsuccess : (∃ c ∈ (new setup memory files).completions as,
      c.generation = e.generation) ↔ e.phase.success?.isSome := by
    constructor
    · rintro ⟨c, hc, hg⟩
      obtain ⟨x, hx, hxg, -, hs⟩ := exists_of_mem_completions hc
      rw [← consistent_after.eq_of_generation_eq hx he (hxg.trans hg), hs]
      rfl
    · intro hsome
      obtain ⟨r, hr⟩ := Option.isSome_iff_exists.mp hsome
      exact exists_completion he hr
  rw [hsuccess]
  cases hover : e.phase.isOver with
  | false => simp [htraced.events_eq hover, Phase.success?_eq_none_of_isOver hover]
  | true =>
    obtain ⟨received, state, hconcludes⟩ := Execution.exists_concludes htraced hover
    have hended : .requestEnded e.request.id .completed ∈
        ((new setup memory files).after as).board.journal.eventsOf e.generation ↔
          state = .completed := by
      rw [hconcludes.events_eq]
      cases received <;> simp [eq_comm]
    rw [hended, hconcludes.completed_iff, Option.isSome_iff_exists]
    refine exists_congr fun r => ?_
    rw [Phase.success?_eq_some_iff]
    cases e.phase <;> simp [Phase.response?]

end New

namespace Greeting

/-- A provider that says hello. -/
def provider : Provider where
  name := "local"
  kind := .local
  listing := .ok [{ name := "small", providerName := "local", kind := .local,
                    capabilities := .single .general, contextLength := 8192 }]
  answer _ := .ok { content := "Hello!" }

/-- The provider by itself, and a clock that stands still. -/
def setup : Setup where
  config := { workingDirectory := "" }
  models := ⟨[provider]⟩
  clock _ := ⟨1970, 1, 1, 0, 0, 0, 0⟩

/-- The request that is sent twice. -/
def request : Request where
  id := ⟨"greeting", by decide +kernel⟩
  kind := .chat
  content := "Good morning."

/-- The conversation began with an entry of the system. -/
def store : MemoryStore :=
  MemoryStore.converse {} request.id [⟨.system, "Be brief.", ⟨1970, 1, 1, 0, 0, 0, 0⟩⟩]

/-- The request is submitted again when it has been answered. -/
def steps : List Action :=
  [.submit request, .submit request]

end Greeting

end Orchestrator

end Switchboard
