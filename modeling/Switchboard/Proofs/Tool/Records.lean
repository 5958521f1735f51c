import Switchboard.Proofs.Registration
import Switchboard.Tool.Scripted

/-!
# The records of tools

A run of a tool ends with its own outcome if it takes no longer than the limit, and with the limit
if it does (`Tool.invoke_eq`). Tools that are run in a row leave one record each, in order, and no
record depends on the others (`dispatchAll_eq`, `independence`). If they are polled late, a run that
takes longer than the limit may have finished all the same; what is left of the rest then still
holds on every schedule (`Dispatch.RunsThrough`).
-/

namespace Switchboard

/-- A scripted tool never says that it has timed out. -/
theorem ToolScript.react_ne_timeout (s : ToolScript) (args : Json) {name : String} {limit : Nat} :
    s.react args ≠ .failure (.timeout name limit) := by
  unfold react
  split
  case isTrue => simp
  case isFalse => split <;> simp

/-! ## One run -/

/-- The ways a run ends. -/
theorem PendingTool.poll_cases {p : PendingTool} {now : Nat} {outcome : Except ToolFailure Json}
    (h : p.poll now = some outcome) :
    p.timed.due ≤ now ∧ outcome = p.outcome ∨
      now < p.timed.due ∧ p.timed.deadline ≤ now ∧
        outcome = .error (.timeout p.toolName p.limit) := by
  unfold poll at h
  split at h
  case h_1 hfinished =>
    exact Or.inl ⟨Timed.progress_eq_finished_iff.mp hfinished, (Option.some.inj h).symm⟩
  case h_2 hexpired =>
    obtain ⟨hdue, hdeadline⟩ := Timed.progress_eq_expired_iff.mp hexpired
    exact Or.inr ⟨hdue, hdeadline, (Option.some.inj h).symm⟩
  case h_3 => cases h

namespace Tool

variable {t : Tool} {fs : FileSystem} {ctx : ToolContext} {args : Json}

/-- A run ends with the outcome of the tool or at the limit, whichever comes first. -/
theorem invoke_eq (t : Tool) (fs : FileSystem) (ctx : ToolContext) (args : Json) :
    t.invoke fs ctx args =
      (if t.delay args ≤ ctx.timeoutMillis then (t.run fs ctx args).outcome t.name
        else .error (.timeout t.name ctx.timeoutMillis),
        min (t.delay args) ctx.timeoutMillis) := by
  by_cases h : t.delay args ≤ ctx.timeoutMillis
  · simp [invoke, begin, PendingTool.poll, Timed.progress, Timed.wake, Timed.start, h]
  · have hlimit : ctx.timeoutMillis ≤ t.delay args := by omega
    simp [invoke, begin, PendingTool.poll, Timed.progress, Timed.wake, Timed.start, h, hlimit]

@[simp] theorem toolName_ofOutcome (tool : String) (outcome : Except ToolFailure Json)
    (millis : Nat) : (ToolRecord.ofOutcome tool outcome millis).toolName = tool := by
  cases outcome <;> rfl

/-- A run is recorded as timed out if it takes longer than the limit, and else only if the tool
itself says so. -/
theorem invoke_eq_timeout_iff :
    (t.invoke fs ctx args).1 = .error (.timeout t.name ctx.timeoutMillis) ↔
      ctx.timeoutMillis < t.delay args ∨
        t.run fs ctx args = .failure (.timeout t.name ctx.timeoutMillis) := by
  rw [invoke_eq]
  by_cases h : t.delay args ≤ ctx.timeoutMillis
  · cases hrun : t.run fs ctx args <;> simp [h, Nat.not_lt.mpr h, ToolReaction.outcome]
  · simp [h, Nat.lt_of_not_le h]

/-- The record that a run leaves behind if it is looked after in time. -/
def record (t : Tool) (fs : FileSystem) (ctx : ToolContext) (args : Json) : ToolRecord :=
  .ofOutcome t.name (t.invoke fs ctx args).1 (t.invoke fs ctx args).2

theorem wake_begin (now : Nat) :
    (t.begin fs ctx args now).timed.wake = now + (t.invoke fs ctx args).2 := by
  simp [invoke_eq, begin, Timed.wake, Timed.start, Nat.add_min_add_left]

/-- A run that has ended no later than it wakes has ended as if it had been alone. -/
theorem poll_begin {now later : Nat} {outcome : Except ToolFailure Json}
    (hlater : later ≤ now + (t.invoke fs ctx args).2)
    (h : (t.begin fs ctx args now).poll later = some outcome) :
    later = now + (t.invoke fs ctx args).2 ∧ outcome = (t.invoke fs ctx args).1 := by
  have hwake : later = now + (t.invoke fs ctx args).2 := by
    refine Nat.le_antisymm hlater (Nat.le_of_not_lt fun hlt => ?_)
    rw [PendingTool.poll_eq_none_iff.mpr (wake_begin now ▸ hlt)] at h
    simp at h
  refine ⟨hwake, ?_⟩
  rw [invoke_eq] at hwake ⊢
  rcases PendingTool.poll_cases h with ⟨hdue, rfl⟩ | ⟨hdue, -, rfl⟩
  · have hin : t.delay args ≤ ctx.timeoutMillis := by
      simp only [begin, Timed.start] at hdue hwake
      omega
    exact (if_pos hin).symm
  · have hout : ¬ t.delay args ≤ ctx.timeoutMillis := by
      simp only [begin, Timed.start] at hdue hwake
      omega
    exact (if_neg hout).symm

/-- A run has ended when it wakes. -/
theorem poll_wake_begin (now : Nat) :
    (t.begin fs ctx args now).poll (now + (t.invoke fs ctx args).2) =
      some (t.invoke fs ctx args).1 := by
  cases h : (t.begin fs ctx args now).poll (now + (t.invoke fs ctx args).2) with
  | none =>
    rw [PendingTool.poll_eq_none_iff, wake_begin] at h
    exact absurd h (Nat.lt_irrefl _)
  | some outcome => rw [(poll_begin (Nat.le_refl _) h).2]

/-- The records that a run can leave behind: of its own outcome if it has finished when it is looked
after, and of the limit if that has come and the run has not finished. -/
inductive Leaves (t : Tool) (ctx : ToolContext) (args : Json) : ToolRecord → Prop where
  | finished (fs : FileSystem) {millis : Nat} (h : t.delay args ≤ millis) :
    Leaves t ctx args (.ofOutcome t.name ((t.run fs ctx args).outcome t.name) millis)
  | expired {millis : Nat} (h : ctx.timeoutMillis ≤ millis) (h' : millis < t.delay args) :
    Leaves t ctx args (.ofOutcome t.name (.error (.timeout t.name ctx.timeoutMillis)) millis)

/-- However late a run is looked after, it leaves such a record. -/
theorem leaves_of_poll {began later : Nat} {outcome : Except ToolFailure Json}
    (h : (t.begin fs ctx args began).poll later = some outcome) :
    t.Leaves ctx args (.ofOutcome t.name outcome (later - began)) := by
  rcases PendingTool.poll_cases h with ⟨hdue, rfl⟩ | ⟨hdue, hdeadline, rfl⟩
  · simp only [begin, Timed.start] at hdue
    exact .finished fs (by omega)
  · simp only [begin, Timed.start] at hdue hdeadline
    exact .expired (by omega) (by omega)

theorem Leaves.toolName_eq {record : ToolRecord} (h : t.Leaves ctx args record) :
    record.toolName = t.name := by
  cases h <;> exact toolName_ofOutcome ..

theorem map_toolName_of_leaves {tools : List Tool} {records : List ToolRecord}
    (h : List.Forall₂ (fun t record => t.Leaves ctx args record) tools records) :
    records.map (·.toolName) = tools.map Tool.name := by
  induction h with
  | nil => rfl
  | cons hleaves _ ih => rw [List.map_cons, List.map_cons, hleaves.toolName_eq, ih]

end Tool

namespace Dispatch

variable {d : Dispatch} {fs : FileSystem} {now : Nat}

/-- Tools that are looked after in time leave the records of their runs. -/
theorem finish_startNext (fs : FileSystem) (tools : List Tool) (d : Dispatch) (fuel now : Nat)
    (records : List ToolRecord) (hfuel : tools.length ≤ fuel) :
    (finish fs fuel now (d.startNext fs now records tools)).1 =
      { d with
        running := none, queue := []
        records := records ++ tools.map fun t => t.record fs d.context d.args } := by
  induction tools generalizing d fuel now records with
  | nil => cases fuel <;> simp [startNext, finish, wake]
  | cons t rest ih =>
    rw [List.length_cons] at hfuel
    rw [startNext]
    split
    case h_1 outcome houtcome =>
      have hends := Tool.poll_begin (Nat.le_add_right _ _) houtcome
      have hrecord : ToolRecord.ofOutcome t.name outcome 0 = t.record fs d.context d.args := by
        rw [Tool.record, hends.2, show (t.invoke fs d.context d.args).2 = 0 by omega]
      rw [ih d fuel now _ (by omega), hrecord, List.append_assoc, List.map_cons,
        List.singleton_append]
    case h_2 hwaits =>
      obtain ⟨fuel, rfl⟩ : ∃ n, fuel = n + 1 := ⟨fuel - 1, by omega⟩
      have hname : (t.begin fs d.context d.args now).toolName = t.name := rfl
      simp only [finish, wake, Option.map_some, Tool.wake_begin, poll, Tool.poll_wake_begin,
        Nat.add_sub_cancel_left, hname]
      rw [ih _ fuel _ _ (by omega), ← Tool.record, List.append_assoc, List.map_cons,
        List.singleton_append]

/-- Looked after in time, tools leave one record each, in their order. -/
theorem finish_start (fs : FileSystem) (ctx : ToolContext) (args : Json) (tools : List Tool) :
    (finish fs tools.length 0 (.start fs ctx args tools 0)).1 =
      { context := ctx, args, queue := [], records := tools.map fun t => t.record fs ctx args } :=
  finish_startNext fs tools _ _ _ [] (Nat.le_refl _)

/-! ## Runs that are looked after late -/

/-- Only tools that were started leave records. -/
theorem toolNames_prefix_started_startNext (d : Dispatch) (fs : FileSystem) (now : Nat)
    (records : List ToolRecord) (tools : List Tool) :
    records.map (·.toolName) <+: (d.startNext fs now records tools).started := by
  induction tools generalizing records with
  | nil => simp [startNext, started]
  | cons t rest ih =>
    rw [startNext]
    split
    case h_1 outcome houtcome =>
      refine List.IsPrefix.trans ?_ (ih _)
      rw [List.map_append]
      exact List.prefix_append _ _
    case h_2 hwaits => exact List.prefix_append _ _

/-- A tool that has been started stays so. -/
theorem started_prefix_poll (d : Dispatch) (fs : FileSystem) (now : Nat) :
    d.started <+: (d.poll fs now).started := by
  unfold poll
  split
  case h_1 => exact List.prefix_refl _
  case h_2 began p hrunning =>
    split
    case h_1 => exact List.prefix_refl _
    case h_2 outcome houtcome =>
      have hstarted : d.started =
          (d.records ++ [ToolRecord.ofOutcome p.toolName outcome (now - began)]).map
            (·.toolName) := by
        simp [started, hrunning]
      rw [hstarted]
      exact toolNames_prefix_started_startNext ..

/-- Of some tools in a row the first have left their records, the next is being run and the rest
wait for it. -/
structure RunsThrough (d : Dispatch) (ctx : ToolContext) (args : Json) (tools : List Tool) :
    Prop where
  context_eq : d.context = ctx
  args_eq : d.args = args
  progress : ∃ done rest, tools = done ++ rest ∧
    List.Forall₂ (fun t record => t.Leaves ctx args record) done d.records ∧
    (d.running = none ∧ rest = [] ∨
      ∃ t fs began, d.running = some (began, t.begin fs ctx args began) ∧ rest = t :: d.queue)

theorem runsThrough_startNext {done rest : List Tool} {records : List ToolRecord}
    (h : List.Forall₂ (fun t record => t.Leaves d.context d.args record) done records) :
    (d.startNext fs now records rest).RunsThrough d.context d.args (done ++ rest) := by
  induction rest generalizing done records with
  | nil => exact ⟨rfl, rfl, done, [], rfl, h, Or.inl ⟨rfl, rfl⟩⟩
  | cons t rest ih =>
    rw [startNext]
    split
    case h_1 outcome houtcome =>
      rw [List.append_cons done]
      have hleaves := Tool.leaves_of_poll houtcome
      rw [Nat.sub_self] at hleaves
      exact ih (List.rel_append h (.cons hleaves .nil))
    case h_2 hwaits => exact ⟨rfl, rfl, done, t :: rest, rfl, h, Or.inr ⟨t, fs, now, rfl, rfl⟩⟩

theorem runsThrough_start (fs : FileSystem) (ctx : ToolContext) (args : Json) (tools : List Tool)
    (now : Nat) : (start fs ctx args tools now).RunsThrough ctx args tools := by
  have hnone : List.Forall₂ (fun t record => Tool.Leaves t ctx args record) [] [] := .nil
  exact runsThrough_startNext (d := { context := ctx, args, queue := tools }) hnone

namespace RunsThrough

variable {ctx : ToolContext} {args : Json} {tools : List Tool}

/-- Tools go on to be run in a row, whenever they are looked after. -/
theorem poll (h : d.RunsThrough ctx args tools) (fs : FileSystem) (now : Nat) :
    (d.poll fs now).RunsThrough ctx args tools := by
  obtain ⟨rfl, rfl, done, rest, rfl, hdone, hrunning⟩ := h
  obtain ⟨hnone, rfl⟩ | ⟨t, fs', began, hrunning, rfl⟩ := hrunning
  · rw [Dispatch.poll, hnone]
    exact ⟨rfl, rfl, done, [], rfl, hdone, Or.inl ⟨hnone, rfl⟩⟩
  · simp only [Dispatch.poll, hrunning]
    split
    case h_1 hwaits => exact ⟨rfl, rfl, done, _, rfl, hdone, Or.inr ⟨t, fs', began, hrunning, rfl⟩⟩
    case h_2 outcome houtcome =>
      rw [List.append_cons done]
      have hdone' := List.rel_append hdone (.cons (Tool.leaves_of_poll houtcome) .nil)
      exact runsThrough_startNext hdone'

/-- Tools that have all been run have left their records in order. -/
theorem leaves_of_isDone (h : d.RunsThrough ctx args tools) (hdone : d.isDone = true) :
    List.Forall₂ (fun t record => t.Leaves ctx args record) tools d.records := by
  obtain ⟨-, -, done, rest, rfl, hleaves, ⟨-, rfl⟩ | ⟨t, fs, began, hrunning, -⟩⟩ := h
  · rwa [List.append_nil]
  · simp [isDone, hrunning] at hdone

/-- Tools that have all been run have been started once each. -/
theorem started_eq (h : d.RunsThrough ctx args tools) (hdone : d.isDone = true) :
    d.started = tools.map Tool.name := by
  have hnone : d.running = none := Option.isNone_iff_eq_none.mp hdone
  simp [started, hnone, Tool.map_toolName_of_leaves (h.leaves_of_isDone hdone)]

end RunsThrough

end Dispatch

namespace ToolRegistry

variable {r : ToolRegistry} {fs : FileSystem} {ctx : ToolContext} {args : Json}

/-- A dispatch leaves the records of the eligible tools, in their order. -/
theorem dispatchAll_eq (r : ToolRegistry) (fs : FileSystem) (ctx : ToolContext)
    (kind : RequestKind) (args : Json) :
    r.dispatchAll fs ctx kind args = (r.eligible kind).map fun t => t.record fs ctx args := by
  simp only [dispatchAll, Dispatch.finish_start]

/-- A registered tool is run by its name. -/
theorem invoke_of_mem (hr : (r.tools.map Tool.name).Nodup) {t : Tool} (ht : t ∈ r.tools) :
    r.invoke fs ctx t.name args = t.invoke fs ctx args := by
  have hfind : r.tool? t.name = some t := (Registration.find?_eq_some_iff hr).mpr ⟨ht, rfl⟩
  rw [ToolRegistry.invoke, hfind]

/-- A tool is eligible exactly if it is registered, enabled, capable and available. -/
theorem mem_eligible_iff {kind : RequestKind} {t : Tool} :
    t ∈ r.eligible kind ↔ t ∈ r.tools ∧ (∀ names ∈ r.enabled, t.name ∈ names) ∧
      (∃ c ∈ (r.table.required kind).tags, c ∈ t.descriptor.capabilities.tags) ∧
      t.available = true := by
  have henabled : r.isEnabled t.name = true ↔ ∀ names ∈ r.enabled, t.name ∈ names := by
    cases h : r.enabled <;> simp [isEnabled, h]
  simp [eligible, isDispatched, henabled, EligibilityTable.isEligible, CapabilitySet.intersects,
    CapabilitySet.contains, and_assoc]

/-- A registry that has taken in tools one after the other runs, in the order of registration, those
that are enabled, available and share a tag with what the kind requires, each of them once. Each
leaves the record of the outcome that it has when it is run alone by its name. That is its own
outcome if it takes no longer than the limit, and the limit otherwise. -/
theorem independence (enabled : Option (List String)) (table : EligibilityTable)
    (tools : List Tool) (fs : FileSystem) (ctx : ToolContext) (kind : RequestKind) (args : Json) :
    let r := registerAll { enabled, table } tools
    let records := r.dispatchAll fs ctx kind args
    let finished := (Dispatch.finish fs (r.eligible kind).length 0
      (.start fs ctx args (r.eligible kind) 0)).1
    (r.tools.Sublist tools ∧ (r.tools.map Tool.name).Nodup) ∧
    ((r.eligible kind).Sublist r.tools ∧ ∀ t, t ∈ r.eligible kind ↔ t ∈ r.tools ∧
      (∀ names ∈ enabled, t.name ∈ names) ∧
      (∃ c ∈ (table.required kind).tags, c ∈ t.descriptor.capabilities.tags) ∧
      t.available = true) ∧
    (finished.isDone = true ∧ finished.records = records ∧
      finished.started = (r.eligible kind).map Tool.name) ∧
    (records = (r.eligible kind).map fun t =>
      .ofOutcome t.name (r.invoke fs ctx t.name args).1 (r.invoke fs ctx t.name args).2) ∧
    (∀ record ∈ records, record.result.isSome = !record.error.isSome) ∧
    (∀ t ∈ r.tools,
      (r.invoke fs ctx t.name args).2 = min (t.delay args) ctx.timeoutMillis ∧
      (t.delay args ≤ ctx.timeoutMillis →
        (r.invoke fs ctx t.name args).1 = (t.run fs ctx args).outcome t.name) ∧
      (ctx.timeoutMillis < t.delay args →
        (r.invoke fs ctx t.name args).1 = .error (.timeout t.name ctx.timeoutMillis))) ∧
    ∀ script : ToolScript, script.toTool ∈ r.tools →
      ((r.invoke fs ctx script.name args).1 = .error (.timeout script.name ctx.timeoutMillis) ↔
        ctx.timeoutMillis < script.delay) := by
  intro r records finished
  have hnodup : (r.tools.map Tool.name).Nodup := nodup_registerAll rfl tools
  have hinvoke : ∀ t ∈ r.tools, r.invoke fs ctx t.name args = t.invoke fs ctx args := fun t ht =>
    invoke_of_mem hnodup ht
  have hrecords : records = (r.eligible kind).map fun t => t.record fs ctx args :=
    dispatchAll_eq ..
  have hfinished : finished = _ := Dispatch.finish_start fs ctx args (r.eligible kind)
  have hr : r.enabled = enabled ∧ r.table = table := by simp [r, registerAll_eq]
  refine ⟨⟨registerAll_sublist rfl tools, hnodup⟩, ⟨List.filter_sublist, fun t => ?_⟩,
    ⟨?_, rfl, ?_⟩, ?_, ?_, fun t ht => ?_, fun script hscript => ?_⟩
  · rw [mem_eligible_iff, hr.1, hr.2]
  · rw [hfinished]
    rfl
  · rw [hfinished]
    simp [Dispatch.started, Tool.record]
  · rw [hrecords]
    refine List.map_congr_left fun t ht => ?_
    rw [hinvoke t (List.mem_of_mem_filter ht), Tool.record]
  · rw [hrecords]
    simp only [List.forall_mem_map, Tool.record]
    intro t ht
    cases (t.invoke fs ctx args).1 <;> rfl
  · rw [hinvoke t ht, Tool.invoke_eq]
    exact ⟨rfl, fun h => if_pos h, fun h => if_neg (Nat.not_le.mpr h)⟩
  · have hname : script.toTool.name = script.name := rfl
    rw [← hname, hinvoke _ hscript, Tool.invoke_eq_timeout_iff]
    exact or_iff_left (script.react_ne_timeout args)

end ToolRegistry

end Switchboard
