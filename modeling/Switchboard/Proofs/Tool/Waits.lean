import Mathlib
import Switchboard.Proofs.Tool.Records

/-!
# Tools that are looked after in time

A run is waited for until it has finished or until its limit (`Tool.wait`). Tools in a row that are
looked after no later than they wake begin one after the other with no time lost between them, and
each leaves the record that it leaves alone (`Dispatch.RunsOnTime`). So they are done when the waits
for all of them are over, and the records tell these waits.
-/

namespace Switchboard

namespace Tool

variable {t : Tool} {fs : FileSystem} {ctx : ToolContext} {args : Json}

/-- How long a run is waited for. -/
def wait (t : Tool) (ctx : ToolContext) (args : Json) : Nat :=
  min (t.delay args) ctx.timeoutMillis

/-- A run takes as long as it is waited for. -/
theorem snd_invoke : (t.invoke fs ctx args).2 = t.wait ctx args := by
  rw [invoke_eq]
  rfl

@[simp] theorem toolName_record : (t.record fs ctx args).toolName = t.name :=
  toolName_ofOutcome ..

@[simp] theorem durationMillis_record :
    (t.record fs ctx args).durationMillis = t.wait ctx args := by
  rw [record, snd_invoke]
  cases (t.invoke fs ctx args).1 <;> rfl

/-- A run that is looked after no later than it wakes is waited for as long as it takes, and leaves
the record that it leaves alone. -/
theorem ofOutcome_of_poll {began now : Nat} {outcome : Except ToolFailure Json}
    (hnow : now ≤ began + t.wait ctx args)
    (h : (t.begin fs ctx args began).poll now = some outcome) :
    now = began + t.wait ctx args ∧
      ToolRecord.ofOutcome t.name outcome (now - began) = t.record fs ctx args := by
  have hwait : t.wait ctx args = (t.invoke fs ctx args).2 := snd_invoke.symm
  rw [hwait] at hnow ⊢
  obtain ⟨hwake, rfl⟩ := poll_begin hnow h
  exact ⟨hwake, by rw [record, hwake, Nat.add_sub_cancel_left]⟩

/-- The records of tools that have run alone tell how long each was waited for. -/
theorem map_wait_of_records {tools : List Tool} {records : List ToolRecord}
    (h : List.Forall₂ (fun t record => ∃ fs, record = Tool.record t fs ctx args) tools records) :
    records.map (fun record => (record.toolName, record.durationMillis)) =
      tools.map fun t => (t.name, t.wait ctx args) := by
  induction h with
  | nil => rfl
  | cons hrecord _ ih =>
    obtain ⟨fs, rfl⟩ := hrecord
    rw [List.map_cons, List.map_cons, ih, toolName_record, durationMillis_record]

/-- How long tools in a row are waited for. -/
def totalWait (tools : List Tool) (ctx : ToolContext) (args : Json) : Nat :=
  (tools.map fun t => t.wait ctx args).sum

@[simp] theorem totalWait_nil : totalWait [] ctx args = 0 :=
  rfl

@[simp] theorem totalWait_append (tools tools' : List Tool) :
    totalWait (tools ++ tools') ctx args =
      totalWait tools ctx args + totalWait tools' ctx args := by
  simp [totalWait]

@[simp] theorem totalWait_cons (t : Tool) (tools : List Tool) :
    totalWait (t :: tools) ctx args = t.wait ctx args + totalWait tools ctx args := by
  simp [totalWait]

end Tool

/-! ## Tools in a row -/

namespace Dispatch

variable {d : Dispatch} {ctx : ToolContext} {args : Json} {tools : List Tool}
  {start now : Nat}

/-- Of some tools in a row, begun at the instant `start`, the first have left the records of their
runs, the next began when the waits for these were over and has not been left waiting, and the rest
wait for it. -/
structure RunsOnTime (d : Dispatch) (ctx : ToolContext) (args : Json) (tools : List Tool)
    (start now : Nat) : Prop where
  context_eq : d.context = ctx
  args_eq : d.args = args
  progress : ∃ done rest, tools = done ++ rest ∧
    List.Forall₂ (fun t record => ∃ fs, record = Tool.record t fs ctx args) done d.records ∧
    (d.running = none ∧ rest = [] ∧ start + Tool.totalWait done ctx args ≤ now ∨
      ∃ t fs began, d.running = some (began, t.begin fs ctx args began) ∧ rest = t :: d.queue ∧
        began = start + Tool.totalWait done ctx args ∧ now ≤ began + t.wait ctx args)

/-- The next tool is started on time if those before it left their records on time. -/
theorem runsOnTime_startNext {fs : FileSystem} {done rest : List Tool} {records : List ToolRecord}
    (h : List.Forall₂ (fun t record => ∃ fs, record = Tool.record t fs d.context d.args)
      done records) (hnow : now = start + Tool.totalWait done d.context d.args) :
    (d.startNext fs now records rest).RunsOnTime d.context d.args (done ++ rest) start now := by
  induction rest generalizing done records with
  | nil => exact ⟨rfl, rfl, done, [], rfl, h, Or.inl ⟨rfl, rfl, Nat.le_of_eq hnow.symm⟩⟩
  | cons t rest ih =>
    rw [startNext]
    split
    case h_1 outcome houtcome =>
      obtain ⟨hwait, hrecord⟩ := Tool.ofOutcome_of_poll (Nat.le_add_right _ _) houtcome
      rw [Nat.sub_self] at hrecord
      rw [List.append_cons done]
      refine ih (List.rel_append h (.cons ⟨fs, hrecord⟩ .nil)) ?_
      simp only [Tool.totalWait_append, Tool.totalWait_cons, Tool.totalWait_nil]
      omega
    case h_2 hwaits =>
      exact ⟨rfl, rfl, done, t :: rest, rfl, h,
        Or.inr ⟨t, fs, now, rfl, rfl, hnow, Nat.le_add_right _ _⟩⟩

theorem runsOnTime_start (fs : FileSystem) (ctx : ToolContext) (args : Json) (tools : List Tool)
    (now : Nat) : (Dispatch.start fs ctx args tools now).RunsOnTime ctx args tools now now := by
  have hnone : List.Forall₂ (fun t record => ∃ fs, record = Tool.record t fs ctx args) [] [] := .nil
  exact runsOnTime_startNext (d := { context := ctx, args, queue := tools }) hnone rfl

namespace RunsOnTime

/-- Tools go on to be run on time when they are looked after. -/
theorem poll (h : d.RunsOnTime ctx args tools start now) (fs : FileSystem) :
    (d.poll fs now).RunsOnTime ctx args tools start now := by
  obtain ⟨rfl, rfl, done, rest, rfl, hdone, hrunning⟩ := h
  obtain ⟨hnone, rfl, hover⟩ | ⟨t, fs', began, hrunning, rfl, hbegan, hnow⟩ := hrunning
  · rw [Dispatch.poll, hnone]
    exact ⟨rfl, rfl, done, [], rfl, hdone, Or.inl ⟨hnone, rfl, hover⟩⟩
  · simp only [Dispatch.poll, hrunning]
    split
    case h_1 hwaits =>
      exact ⟨rfl, rfl, done, _, rfl, hdone, Or.inr ⟨t, fs', began, hrunning, rfl, hbegan, hnow⟩⟩
    case h_2 outcome houtcome =>
      obtain ⟨hwait, hrecord⟩ := Tool.ofOutcome_of_poll hnow houtcome
      rw [List.append_cons done]
      refine runsOnTime_startNext (List.rel_append hdone (.cons ⟨fs', hrecord⟩ .nil)) ?_
      simp only [Tool.totalWait_append, Tool.totalWait_cons, Tool.totalWait_nil]
      omega

/-- Tools stay on time while time passes until they wake. -/
theorem pass {later : Nat} (h : d.RunsOnTime ctx args tools start now) (hle : now ≤ later)
    (hwake : ∀ i, d.wake = some i → later ≤ i) : d.RunsOnTime ctx args tools start later := by
  obtain ⟨hctx, hargs, done, rest, htools, hdone, hrunning⟩ := h
  refine ⟨hctx, hargs, done, rest, htools, hdone, ?_⟩
  obtain ⟨hnone, hrest, hover⟩ | ⟨t, fs, began, hrunning, hrest, hbegan, -⟩ := hrunning
  · exact Or.inl ⟨hnone, hrest, Nat.le_trans hover hle⟩
  · refine Or.inr ⟨t, fs, began, hrunning, hrest, hbegan, hwake _ ?_⟩
    rw [wake, hrunning, Option.map_some, Tool.wake_begin, Tool.snd_invoke]

/-- Tools that are done have been waited for, and their records tell how long. -/
theorem of_isDone (h : d.RunsOnTime ctx args tools start now) (hdone : d.isDone = true) :
    d.records.map (fun record => (record.toolName, record.durationMillis)) =
      tools.map (fun t => (t.name, t.wait ctx args)) ∧
    start + Tool.totalWait tools ctx args ≤ now := by
  obtain ⟨-, -, done, rest, rfl, hrecords, ⟨-, rfl, hover⟩ | ⟨t, fs, began, hrunning, -⟩⟩ := h
  · rw [List.append_nil]
    exact ⟨Tool.map_wait_of_records hrecords, hover⟩
  · simp [isDone, hrunning] at hdone

/-- Tools that are not done have not been waited for longer than all of them take. -/
theorem le_of_isDone_eq_false (h : d.RunsOnTime ctx args tools start now)
    (hdone : d.isDone = false) : now ≤ start + Tool.totalWait tools ctx args := by
  obtain ⟨-, -, done, rest, rfl, -, ⟨hnone, -⟩ | ⟨t, fs, began, -, rfl, hbegan, hnow⟩⟩ := h
  · simp [isDone, hnone] at hdone
  · simp only [Tool.totalWait_append, Tool.totalWait_cons]
    omega

end RunsOnTime

end Dispatch

end Switchboard
