import Switchboard.Tool.Registry

/-!
# Waiting for tools

The number of waits that tools run in a row still need (`waits`) is at most the number of the
tools, and whenever they are polled at the instant for which they wait, it is smaller than before.
-/

namespace Switchboard.Dispatch

variable {d : Dispatch} {fs : FileSystem} {now : Nat}

theorem waits_startNext_le (records : List ToolRecord) (tools : List Tool) :
    (d.startNext fs now records tools).waits ≤ tools.length := by
  induction tools generalizing records with
  | nil => simp [startNext, waits, isDone]
  | cons t rest ih =>
    rw [startNext]
    split
    case h_1 outcome h => exact Nat.le_succ_of_le (ih _)
    case h_2 h => simp [waits, isDone]

/-- A dispatch waits for each tool at most once. -/
theorem waits_start_le (context : ToolContext) (args : Json) (tools : List Tool) :
    (start fs context args tools now).waits ≤ tools.length :=
  waits_startNext_le [] tools

/-- A poll at the instant for which the tools wait brings them closer to their end. -/
theorem waits_poll_lt {instant : Nat} (h : d.wake = some instant) (hnow : instant ≤ now) :
    (d.poll fs now).waits < d.waits := by
  obtain ⟨⟨began, p⟩, hrunning, rfl⟩ := Option.map_eq_some_iff.mp h
  have hwaits : d.waits = d.queue.length + 1 := by simp [waits, isDone, hrunning]
  have hpoll : p.poll now ≠ none := fun hnone =>
    absurd (PendingTool.poll_eq_none_iff.mp hnone) (Nat.not_lt.mpr hnow)
  obtain ⟨outcome, houtcome⟩ := Option.ne_none_iff_exists'.mp hpoll
  rw [hwaits]
  simp only [poll, hrunning, houtcome]
  exact Nat.lt_succ_of_le (waits_startNext_le _ _)

theorem waits_poll_le : (d.poll fs now).waits ≤ d.waits := by
  cases hrunning : d.running with
  | none => simp [poll, hrunning]
  | some run =>
    cases hpoll : run.2.poll now with
    | none => simp [poll, hrunning, hpoll]
    | some outcome =>
      have hwake : d.wake = some run.2.timed.wake := by simp [wake, hrunning]
      refine Nat.le_of_lt (waits_poll_lt hwake (Nat.le_of_not_lt fun hlt => ?_))
      simp [PendingTool.poll_eq_none_iff.mpr hlt] at hpoll

end Switchboard.Dispatch
