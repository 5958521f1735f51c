/-!
# Timed operations

Time is counted in milliseconds. An operation under a time limit is due at one instant and is
given up at another. Asked at an instant, it has finished if it is due, even if its limit has
come at the same time; otherwise it has expired if the limit has come. An operation that takes
no time has finished as soon as it is asked.
-/

namespace Switchboard

/-- An operation under a time limit. -/
structure Timed where
  due : Nat
  deadline : Nat
deriving Repr, DecidableEq

namespace Timed

/-- An operation that begins at `now`, takes `delay` and is given up after `limit`. -/
def start (now delay limit : Nat) : Timed :=
  ⟨now + delay, now + limit⟩

/-- What has become of an operation. -/
inductive Progress where
  | finished | expired | waiting
deriving Repr, DecidableEq

/-- What has become of the operation at an instant. -/
def progress (t : Timed) (now : Nat) : Progress :=
  if t.due ≤ now then .finished
  else if t.deadline ≤ now then .expired
  else .waiting

/-- The instant at which the operation ends one way or the other. -/
def wake (t : Timed) : Nat :=
  min t.due t.deadline

theorem progress_eq_finished_iff {t : Timed} {now : Nat} :
    t.progress now = .finished ↔ t.due ≤ now := by
  unfold progress
  split
  case isTrue h => simp [h]
  case isFalse h => split <;> simp [h]

theorem progress_eq_expired_iff {t : Timed} {now : Nat} :
    t.progress now = .expired ↔ now < t.due ∧ t.deadline ≤ now := by
  unfold progress
  split
  case isTrue h => simp; omega
  case isFalse h => split <;> simp <;> omega

/-- An operation is waited for until it wakes. -/
theorem progress_eq_waiting_iff {t : Timed} {now : Nat} :
    t.progress now = .waiting ↔ now < t.wake := by
  unfold progress wake
  split
  case isTrue h => simp; omega
  case isFalse h =>
    split
    case isTrue h' => simp; omega
    case isFalse h' => simp; omega

/-- An operation wakes when its delay or its limit is over. -/
theorem wake_start (now delay limit : Nat) : (start now delay limit).wake = now + min delay limit :=
  (Nat.add_min_add_left ..)

/-- An operation that is asked no later than it wakes has ended exactly when it wakes. -/
theorem eq_wake_of_progress {t : Timed} {now : Nat} (hle : now ≤ t.wake)
    (h : t.progress now ≠ .waiting) : now = t.wake :=
  Nat.le_antisymm hle (Nat.le_of_not_lt (mt progress_eq_waiting_iff.mpr h))

end Timed

end Switchboard
