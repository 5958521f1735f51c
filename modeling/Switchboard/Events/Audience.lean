import Switchboard.Events.Channel

/-!
# Audiences

The subscribers of one channel, numbered in the order in which they came. The numbers of those
who left are not given to others.
-/

namespace Switchboard

/-- The subscribers of a channel; `none` for one who left. -/
structure Audience (α : Type) where
  members : List (Option (Recorder α)) := []

namespace Audience

variable {α : Type}

/-- A new subscriber; its number and the audience. -/
def subscribe (a : Audience α) (c : Channel α) : Nat × Audience α :=
  (a.members.length, ⟨a.members ++ [some (.subscribe c)]⟩)

/-- The subscriber of a number. -/
def member? (a : Audience α) (i : Nat) : Option (Recorder α) :=
  a.members[i]?.join

/-- Puts a subscriber in the place of another. -/
def set (a : Audience α) (i : Nat) (r : Option (Recorder α)) : Audience α :=
  ⟨a.members.set i r⟩

/-- A subscriber leaves; whether there was one. -/
def leave (a : Audience α) (i : Nat) : Bool × Audience α :=
  ((a.member? i).isSome, a.set i none)

/-- How many subscribers there are. -/
def count (a : Audience α) : Nat :=
  a.members.countP (·.isSome)

/-- What a subscriber receives now, and how much it lost at all. -/
def drain (a : Audience α) (c : Channel α) (i : Nat) : Option ((List α × Nat) × Audience α) :=
  (a.member? i).map fun r =>
    let r' := r.drain c
    ((r'.events.drop r.events.length, r'.lagged), a.set i (some r'))

/-- A subscriber forgets what it received. -/
def clear (a : Audience α) (i : Nat) : Option (Audience α) :=
  (a.member? i).map fun r => a.set i (some r.clear)

/-- The next event that satisfies `p`, passing over others, at most `fuel` of them. -/
def nextFor (p : α → Bool) (c : Channel α) : (fuel : Nat) → Recorder α → Option α × Recorder α
  | 0, r => (none, r)
  | fuel + 1, r =>
    match r.poll c with
    | (none, r') => (none, r')
    | (some e, r') => if p e then (some e, r') else nextFor p c fuel r'

/-- The next event for a subscriber that satisfies `p`, if it has been published. -/
def next (a : Audience α) (c : Channel α) (i : Nat) (p : α → Bool) :
    Option (Option α × Audience α) :=
  (a.member? i).map fun r =>
    let (e, r') := nextFor p c (c.count - r.next + 1) r
    (e, a.set i (some r'))

end Audience

end Switchboard
