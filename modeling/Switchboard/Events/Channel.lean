/-!
# Broadcast channels

Every subscriber of a channel sees what is published after it subscribed, as long as it keeps
up: the channel holds a bounded number of the latest events, and a subscriber that is further
behind loses the oldest ones and is told how many. A recorder collects what it receives and
counts what it lost.
-/

namespace Switchboard

/-- A channel that holds the last `slots` of the published events. -/
structure Channel (α : Type) where
  slots : Nat
  published : List α

namespace Channel

variable {α : Type}

/-- The greatest capacity a channel can have. -/
def maxCapacity : Nat := (Nat.pow 2 64 - 1) / 2

/-- The number of events held for a capacity: the next power of two, at least one. -/
def slotsFor (capacity : Nat) : Nat :=
  if capacity ≤ 1 then 1 else Nat.pow 2 ((capacity - 1).log2 + 1)

/-- A channel for at least `capacity` events. -/
def ofCapacity (capacity : Nat) : Channel α :=
  ⟨slotsFor capacity, []⟩

/-- A channel for at least `capacity` events, and at least one, unless that is beyond the greatest
capacity. -/
def ofCapacity? (capacity : Nat) : Option (Channel α) :=
  if max capacity 1 ≤ maxCapacity then some (ofCapacity capacity) else none

/-- Publishes an event. -/
def publish (c : Channel α) (event : α) : Channel α :=
  { c with published := c.published ++ [event] }

/-- How many events have been published. -/
def count (c : Channel α) : Nat :=
  c.published.length

/-- The index of the oldest event still held. -/
def oldest (c : Channel α) : Nat :=
  c.count - c.slots

/-- What is heard of the events from an index on until a loss is reported. -/
def heardFrom (c : Channel α) (index : Nat) : List α :=
  if index < c.oldest then [] else c.published.drop index

end Channel

/-! ## Recorders -/

/-- A subscriber: the index of the next event it has not seen, what it received, and how many
events it lost. -/
structure Recorder (α : Type) where
  next : Nat
  events : List α := []
  lagged : Nat := 0

namespace Recorder

variable {α : Type}

/-- A subscriber to what is published from now on. -/
def subscribe (c : Channel α) : Recorder α :=
  { next := c.count }

/-- What comes of asking for the next event. -/
inductive Received (α : Type) where
  | event (e : α)
  | lagged (lost : Nat)
  | empty

/-- Asks for the next event. One that lags is told so, and goes on with the oldest event
held. -/
def receive (r : Recorder α) (c : Channel α) : Received α × Recorder α :=
  if r.next < c.oldest then
    (.lagged (c.oldest - r.next),
      { r with next := c.oldest, lagged := r.lagged + (c.oldest - r.next) })
  else match c.published[r.next]? with
    | some e => (.event e, { r with next := r.next + 1, events := r.events ++ [e] })
    | none => (.empty, r)

/-- Receives until nothing is left, at most `fuel` times. -/
def drainFor (c : Channel α) : (fuel : Nat) → Recorder α → Recorder α
  | 0, r => r
  | fuel + 1, r =>
    match r.receive c with
    | (.empty, r') => r'
    | (_, r') => drainFor c fuel r'

/-- Receives everything published so far. -/
def drain (r : Recorder α) (c : Channel α) : Recorder α :=
  r.drainFor c (c.count - r.next + 1)

/-- The next event, if there is one. -/
def poll (r : Recorder α) (c : Channel α) : Option α × Recorder α :=
  match r.receive c with
  | (.event e, r') => (some e, r')
  | (.empty, r') => (none, r')
  | (.lagged _, r') =>
    match r'.receive c with
    | (.event e, r'') => (some e, r'')
    | (_, r'') => (none, r'')

/-- Forgets what was received. -/
def clear (r : Recorder α) : Recorder α :=
  { r with events := [] }

end Recorder

end Switchboard
