import Mathlib.Data.List.Induction
import Mathlib.Data.List.Infix
import Switchboard.Events.Channel

/-!
# What a recorder records

A recorder that drains a channel in between collects what was published since it subscribed, in
order, up to what it was too late for, and counts that (`recording`). A drain comes to the same as
taking the end of what is pending (`drain_eq`): at most one loss is reported, at its beginning, and
from then on everything is held. So the events recorded and lost add up after every drain, however
publishing and draining alternate.
-/

namespace Switchboard

variable {α : Type}

namespace Channel

/-- The number of slots is the least power of two that is not below the capacity, nor below one. -/
theorem slotsFor_spec (capacity : Nat) :
    (∃ k, slotsFor capacity = Nat.pow 2 k) ∧ max capacity 1 ≤ slotsFor capacity ∧
      slotsFor capacity < 2 * max capacity 1 := by
  unfold slotsFor
  split
  · next h => exact ⟨⟨0, rfl⟩, by omega, by omega⟩
  · next h =>
    have hlow : Nat.pow 2 (capacity - 1).log2 ≤ capacity - 1 := Nat.log2_self_le (by omega)
    have hhigh : capacity - 1 < Nat.pow 2 ((capacity - 1).log2 + 1) := Nat.lt_log2_self
    have hsucc : Nat.pow 2 ((capacity - 1).log2 + 1) = 2 * Nat.pow 2 (capacity - 1).log2 :=
      Nat.pow_succ'
    exact ⟨⟨_, rfl⟩, by omega, by omega⟩

theorem le_slotsFor (capacity : Nat) : capacity ≤ slotsFor capacity :=
  (Nat.le_max_left _ _).trans (slotsFor_spec capacity).2.1

end Channel

namespace Recorder

/-! ## One drain -/

/-- What the loop of a drain comes to: it goes on until nothing is received. -/
inductive Drains (c : Channel α) : Recorder α → Recorder α → Prop where
  | stop {r r' : Recorder α} (h : r.receive c = (.empty, r')) : Drains c r r'
  | goOn {r r' r'' : Recorder α} {what : Received α} (hwhat : what ≠ .empty)
    (h : r.receive c = (what, r')) (hrest : Drains c r' r'') : Drains c r r''

variable {c : Channel α} {r r' r'' : Recorder α}

/-- What a drain leaves is determined. -/
theorem Drains.unique (h : Drains c r r') (h' : Drains c r r'') : r' = r'' := by
  induction h with
  | stop h =>
    cases h' with
    | stop h' => exact congrArg Prod.snd (h.symm.trans h')
    | goOn hwhat h' _ => exact absurd (congrArg Prod.fst (h'.symm.trans h)) hwhat
  | goOn hwhat h _ ih =>
    cases h' with
    | stop h' => exact absurd (congrArg Prod.fst (h.symm.trans h')) hwhat
    | goOn _ h' hrest' =>
      obtain rfl := congrArg Prod.snd (h.symm.trans h')
      exact ih hrest'

/-- Whatever is received, less is left. -/
theorem receive_lt {what : Received α} (h : r.receive c = (what, r')) (hwhat : what ≠ .empty) :
    c.count - r'.next < c.count - r.next := by
  unfold receive at h
  split at h
  · next hlag =>
    obtain rfl := congrArg Prod.snd h
    have hle : c.oldest ≤ c.count := Nat.sub_le _ _
    show c.count - c.oldest < _
    omega
  · split at h
    · next e he =>
      obtain rfl := congrArg Prod.snd h
      have hlt : r.next < c.count := (List.getElem?_eq_some_iff.mp he).1
      show c.count - (r.next + 1) < _
      omega
    · exact absurd (congrArg Prod.fst h).symm hwhat

/-- With fuel for every event that is left, the loop comes to its end. -/
theorem drains_drainFor {fuel : Nat} (h : c.count - r.next < fuel) :
    Drains c r (r.drainFor c fuel) := by
  induction fuel generalizing r with
  | zero => omega
  | succ fuel ih =>
    unfold drainFor
    split
    · next r' hr => exact .stop hr
    · next what r' hwhat hr =>
      have hne : what ≠ .empty := hwhat
      have hlt := receive_lt hr hne
      exact .goOn hne hr (ih (by omega))

/-- The loop ends, with what a drain comes to. -/
theorem drains_iff : Drains c r r' ↔ r' = r.drain c := by
  have hdrain : Drains c r (r.drain c) := drains_drainFor (Nat.lt_succ_self _)
  exact ⟨fun h => h.unique hdrain, fun h => h ▸ hdrain⟩

variable {seen pending : List α}

/-- If everything is still held that has not been seen, then it is received. -/
theorem drains_of_held (hc : c.published = seen ++ pending) (hnext : r.next = seen.length)
    (hheld : c.oldest ≤ r.next) :
    Drains c r { r with next := c.count, events := r.events ++ pending } := by
  induction pending generalizing seen r with
  | nil =>
    have hcount : c.count = r.next := by
      rw [hnext, Channel.count, hc, List.append_nil]
    have hnone : c.published[r.next]? = none :=
      List.getElem?_eq_none_iff.mpr hcount.le
    rw [hcount, List.append_nil]
    exact .stop (by rw [receive, if_neg hheld.not_gt, hnone])
  | cons e rest ih =>
    have hsome : c.published[r.next]? = some e := by
      rw [hnext, hc, List.getElem?_append_right (Nat.le_refl _), Nat.sub_self,
        List.getElem?_cons_zero]
    have hreceive : r.receive c =
        (.event e, { r with next := r.next + 1, events := r.events ++ [e] }) := by
      rw [receive, if_neg hheld.not_gt, hsome]
    have hsplit : c.published = (seen ++ [e]) ++ rest := by
      rw [hc, List.append_assoc, List.singleton_append]
    have hrest := ih (r := { r with next := r.next + 1, events := r.events ++ [e] }) hsplit
      (by simp [hnext]) (hheld.trans (Nat.le_succ _))
    rw [List.append_assoc, List.singleton_append] at hrest
    exact .goOn (by simp) hreceive hrest

/-- A drain takes the end of what is pending, as much as the channel holds, and counts the rest. -/
theorem drain_eq (hc : c.published = seen ++ pending) (hnext : r.next = seen.length) :
    r.drain c = {
      next := c.count
      events := r.events ++ pending.drop (pending.length - c.slots)
      lagged := r.lagged + (pending.length - c.slots) } := by
  rw [eq_comm, ← drains_iff]
  have holdest : c.oldest = seen.length + pending.length - c.slots := by
    rw [Channel.oldest, Channel.count, hc, List.length_append]
  rcases Nat.lt_or_ge c.slots pending.length with hlt | hle
  · -- One loss is reported, and nothing more can be lost after it.
    have hlag : r.next < c.oldest := by omega
    have hlost : c.oldest - r.next = pending.length - c.slots := by omega
    have hreceive : r.receive c = (.lagged (pending.length - c.slots), { r with
        next := c.oldest
        lagged := r.lagged + (pending.length - c.slots) }) := by
      rw [receive, if_pos hlag, hlost]
    have hsplit : c.published = (seen ++ pending.take (pending.length - c.slots)) ++
        pending.drop (pending.length - c.slots) := by
      rw [hc, List.append_assoc, List.take_append_drop]
    have hlength : c.oldest = (seen ++ pending.take (pending.length - c.slots)).length := by
      rw [List.length_append, List.length_take]
      omega
    exact .goOn (by simp) hreceive (drains_of_held hsplit hlength (Nat.le_refl _))
  · rw [Nat.sub_eq_zero_of_le hle]
    exact drains_of_held hc hnext (by omega)

/-! ## Publishing and draining -/

/-- What happens to a channel and one of its subscribers. -/
inductive Action (α : Type) where
  | publish (e : α)
  | drain

/-- A channel and one of its subscribers. -/
structure Session (α : Type) where
  channel : Channel α
  recorder : Recorder α

namespace Session

/-- A subscriber to a channel on which some events have been published before. -/
def start (capacity : Nat) (before : List α) : Session α :=
  let channel := before.foldl Channel.publish (Channel.ofCapacity capacity)
  ⟨channel, subscribe channel⟩

/-- Carries out an action. -/
def perform (s : Session α) : Action α → Session α
  | .publish e => { s with channel := s.channel.publish e }
  | .drain => { s with recorder := s.recorder.drain s.channel }

/-- Carries out actions one after the other. -/
def run (s : Session α) (actions : List (Action α)) : Session α :=
  actions.foldl perform s

end Session

/-- The events that some actions publish. -/
def published (actions : List (Action α)) : List α :=
  actions.filterMap fun
    | .publish e => some e
    | .drain => none

/-- The events that some actions publish after the last drain. -/
def pendingOf (actions : List (Action α)) : List α :=
  actions.foldl (fun pending a => match a with
    | .publish e => pending ++ [e]
    | .drain => []) []

variable {a : Action α} {actions : List (Action α)} {capacity : Nat} {before : List α}

theorem Session.run_concat {s : Session α} : s.run (actions ++ [a]) = (s.run actions).perform a :=
  List.foldl_concat ..

@[simp] theorem published_publish {e : α} :
    published (actions ++ [.publish e]) = published actions ++ [e] := by
  simp [published]

@[simp] theorem published_drain : published (actions ++ [.drain]) = published actions := by
  simp [published]

@[simp] theorem pendingOf_publish {e : α} :
    pendingOf (actions ++ [.publish e]) = pendingOf actions ++ [e] := by
  simp [pendingOf]

@[simp] theorem pendingOf_drain : pendingOf (actions ++ [.drain]) = [] := by
  simp [pendingOf]

/-- Events published one after the other stand in that order. -/
theorem foldl_publish {c : Channel α} {events : List α} :
    events.foldl Channel.publish c = { c with published := c.published ++ events } := by
  induction events generalizing c with
  | nil => simp
  | cons e rest ih => simp [ih, Channel.publish]

/-- The channel holds what was published, and the recorder has dealt with all of it up to what is
pending: it recorded or lost every event. -/
structure Tracks (capacity : Nat) (before : List α) (actions : List (Action α))
    (s : Session α) (settled : List α) : Prop where
  slots : s.channel.slots = Channel.slotsFor capacity
  holds : s.channel.published = (before ++ settled) ++ pendingOf actions
  split : published actions = settled ++ pendingOf actions
  next : s.recorder.next = (before ++ settled).length
  sublist : s.recorder.events.Sublist settled
  length : s.recorder.events.length + s.recorder.lagged = settled.length

/-- A recorder that has just subscribed tracks its channel. -/
theorem tracks_start : Tracks capacity before [] (Session.start capacity before) [] := by
  constructor <;> simp [Session.start, subscribe, foldl_publish, Channel.ofCapacity, pendingOf,
    published, Channel.count]

variable {s : Session α} {settled : List α}

namespace Tracks

/-- Publishing keeps a recorder on track. -/
theorem publish (h : Tracks capacity before actions s settled) {e : α} :
    Tracks capacity before (actions ++ [.publish e]) (s.perform (.publish e)) settled where
  slots := h.slots
  holds := by
    rw [pendingOf_publish, ← List.append_assoc, ← h.holds]
    rfl
  split := by rw [published_publish, pendingOf_publish, h.split, List.append_assoc]
  next := h.next
  sublist := h.sublist
  length := h.length

/-- A drain records what the slots hold of the pending events, counts the rest as lost and comes to
the end of the channel. -/
theorem recorder_drain (h : Tracks capacity before actions s settled) :
    (s.perform .drain).recorder = {
      next := s.channel.count
      events := s.recorder.events ++
        (pendingOf actions).drop ((pendingOf actions).length - Channel.slotsFor capacity)
      lagged := s.recorder.lagged +
        ((pendingOf actions).length - Channel.slotsFor capacity) } :=
  h.slots ▸ drain_eq h.holds h.next

/-- Draining keeps a recorder on track. -/
theorem drain (h : Tracks capacity before actions s settled) :
    Tracks capacity before (actions ++ [.drain]) (s.perform .drain)
      (published actions) where
  slots := h.slots
  holds := by
    rw [pendingOf_drain, List.append_nil, h.split, ← List.append_assoc]
    exact h.holds
  split := by rw [published_drain, pendingOf_drain, List.append_nil]
  next := by
    rw [h.recorder_drain, h.split, ← List.append_assoc]
    exact congrArg List.length h.holds
  sublist := by
    rw [h.recorder_drain, h.split]
    exact h.sublist.append (List.drop_sublist _ _)
  length := by
    rw [h.recorder_drain, h.split]
    have hlength := h.length
    simp only [List.length_append, List.length_drop]
    omega

end Tracks

/-- A recorder tracks its channel through every run. -/
theorem exists_tracks (capacity : Nat) (before : List α) (actions : List (Action α)) :
    ∃ settled, Tracks capacity before actions ((Session.start capacity before).run actions)
      settled := by
  induction actions using List.reverseRecOn with
  | nil => exact ⟨[], tracks_start⟩
  | append_singleton actions a ih =>
    obtain ⟨settled, h⟩ := ih
    rw [Session.run_concat]
    cases a with
    | publish e => exact ⟨settled, h.publish⟩
    | drain => exact ⟨_, h.drain⟩

/-- After every drain, what was recorded and what was lost add up to what was published since the
subscription, and what was recorded was published in this order. The drain adds the last of the
pending events, as many as the channel has slots, and as long as no more are pending than the
capacity, all of them. Its loop ends. -/
theorem recording (capacity : Nat) (before : List α) (actions : List (Action α)) :
    let s := (Session.start capacity before).run actions
    let drained := (s.perform .drain).recorder
    drained.events.length + drained.lagged = (published actions).length ∧
      drained.events.Sublist (published actions) ∧
      (∃ added, drained.events = s.recorder.events ++ added ∧ added <:+ pendingOf actions ∧
        added.length = min (pendingOf actions).length (Channel.slotsFor capacity) ∧
        ((pendingOf actions).length ≤ capacity →
          added = pendingOf actions ∧ drained.lagged = s.recorder.lagged)) ∧
      ∀ r, Drains s.channel s.recorder r ↔ r = drained := by
  intro s drained
  obtain ⟨settled, h⟩ := exists_tracks capacity before actions
  refine ⟨h.drain.length, h.drain.sublist, ⟨_, congrArg events h.recorder_drain,
    List.drop_suffix _ _, ?_, fun hle => ?_⟩, fun r => drains_iff⟩
  · rw [List.length_drop]
    omega
  · have hzero : (pendingOf actions).length - Channel.slotsFor capacity = 0 :=
      Nat.sub_eq_zero_of_le (hle.trans (Channel.le_slotsFor capacity))
    rw [hzero, List.drop_zero]
    refine ⟨rfl, (congrArg lagged h.recorder_drain).trans ?_⟩
    rw [hzero]
    rfl

example :
    let s := ((Session.start 2 []).run ([0, 1, 2, 3, 4].map Action.publish)).perform .drain
    s.recorder.events = [3, 4] ∧ s.recorder.lagged = 3 := by
  decide

end Recorder

end Switchboard
