import Switchboard.Memory.Backend
import Switchboard.Proofs.Keyed

/-!
# Histories

An exchange is added at the end of the history of its conversation, and no other history
changes (`MemoryStore.history_append`). A memory that keeps what it is told without waiting and
without failing (`Memory.IsImmediate`) does so whenever it is changed: one that is lost with the
program, and one in a file whether or not the file can be written.
-/

namespace Switchboard

namespace MemorySnapshot

/-- Setting a history changes what is found under its identifier alone. -/
theorem lookup_setHistory (id id' : RequestId) (h : List ConversationEntry)
    (l : List (RequestId × List ConversationEntry)) :
    (setHistory id h l).lookup id' = if id = id' then some h else l.lookup id' := by
  induction l with
  | nil => exact Keyed.lookup_cons_eq_ite
  | cons c rest ih =>
    unfold setHistory
    by_cases hi : c.1 = id
    · rw [if_pos hi, Keyed.lookup_cons_eq_ite, Keyed.lookup_cons_eq_ite, hi]
      by_cases hid : id = id' <;> simp [hid]
    · rw [if_neg hi]
      by_cases hle : id.le c.1 = true
      · rw [if_pos hle]
        exact Keyed.lookup_cons_eq_ite
      · rw [if_neg hle, Keyed.lookup_cons_eq_ite, Keyed.lookup_cons_eq_ite, ih]
        by_cases hid : id = id'
        · simp [hid, show c.1 ≠ id' from fun h => hi (h.trans hid.symm)]
        · simp [hid]

end MemorySnapshot

namespace MemoryStore

variable {s : MemoryStore} {id id' : RequestId} {t : Stamps}

@[simp] theorem history_push (k : KnowledgeEntry) : (s.push k).history id = s.history id :=
  rfl

/-- Entries are added at the end of the history of their conversation. -/
theorem history_converse (entries : List ConversationEntry) :
    (s.converse id entries).history id' =
      s.history id' ++ if id = id' then entries else [] := by
  simp only [converse, MemorySnapshot.history, MemorySnapshot.lookup_setHistory]
  by_cases hid : id = id'
  · simp [hid]
  · simp [hid]

/-- An exchange is added at the end of the history of its conversation. -/
theorem history_append (user assistant : String) :
    (s.update t (.append id user assistant)).history id' =
      s.history id' ++ if id = id' then exchange user assistant t else [] :=
  history_converse _

end MemoryStore

namespace Memory

/-- A memory that takes in exchanges without waiting and without failing, and whose histories can
be read. -/
structure IsImmediate (m : Memory) : Prop where
  appendDelay_eq : m.script.appendDelay = 0
  appendFailure_eq : m.script.appendFailure = none
  historyFailure_eq : m.script.historyFailure = none

theorem isImmediate_transient (s : MemoryStore) : (transient s).IsImmediate :=
  ⟨rfl, rfl, rfl⟩

/-- A memory in a file is immediate, whether or not the file can be written. -/
theorem isImmediate_filed (f : FileStore) : (filed f).IsImmediate :=
  ⟨rfl, rfl, rfl⟩

variable {m : Memory} {fs : FileSystem} {t : Stamps} {u : MemoryUpdate}
  {id : RequestId} {user assistant : String}

@[simp] theorem script_update : (m.update fs t u).2.1.script = m.script := by
  cases m with
  | transient s => rfl
  | filed f => rfl
  | scripted script s =>
    simp only [update]
    split <;> rfl

namespace IsImmediate

/-- An immediate memory stays immediate. -/
theorem update (h : m.IsImmediate) : (m.update fs t u).2.1.IsImmediate := by
  refine ⟨?_, ?_, ?_⟩
  all_goals rw [script_update]
  · exact h.appendDelay_eq
  · exact h.appendFailure_eq
  · exact h.historyFailure_eq

theorem writeDelay_append (h : m.IsImmediate) : m.writeDelay (.append id user assistant) = 0 :=
  h.appendDelay_eq

theorem history_eq (h : m.IsImmediate) : m.history id = .ok (m.store.history id) := by
  rw [history, h.historyFailure_eq]
  rfl

/-- A change is kept even if the file cannot be written. -/
theorem store_update (h : m.IsImmediate) (u : MemoryUpdate) :
    (m.update fs t u).2.1.store = m.store.update t u := by
  cases m with
  | transient s => rfl
  | filed f => rfl
  | scripted script s =>
    have hfailure : scriptedFailure script u = none := by
      cases u with
      | append id user assistant => exact h.appendFailure_eq
      | add content source => rfl
      | clear => rfl
    simp only [Memory.update, hfailure]
    rfl

end IsImmediate

end Memory

end Switchboard
