import Mathlib.Algebra.BigOperators.Group.Finset.Basic
import Mathlib.Data.List.DropRight
import Switchboard.Proofs.Memory.Durability
import Switchboard.Proofs.Memory.History

/-!
# What a memory retains

What a memory without a file keeps can be told from what was done with it, without carrying out
any of it (`Memory.told`): every history is the one at the beginning followed by what was said in
its conversation since everything was last forgotten, and the knowledge is the newest part of all
that was taught since then. All replies are read off this tally (`Memory.retention`).
-/

namespace Switchboard

namespace Timestamp

variable {r s t : Timestamp} {l : List Timestamp}

theorem le_iff : s.le t = true ↔ s.parts ≤ t.parts := by
  rw [le, Bool.not_eq_true', List.lex_eq_decide_lex, decide_eq_false_iff_not]
  simp only [decide_eq_true_eq]
  exact not_lt (a := t.parts) (b := s.parts)

theorem le_trans (h : r.le s = true) (h' : s.le t = true) : r.le t = true :=
  le_iff.2 ((le_iff.1 h).trans (le_iff.1 h'))

/-- Points in time are in order if none comes after a later one. -/
theorem areOrdered_iff : areOrdered l = true ↔ l.Pairwise fun s t => s.le t = true := by
  induction l with
  | nil => simp [areOrdered]
  | cons s rest ih =>
    cases rest with
    | nil => simp [areOrdered]
    | cons t rest =>
      rw [areOrdered, Bool.and_eq_true, ih, List.pairwise_cons (a := s), List.forall_mem_cons]
      constructor
      · rintro ⟨hst, hrest⟩
        exact ⟨⟨hst, fun u hu => le_trans hst ((List.pairwise_cons.1 hrest).1 u hu)⟩, hrest⟩
      · rintro ⟨⟨hst, -⟩, hrest⟩
        exact ⟨hst, hrest⟩

end Timestamp

/-- Forgetting the oldest before one more comes makes no difference to the newest. -/
theorem rtake_rtake_append {α : Type} (n : Nat) (l : List α) (a : α) :
    (l.rtake n ++ [a]).rtake n = (l ++ [a]).rtake n := by
  simp only [List.rtake_eq_reverse_take_reverse, List.reverse_append, List.reverse_singleton,
    List.reverse_reverse, List.singleton_append, List.reverse_inj]
  cases n with
  | zero => rfl
  | succ n => simp [List.take_take]

namespace MemorySnapshot

variable {s : MemorySnapshot} {id : RequestId} {l : List (RequestId × List ConversationEntry)}

theorem Rising.nodup (h : Rising l) : (l.map (·.1)).Nodup :=
  List.pairwise_map.2 (h.imp fun hlt heq => (heq ▸ hlt).false)

/-- Where identifiers rise, each history is found under its identifier. -/
theorem Rising.history_of_mem (h : Rising s.conversations) {c : RequestId × List ConversationEntry}
    (hc : c ∈ s.conversations) : s.history c.1 = c.2 := by
  rw [MemorySnapshot.history, Keyed.lookup_of_mem h.nodup hc, Option.getD_some]

/-- Setting a history adds its identifier and no other. -/
theorem mem_ids_setHistory {id' : RequestId} {h : List ConversationEntry} :
    id' ∈ (setHistory id h l).map (·.1) ↔ id' = id ∨ id' ∈ l.map (·.1) := by
  rw [← Keyed.isSome_lookup_iff, lookup_setHistory, ← Keyed.isSome_lookup_iff]
  by_cases hid : id = id'
  · simp [hid]
  · simp [hid, Ne.symm hid]

end MemorySnapshot

namespace Memory

open MemorySnapshot

/-! ## The tally -/

namespace Operation

/-- Whether everything is forgotten. -/
def isClear : Operation → Bool
  | .update _ .clear => true
  | _ => false

/-- Whether anything is changed. -/
def isUpdate : Operation → Bool
  | .update .. => true
  | .ask _ => false

/-- What is said in a conversation. -/
def said (id : RequestId) : Operation → List ConversationEntry
  | .update t (.append i user assistant) =>
    if i = id then [⟨.user, user, t.user⟩, ⟨.assistant, assistant, t.assistant⟩] else []
  | _ => []

/-- The conversation in which something is said. -/
def addressed : Operation → Option RequestId
  | .update _ (.append id _ _) => some id
  | _ => none

/-- What is taught. -/
def taught : Operation → Option KnowledgeEntry
  | .update t (.append id user assistant) =>
    some ⟨user ++ "\n" ++ assistant, "conversation:" ++ id.text, t.knowledge⟩
  | .update t (.add content source) => some ⟨content, source, t.knowledge⟩
  | _ => none

/-- What the clock says each time it is read. -/
def readings : Operation → List Timestamp
  | .update t (.append ..) => [t.user, t.assistant, t.knowledge]
  | .update t (.add ..) => [t.knowledge]
  | _ => []

end Operation

/-- The operations since everything was last forgotten. -/
def sinceClear (ops : List Operation) : List Operation :=
  (ops.reverse.takeWhile fun o => !o.isClear).reverse

/-- What is left of the snapshot at the beginning. -/
def leftOf (s : MemorySnapshot) (ops : List Operation) : MemorySnapshot :=
  if ops.any Operation.isClear then {} else s

/-- What is kept, by conversation, and what is known from old to new. -/
structure Tally where
  histories : RequestId → List ConversationEntry
  /-- The conversations that have a history, be it empty. -/
  held : Finset RequestId
  knowledge : List KnowledgeEntry

namespace Tally

/-- How much is kept: every conversation, message and piece of knowledge counts, and all their
texts. -/
def usage (r : Tally) : MemoryUsage where
  conversations := r.held.card
  messages := ∑ id ∈ r.held, (r.histories id).length
  knowledgeEntries := r.knowledge.length
  approxBytes :=
    (∑ id ∈ r.held, ((r.histories id).map (·.content.utf8ByteSize)).foldr (· + ·) 0) +
      (r.knowledge.map (·.content.utf8ByteSize)).foldr (· + ·) 0

/-- The answer to a question. -/
def answer (r : Tally) : Question → Answer
  | .history id => .history (r.histories id)
  | .search query limit threshold =>
    .search (MemorySnapshot.search { knowledge := r.knowledge } query limit threshold)
  | .usage => .usage r.usage

/-- The reply to an operation. -/
def reply (r : Tally) : Operation → Reply
  | .update .. => .updated (.ok ())
  | .ask q => .answered (.ok (r.answer q))

end Tally

/-- The tally of operations on a memory that begins with a snapshot and keeps at most `bound` pieces
of knowledge once it is taught any. -/
def told (s : MemorySnapshot) (bound : Nat) (ops : List Operation) : Tally where
  histories id := (leftOf s ops).history id ++ (sinceClear ops).flatMap (·.said id)
  held := ((leftOf s ops).conversations.map (·.1)).toFinset ∪
    ((sinceClear ops).filterMap (·.addressed)).toFinset
  knowledge :=
    let new := (sinceClear ops).filterMap (·.taught)
    if new = [] then (leftOf s ops).knowledge else ((leftOf s ops).knowledge ++ new).rtake bound

variable {s : MemorySnapshot} {bound : Nat} {ops : List Operation} {o : Operation}

theorem sinceClear_concat :
    sinceClear (ops ++ [o]) = if o.isClear then [] else sinceClear ops ++ [o] := by
  cases h : o.isClear <;> simp [sinceClear, h]

theorem leftOf_concat : leftOf s (ops ++ [o]) = if o.isClear then {} else leftOf s ops := by
  cases h : o.isClear <;> simp [leftOf, h]

theorem sinceClear_suffix (ops : List Operation) : sinceClear ops <:+ ops := by
  rw [sinceClear, ← List.reverse_prefix, List.reverse_reverse]
  exact List.takeWhile_prefix _

/-- Once everything is forgotten, the tally begins anew. -/
theorem told_concat_of_isClear (ho : o.isClear = true) :
    told s bound (ops ++ [o]) = told {} bound [] := by
  simp [told, sinceClear_concat, leftOf_concat, ho]
  simp [sinceClear, leftOf]

section Concat

variable (ho : o.isClear = false)
include ho

/-- One more operation adds what it says at the end of a history. -/
theorem histories_told_concat (id : RequestId) :
    (told s bound (ops ++ [o])).histories id = (told s bound ops).histories id ++ o.said id := by
  simp [told, sinceClear_concat, leftOf_concat, ho]

/-- One more operation adds the conversation that it addresses. -/
theorem mem_held_told_concat {id : RequestId} :
    id ∈ (told s bound (ops ++ [o])).held ↔
      id ∈ (told s bound ops).held ∨ o.addressed = some id := by
  simp [told, sinceClear_concat, leftOf_concat, ho, or_assoc]

/-- An operation that teaches nothing leaves the knowledge as it is. -/
theorem knowledge_told_of_taught_eq_none (h : o.taught = none) :
    (told s bound (ops ++ [o])).knowledge = (told s bound ops).knowledge := by
  simp [told, sinceClear_concat, leftOf_concat, ho, h]

/-- What is taught comes last, and the oldest is forgotten beyond the bound. -/
theorem knowledge_told_of_taught {k : KnowledgeEntry} (h : o.taught = some k) :
    (told s bound (ops ++ [o])).knowledge = ((told s bound ops).knowledge ++ [k]).rtake bound := by
  have hlast : [o].filterMap (·.taught) = [k] := by simp [h]
  simp only [told, sinceClear_concat, leftOf_concat, ho, Bool.false_eq_true, if_false,
    List.filterMap_append, hlast]
  by_cases hnew : (sinceClear ops).filterMap (·.taught) = []
  · simp [hnew]
  · simp [hnew, ← List.append_assoc, rtake_rtake_append]

end Concat

/-! ## Carrying out operations -/

/-- Carries out operations one after the other. -/
def operateAll (m : Memory) (fs : FileSystem) : List Operation → List Reply × Memory × FileSystem
  | [] => ([], m, fs)
  | o :: rest =>
    let r := m.operate fs o
    let r' := operateAll r.2.1 r.2.2 rest
    (r.1 :: r'.1, r'.2)

/-- A store that keeps what a tally says. -/
structure Shows (m : MemoryStore) (r : Tally) : Prop where
  rising : Rising m.conversations
  history_eq : ∀ id, m.history id = r.histories id
  held_iff : ∀ id, id ∈ r.held ↔ id ∈ m.conversations.map (·.1)
  knowledge_eq : m.knowledge = r.knowledge

/-- A store shows what is told before any operation. -/
theorem shows_told_nil {m : MemoryStore} (hm : Rising m.conversations) (bound : Nat) :
    Shows m (told m.toMemorySnapshot bound []) :=
  ⟨hm, fun id => by simp [told, leftOf, sinceClear], fun id => by simp [told, leftOf, sinceClear],
    by simp [told, leftOf, sinceClear]⟩

namespace Shows

variable {m : MemoryStore} {r : Tally}

/-- A sum over the conversations of a tally is one over those of the store. -/
theorem sum_held (h : Shows m r) (f : List ConversationEntry → Nat) :
    ∑ id ∈ r.held, f (r.histories id) = (m.conversations.map fun c => f c.2).foldr (· + ·) 0 := by
  have hheld : r.held = (m.conversations.map (·.1)).toFinset := by
    ext id
    rw [h.held_iff, List.mem_toFinset]
  rw [hheld, List.sum_toFinset _ h.rising.nodup, List.map_map, List.sum_eq_foldr]
  refine congrArg (List.foldr (· + ·) 0) (List.map_congr_left fun c hc => ?_)
  rw [Function.comp_apply, ← h.history_eq, h.rising.history_of_mem hc]

/-- The usage of a store is read off the tally. -/
theorem usage_eq (h : Shows m r) : m.usage = r.usage := by
  have hcard := h.sum_held fun _ => 1
  have hmessages := h.sum_held List.length
  have hbytes := h.sum_held fun l => (l.map (·.content.utf8ByteSize)).foldr (· + ·) 0
  simp only [← List.sum_eq_foldr] at hcard hmessages hbytes
  have hcard : r.held.card = m.conversations.length := by simpa using hcard
  simp only [MemorySnapshot.usage, Tally.usage, hcard, hmessages, hbytes, ← h.knowledge_eq,
    ← List.sum_eq_foldr, List.flatMap, List.sum_flatten, List.map_map, Function.comp_def]

/-- The reply to an operation is read off the tally. -/
theorem reply_eq (h : Shows m r) (fs : FileSystem) (o : Operation) :
    ((transient m).operate fs o).1 = r.reply o := by
  cases o with
  | update t u => rfl
  | ask q =>
    cases q with
    | history id => exact congrArg (fun l => Reply.answered (.ok (.history l))) (h.history_eq id)
    | search query limit threshold =>
      simp only [operate, Memory.answer, Memory.search, MemorySnapshot.search, store,
        h.knowledge_eq]
      rfl
    | usage => exact congrArg (fun u => Reply.answered (.ok (.usage u))) h.usage_eq

/-- An exchange is added to one history and is taught as a whole. -/
theorem append (h : Shows m (told s m.maxKnowledge ops)) (t : Stamps) (id : RequestId)
    (user assistant : String) :
    Shows (m.update t (.append id user assistant))
      (told s m.maxKnowledge (ops ++ [.update t (.append id user assistant)])) where
  rising := rising_setHistory h.rising _ _
  history_eq id' := by
    rw [MemoryStore.history_append, h.history_eq, histories_told_concat rfl]
    rfl
  held_iff id' := by
    rw [mem_held_told_concat rfl, h.held_iff]
    refine Iff.trans ?_ mem_ids_setHistory.symm
    simp [Operation.addressed, or_comm, eq_comm]
  knowledge_eq := by
    rw [knowledge_told_of_taught rfl rfl, ← h.knowledge_eq]
    rfl

/-- What is taught pushes out the oldest knowledge beyond the bound. -/
theorem add (h : Shows m (told s m.maxKnowledge ops)) (t : Stamps) (content source : String) :
    Shows (m.update t (.add content source))
      (told s m.maxKnowledge (ops ++ [.update t (.add content source)])) where
  rising := h.rising
  history_eq id := by
    rw [histories_told_concat rfl, ← h.history_eq]
    exact (List.append_nil _).symm
  held_iff id := by
    rw [mem_held_told_concat rfl, h.held_iff]
    simp [Operation.addressed, MemoryStore.update, MemoryStore.push]
  knowledge_eq := by
    rw [knowledge_told_of_taught rfl rfl, ← h.knowledge_eq]
    rfl

theorem ask (h : Shows m (told s bound ops)) (q : Question) :
    Shows m (told s bound (ops ++ [.ask q])) where
  rising := h.rising
  history_eq id := by
    rw [histories_told_concat rfl, ← h.history_eq]
    exact (List.append_nil _).symm
  held_iff id := by
    rw [mem_held_told_concat rfl, h.held_iff]
    simp [Operation.addressed]
  knowledge_eq := by rw [knowledge_told_of_taught_eq_none rfl rfl, h.knowledge_eq]

/-- What an operation leaves is what the tally says with it. -/
theorem operate (h : Shows m (told s m.maxKnowledge ops)) (fs : FileSystem) (o : Operation) :
    ∃ m', (transient m).operate fs o = ((told s m.maxKnowledge ops).reply o, transient m', fs) ∧
      m'.maxKnowledge = m.maxKnowledge ∧ Shows m' (told s m.maxKnowledge (ops ++ [o])) := by
  rw [← h.reply_eq fs o]
  cases o with
  | ask q => exact ⟨m, rfl, rfl, h.ask q⟩
  | update t u =>
    refine ⟨m.update t u, rfl, FileStore.maxKnowledge_update m t u, ?_⟩
    cases u with
    | append id user assistant => exact h.append t id user assistant
    | add content source => exact h.add t content source
    | clear =>
      rw [told_concat_of_isClear rfl]
      exact shows_told_nil (m := m.update t .clear) .nil m.maxKnowledge

end Shows

/-! ## Runs -/

theorem operateAll_append (m : Memory) (fs : FileSystem) (before after : List Operation) :
    m.operateAll fs (before ++ after) =
      let r := m.operateAll fs before
      let r' := r.2.1.operateAll r.2.2 after
      (r.1 ++ r'.1, r'.2) := by
  induction before generalizing m fs with
  | nil => rfl
  | cons o rest ih => simp [operateAll, ih]

theorem length_operateAll (m : Memory) (fs : FileSystem) (ops : List Operation) :
    (m.operateAll fs ops).1.length = ops.length := by
  induction ops generalizing m fs with
  | nil => rfl
  | cons o rest ih => simp [operateAll, ih]

/-- What is left does not depend on what was asked. -/
theorem operateAll_filter_isUpdate (m : Memory) (fs : FileSystem) (ops : List Operation) :
    (m.operateAll fs (ops.filter Operation.isUpdate)).2 = (m.operateAll fs ops).2 := by
  induction ops generalizing m fs with
  | nil => rfl
  | cons o rest ih =>
    cases o with
    | update t u => exact ih _ _
    | ask q => exact ih m fs

variable {m : MemoryStore}

/-- After any run a store shows what is told of its operations. -/
theorem shows_operateAll (hm : Rising m.conversations) (fs : FileSystem) (ops : List Operation) :
    ∃ m', ((transient m).operateAll fs ops).2 = (transient m', fs) ∧
      m'.maxKnowledge = m.maxKnowledge ∧ Shows m' (told m.toMemorySnapshot m.maxKnowledge ops) := by
  induction ops using List.reverseRecOn with
  | nil => exact ⟨m, rfl, rfl, shows_told_nil hm _⟩
  | append_singleton ops o ih =>
    obtain ⟨m', hrun, hbound, hshows⟩ := ih
    rw [← hbound] at hshows ⊢
    obtain ⟨m'', hoperate, hbound', hshows'⟩ := hshows.operate fs o
    refine ⟨m'', ?_, hbound', hshows'⟩
    simp [operateAll_append, hrun, operateAll, hoperate]

/-- Every reply is read off the tally of the operations before it. -/
theorem getElem?_operateAll (hm : Rising m.conversations) (fs : FileSystem)
    (before after : List Operation) (o : Operation) :
    ((transient m).operateAll fs (before ++ o :: after)).1[before.length]? =
      some ((told m.toMemorySnapshot m.maxKnowledge before).reply o) := by
  obtain ⟨m', hrun, -, hshows⟩ := shows_operateAll hm fs before
  have hlength := length_operateAll (transient m) fs before
  simp [operateAll_append, hrun, operateAll, ← hlength, hshows.reply_eq]

/-- What is said bears readings of the clock in their order. -/
theorem said_sublist_readings (id : RequestId) (o : Operation) :
    ((o.said id).map (·.timestamp)).Sublist o.readings := by
  cases o with
  | ask q => exact List.Sublist.refl _
  | update t u =>
    cases u with
    | append i user assistant =>
      rw [Operation.said]
      split
      · exact List.sublist_append_left [t.user, t.assistant] [t.knowledge]
      · exact List.nil_sublist _
    | add content source => exact List.nil_sublist _
    | clear => exact List.Sublist.refl _

/-- What is said in a run bears readings of the clock in their order. -/
theorem flatMap_said_sublist (id : RequestId) (ops : List Operation) :
    ((ops.flatMap (·.said id)).map (·.timestamp)).Sublist (ops.flatMap (·.readings)) := by
  induction ops with
  | nil => exact List.Sublist.refl _
  | cons o rest ih =>
    rw [List.flatMap_cons, List.map_append, List.flatMap_cons]
    exact (said_sublist_readings id o).append ih

/-- If the clock never goes back, no history does. -/
theorem areOrdered_told {now : Timestamp}
    (hs : ∀ id, Timestamp.areOrdered ((s.history id).map (·.timestamp) ++ [now]) = true)
    (hclock : Timestamp.areOrdered (now :: ops.flatMap (·.readings)) = true) (id : RequestId) :
    Timestamp.areOrdered (((told s bound ops).histories id).map (·.timestamp)) = true := by
  have hleft : Timestamp.areOrdered (((leftOf s ops).history id).map (·.timestamp) ++ [now])
      = true := by
    unfold leftOf
    split
    · rfl
    · exact hs id
  obtain ⟨hnow, hreadings⟩ := List.pairwise_cons.1 (Timestamp.areOrdered_iff.1 hclock)
  obtain ⟨hold, -, hpast⟩ := List.pairwise_append.1 (Timestamp.areOrdered_iff.1 hleft)
  have hsaid := (flatMap_said_sublist id (sinceClear ops)).trans
    ((sinceClear_suffix ops).sublist.flatMap _)
  simp only [told, List.map_append, Timestamp.areOrdered_iff]
  refine List.pairwise_append.2 ⟨hold, hreadings.sublist hsaid, fun t ht t' ht' => ?_⟩
  exact Timestamp.le_trans (hpast t ht now List.mem_cons_self) (hnow t' (hsaid.subset ht'))

/-- A memory without a file keeps what the tally of its operations says, and every reply is read
off the tally of the operations before it. What is asked changes nothing. If the clock never goes
back and the histories at the beginning are in order and not of the future, all histories are in
order. -/
theorem retention (hm : Rising m.conversations) (fs : FileSystem) (ops : List Operation) :
    let told := told m.toMemorySnapshot m.maxKnowledge
    ∃ replies m', (transient m).operateAll fs ops = (replies, transient m', fs) ∧
      (∀ id, m'.history id = (told ops).histories id) ∧
      m'.knowledge = (told ops).knowledge ∧ m'.usage = (told ops).usage ∧
      replies.length = ops.length ∧
      (∀ before o after, ops = before ++ o :: after →
        replies[before.length]? = some ((told before).reply o)) ∧
      ((transient m).operateAll fs (ops.filter Operation.isUpdate)).2 = (transient m', fs) ∧
      ∀ now, (∀ id, Timestamp.areOrdered ((m.history id).map (·.timestamp) ++ [now]) = true) →
        Timestamp.areOrdered (now :: ops.flatMap (·.readings)) = true →
        ∀ id, Timestamp.areOrdered ((m'.history id).map (·.timestamp)) = true := by
  intro told
  obtain ⟨m', hrun, -, hshows⟩ := shows_operateAll hm fs ops
  refine ⟨_, m', Prod.ext rfl hrun, hshows.history_eq, hshows.knowledge_eq, hshows.usage_eq,
    length_operateAll _ _ _, ?_, (operateAll_filter_isUpdate _ _ _).trans hrun, ?_⟩
  · rintro before o after rfl
    exact getElem?_operateAll hm fs before after o
  · intro now hs hclock id
    rw [hshows.history_eq]
    exact areOrdered_told hs hclock id

namespace Shelf

/-- Two pieces of knowledge where there is room for one, and what is said in a diary. -/
def memory : MemoryStore where
  conversations := [(Diary.id, Diary.entries)]
  knowledge := [⟨"first", "a", .epoch⟩, ⟨"second", "b", .epoch⟩]
  maxKnowledge := 1

/-- The usage is asked before and after something is said. -/
def operations : List Operation :=
  [.ask .usage, .update Timestamp.epoch (.append Diary.id "Good night." "Sleep well!"),
    .ask (.history Diary.id), .ask .usage]

/-- What is said in the diary in the end. -/
def entries : List ConversationEntry :=
  Diary.entries ++ [⟨.user, "Good night.", .epoch⟩, ⟨.assistant, "Sleep well!", .epoch⟩]

end Shelf

/-- Both pieces stay until something is taught, and then neither does. -/
theorem retained_of_shelf :
    Rising Shelf.memory.conversations ∧
    ∃ m', (transient Shelf.memory).operateAll .empty Shelf.operations =
        ([.answered (.ok (.usage ⟨1, 2, 2, 30⟩)), .updated (.ok ()),
          .answered (.ok (.history Shelf.entries)), .answered (.ok (.usage ⟨1, 4, 1, 64⟩))],
          transient m', .empty) ∧
      m'.history Diary.id = Shelf.entries ∧
      m'.knowledge = [⟨"Good night.\nSleep well!", "conversation:diary", .epoch⟩] ∧
      m'.usage = ⟨1, 4, 1, 64⟩ ∧
      ∀ id, Timestamp.areOrdered ((m'.history id).map (·.timestamp)) = true := by
  have hrising : Rising Shelf.memory.conversations := List.pairwise_singleton _ _
  have hpast : ∀ id,
      Timestamp.areOrdered ((Shelf.memory.history id).map (·.timestamp) ++ [.epoch]) = true := by
    intro id
    by_cases hid : Diary.id = id
    · subst hid
      rfl
    · simp [MemorySnapshot.history, Shelf.memory, Keyed.lookup_cons_eq_ite, hid,
        Timestamp.areOrdered]
  obtain ⟨replies, m', hrun, hhistory, hknowledge, husage, -, -, -, hordered⟩ :=
    retention hrising .empty Shelf.operations
  refine ⟨hrising, m', ?_, hhistory Diary.id, hknowledge, husage, hordered .epoch hpast rfl⟩
  have hreplies : replies = ((transient Shelf.memory).operateAll .empty Shelf.operations).1 := by
    rw [hrun]
  rw [hrun, hreplies]
  rfl

end Memory

end Switchboard
