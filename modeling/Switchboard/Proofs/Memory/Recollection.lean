import Switchboard.Proofs.Memory.Retention
import Switchboard.Proofs.Relevance
import Switchboard.Proofs.Tokens

/-!
# What a memory finds again

An exchange can be found by what the user said (`Memory.recollection`). Three things carry this. A
memory learns what it is taught: it keeps what is newest, as much as there is room for
(`Memory.Learns`). Every token of what was said occurs in the exchange (`matchCount_exchange`), so
its score is one. And a search that asks for enough leaves out nothing that is relevant
(`MemorySnapshot.mem_search_iff`).
-/

namespace Switchboard

open Relevance

/-- A search that asks for as much as is known finds all that is relevant. -/
theorem MemorySnapshot.mem_search_iff {s : MemorySnapshot} {query : String} {limit : ℕ}
    {threshold : Float} (h : s.knowledge.length ≤ limit) {snippet : KnowledgeSnippet} :
    snippet ∈ s.search query limit threshold ↔
      ∃ k ∈ s.knowledge, snippet = ⟨k.content, score query k.content, k.source⟩ ∧
        0 < score query k.content ∧ threshold ≤ score query k.content := by
  have hlimit : (s.knowledge.map (·.content)).length ≤ limit := by simpa using h
  simp only [search, List.mem_filterMap, Option.map_eq_some_iff, Prod.exists, mem_rank_iff hlimit,
    List.getElem?_map]
  constructor
  · rintro ⟨i, x, ⟨text, ⟨k, hk, rfl⟩, rfl, hpos, hle⟩, k', hk', rfl⟩
    obtain rfl := Option.some.inj (hk.symm.trans hk')
    exact ⟨k, List.mem_of_getElem? hk, rfl, hpos, hle⟩
  · rintro ⟨k, hk, rfl, hpos, hle⟩
    obtain ⟨i, hi⟩ := List.getElem?_of_mem hk
    exact ⟨i, _, ⟨_, ⟨k, hi, rfl⟩, rfl, hpos, hle⟩, k, hi, rfl⟩

/-- What was said has all its tokens in the exchange. -/
theorem matchCount_exchange (user assistant : String) :
    matchCount (tokens user.toList) (tokens (user ++ "\n" ++ assistant).toList) =
      (tokens user.toList).length := by
  have htokens : tokens (user ++ "\n" ++ assistant).toList =
      tokens user.toList ++ tokens assistant.toList := by
    rw [String.toList_append, String.toList_append, List.append_assoc]
    exact tokens_append (w := ['\n']) (by simp) (by simp [Text.isBlank])
  rw [htokens]
  exact matchCount_of_subset (List.subset_append_left _ _)

namespace Memory

/-- After the newest knowledge of a store, new knowledge is taught: both are the newest knowledge
then, if there is room for them. -/
structure Learns (m m' : MemoryStore) (new : List KnowledgeEntry) : Prop where
  bound_eq : m'.maxKnowledge = m.maxKnowledge
  suffix : ∀ l, l <:+ m.knowledge → l.length + new.length ≤ m.maxKnowledge →
    l ++ new <:+ m'.knowledge

variable {m m' m'' : MemoryStore} {new new' : List KnowledgeEntry} {o : Operation}
  {ops : List Operation}

theorem Learns.refl (m : MemoryStore) : Learns m m [] :=
  ⟨rfl, fun l hl _ => l.append_nil.symm ▸ hl⟩

theorem Learns.trans (h : Learns m m' new) (h' : Learns m' m'' new') :
    Learns m m'' (new ++ new') where
  bound_eq := h'.bound_eq.trans h.bound_eq
  suffix l hl hroom := by
    rw [List.length_append] at hroom
    rw [← List.append_assoc]
    refine h'.suffix _ (h.suffix l hl (by omega)) ?_
    rw [List.length_append, h.bound_eq]
    omega

/-- Only what is older than all that there is room for is forgotten. -/
theorem learns_push (m : MemoryStore) (k : KnowledgeEntry) : Learns m (m.push k) [k] where
  bound_eq := rfl
  suffix l hl hroom := by
    obtain ⟨old, hold⟩ := hl
    have hdrop : (m.knowledge ++ [k]).length - m.maxKnowledge ≤ old.length := by
      rw [← hold]
      simp only [List.length_append, List.length_singleton] at hroom ⊢
      omega
    refine ⟨old.drop ((m.knowledge ++ [k]).length - m.maxKnowledge), ?_⟩
    rw [MemoryStore.push, ← List.drop_append_of_le_length hdrop, ← List.append_assoc, hold]

/-- An operation teaches what it is said to teach. -/
theorem exists_learns_operate (m : MemoryStore) (fs : FileSystem) (ho : o.isClear = false) :
    ∃ m', ((transient m).operate fs o).2 = (transient m', fs) ∧ Learns m m' o.taught.toList := by
  cases o with
  | ask q => exact ⟨m, rfl, .refl m⟩
  | update t u =>
    refine ⟨m.update t u, rfl, ?_⟩
    cases u with
    | append id user assistant =>
      -- The histories are no part of the knowledge.
      have h := learns_push (m.converse id (MemoryStore.exchange user assistant t))
        (MemoryStore.exchangeKnowledge id user assistant t)
      exact ⟨h.bound_eq, h.suffix⟩
    | add content source => exact learns_push m _
    | clear => cases ho

/-- As long as nothing is cleared, a run teaches what its operations teach, in their order. -/
theorem exists_learns_operateAll (m : MemoryStore) (fs : FileSystem)
    (hops : ∀ o ∈ ops, o.isClear = false) :
    ∃ m', ((transient m).operateAll fs ops).2 = (transient m', fs) ∧
      Learns m m' (ops.filterMap (·.taught)) := by
  induction ops generalizing m with
  | nil => exact ⟨m, rfl, .refl m⟩
  | cons o rest ih =>
    obtain ⟨ho, hrest⟩ := List.forall_mem_cons.mp hops
    obtain ⟨m', hoperate, hlearns⟩ := exists_learns_operate m fs ho
    obtain ⟨m'', hrun, hlearns'⟩ := ih m' hrest
    refine ⟨m'', by simp [operateAll, hoperate, hrun], ?_⟩
    have hcons : (o :: rest).filterMap (·.taught) =
        o.taught.toList ++ rest.filterMap (·.taught) := by
      cases h : o.taught <;> simp [h]
    exact hcons ▸ hlearns.trans hlearns'

/-- A memory keeps its bound whatever is done with it. -/
theorem exists_operateAll (m : MemoryStore) (fs : FileSystem) (ops : List Operation) :
    ∃ m', ((transient m).operateAll fs ops).2 = (transient m', fs) ∧
      m'.maxKnowledge = m.maxKnowledge := by
  induction ops generalizing m with
  | nil => exact ⟨m, rfl, rfl⟩
  | cons o rest ih =>
    cases o with
    | ask q => exact ih m
    | update t u =>
      obtain ⟨m', hrun, hbound⟩ := ih (m.update t u)
      exact ⟨m', hrun, hbound.trans (FileStore.maxKnowledge_update m t u)⟩

/-! ## Finding an exchange -/

/-- Whatever was done with a memory before, an exchange is its newest knowledge when it is added,
and only pieces of knowledge taught later come after it until there are as many of them as there
is room for. So long a search for what the user said, be it as strict as can be, finds the exchange
with its source and score one: all tokens, which are counted in 64 bits, are matched. -/
theorem recollection (m : MemoryStore) (fs : FileSystem) (before after : List Operation)
    (t : Stamps) (id : RequestId) (user assistant : String)
    (hafter : ∀ o ∈ after, o.isClear = false)
    (hroom : (after.filterMap (·.taught)).length < m.maxKnowledge) :
    ∃ m', ((transient m).operateAll fs
        (before ++ .update t (.append id user assistant) :: after)).2 = (transient m', fs) ∧
      ⟨user ++ "\n" ++ assistant, "conversation:" ++ id.text, t.knowledge⟩ ::
        after.filterMap (·.taught) <:+ m'.knowledge ∧
      matchCount (tokens user.toList) (tokens (user ++ "\n" ++ assistant).toList) =
        (tokens user.toList).length ∧
      ∀ limit threshold, tokens user.toList ≠ [] → (tokens user.toList).length < 2 ^ 64 →
        m'.knowledge.length ≤ limit → threshold ≤ 1 →
        ⟨user ++ "\n" ++ assistant, 1, "conversation:" ++ id.text⟩ ∈
          m'.search user limit threshold := by
  obtain ⟨m₁, hbefore, hbound⟩ := exists_operateAll m fs before
  have hkept : ∀ o ∈ .update t (.append id user assistant) :: after, o.isClear = false :=
    List.forall_mem_cons.mpr ⟨rfl, hafter⟩
  obtain ⟨m', hrun, hlearns⟩ := exists_learns_operateAll m₁ fs hkept
  have hsuffix : ⟨user ++ "\n" ++ assistant, "conversation:" ++ id.text, t.knowledge⟩ ::
      after.filterMap (·.taught) <:+ m'.knowledge :=
    hlearns.suffix [] List.nil_suffix (by
      rw [hbound]
      simpa [Operation.taught] using hroom)
  refine ⟨m', by simp [operateAll_append, hbefore, hrun], hsuffix,
    matchCount_exchange user assistant, ?_⟩
  intro limit threshold hne hcount hlimit hthreshold
  have hscore : score user (user ++ "\n" ++ assistant) = 1 :=
    scoreTokens_eq_one hne hcount (matchCount_exchange user assistant)
  have hpos : (0 : Float) < 1 := by decide +kernel
  refine (MemorySnapshot.mem_search_iff hlimit).mpr ⟨_, hsuffix.subset List.mem_cons_self, ?_⟩
  rw [hscore]
  exact ⟨rfl, hpos, hthreshold⟩

/-- Where there is room for two pieces of knowledge, an exchange is still found after another piece
is taught. -/
theorem found_on_shelf :
    let memory := { Shelf.memory with maxKnowledge := 2 }
    let later : Operation := .update Timestamp.epoch (.add "third" "c")
    (∀ o ∈ [later], o.isClear = false) ∧
    ([later].filterMap (·.taught)).length < memory.maxKnowledge ∧
    ∃ m', ((transient memory).operateAll .empty (Shelf.operations ++
        [.update Timestamp.epoch (.append Diary.id "Good luck!" "Thanks."), later])).2 =
          (transient m', .empty) ∧
      ⟨"Good luck!\nThanks.", 1, "conversation:diary"⟩ ∈ m'.search "Good luck!" 2 1 := by
  intro memory later
  have hlater : ∀ o ∈ [later], o.isClear = false := by simp [later, Operation.isClear]
  have hroom : ([later].filterMap (·.taught)).length < memory.maxKnowledge := by decide
  obtain ⟨m', hrun, -, -, hfound⟩ := recollection memory .empty Shelf.operations [later]
    Timestamp.epoch Diary.id "Good luck!" "Thanks." hlater hroom
  have hlength : 2 = m'.knowledge.length :=
    congrArg (fun r => r.1.store.knowledge.length) hrun
  exact ⟨hlater, hroom, m', hrun, hfound 2 1 (by decide +kernel) (by decide +kernel) hlength.ge
    (by decide +kernel)⟩

end Memory

end Switchboard
