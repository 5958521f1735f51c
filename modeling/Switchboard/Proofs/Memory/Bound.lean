import Switchboard.Proofs.Memory.Retention

/-!
# The bound on knowledge

Whatever is done with a memory, its bound stays, and every change leaves no more knowledge than
that (`MemoryStore.length_knowledge_update_le`): what is taught pushes out the oldest pieces, and
forgetting leaves none. But a memory takes its snapshot over as a whole, be it given or read from
a file, so it can begin beyond its bound, and stays there until something is changed. When it is
within its bound is `Memory.capacity`.
-/

namespace Switchboard

namespace MemoryStore

/-- A store that is taught something is within its bound. -/
theorem length_knowledge_push_le (s : MemoryStore) (k : KnowledgeEntry) :
    (s.push k).knowledge.length ≤ s.maxKnowledge := by
  simp only [push, List.length_drop]
  omega

/-- Whatever is kept before, a change leaves no more knowledge than the bound allows. -/
theorem length_knowledge_update_le (s : MemoryStore) (t : Stamps) (u : MemoryUpdate) :
    (s.update t u).knowledge.length ≤ s.maxKnowledge := by
  cases u with
  | append id user assistant => exact length_knowledge_push_le _ _
  | add content source => exact length_knowledge_push_le s _
  | clear => exact Nat.zero_le _

end MemoryStore

namespace Memory

/-- A memory as it is obtained, with its snapshot and its bound. A new one begins with the empty
snapshot. -/
inductive Begins : Memory → MemorySnapshot → ℕ → Prop
  | restored (s : MemorySnapshot) : Begins (transient (.ofSnapshot s)) s defaultMaxKnowledge
  /-- A bound of its own is at least one. -/
  | limited (s : MemorySnapshot) (n : ℕ) :
    Begins (transient { MemoryStore.ofSnapshot s with maxKnowledge := max n 1 }) s (max n 1)
  | opened {fs fs' : FileSystem} {path : String} {now : Timestamp} {f : FileStore}
    {s : MemorySnapshot} (hopen : FileStore.openAt fs path now = .ok (f, fs'))
    (hstores : FileStore.Stores fs path s) : Begins (filed f) s defaultMaxKnowledge

example (n : ℕ) : Begins (transient (.withMaxKnowledge n)) {} (max n 1) :=
  .limited {} n

variable {m : Memory} {s : MemorySnapshot} {bound : ℕ}

/-- Memories are immediate as they are obtained. -/
theorem Begins.isImmediate (h : Begins m s bound) : m.IsImmediate := by
  cases h with
  | restored => exact isImmediate_transient _
  | limited n => exact isImmediate_transient _
  | opened hopen hstores => exact isImmediate_filed _

theorem Begins.maxKnowledge_eq (h : Begins m s bound) : m.store.maxKnowledge = bound := by
  cases h with
  | restored => rfl
  | limited n => rfl
  | opened hopen hstores =>
    obtain ⟨r, -, heq⟩ := Outcome.map_eq_ok.1 hopen
    cases heq
    rfl

/-- No piece of the snapshot is left out, whatever the bound. -/
theorem Begins.knowledge_eq (h : Begins m s bound) : m.store.knowledge = s.knowledge := by
  cases h with
  | restored => rfl
  | limited n => rfl
  | opened hopen hstores =>
    obtain ⟨r, hload, heq⟩ := Outcome.map_eq_ok.1 hopen
    cases heq
    rw [hstores.unique (FileStore.load_eq_ok hload).1]
    rfl

/-! ## Runs -/

/-- No more is known than the bound allows. -/
def IsWithinBound (m : Memory) : Prop :=
  m.store.knowledge.length ≤ m.store.maxKnowledge

/-- No operation changes the bound of a memory. -/
theorem maxKnowledge_operateAll (hm : m.IsImmediate) (fs : FileSystem) (ops : List Operation) :
    (m.operateAll fs ops).2.1.store.maxKnowledge = m.store.maxKnowledge := by
  induction ops generalizing m fs with
  | nil => rfl
  | cons o rest ih =>
    cases o with
    | ask q => exact ih hm fs
    | update t u =>
      refine (ih hm.update _).trans ?_
      rw [hm.store_update]
      exact FileStore.maxKnowledge_update m.store t u

/-- After a change a memory is within its bound, whatever it held before. -/
theorem isWithinBound_update (hm : m.IsImmediate) (fs : FileSystem) (t : Stamps)
    (u : MemoryUpdate) : (m.update fs t u).2.1.IsWithinBound := by
  rw [IsWithinBound, hm.store_update, FileStore.maxKnowledge_update]
  exact m.store.length_knowledge_update_le t u

/-- A memory comes within its bound by the first change and stays there. -/
theorem isWithinBound_operateAll_iff (hm : m.IsImmediate) (fs : FileSystem)
    (ops : List Operation) :
    (m.operateAll fs ops).2.1.IsWithinBound ↔
      m.IsWithinBound ∨ ∃ o ∈ ops, o.isUpdate = true := by
  induction ops generalizing m fs with
  | nil => simp [operateAll]
  | cons o rest ih =>
    cases o with
    | ask q => exact (ih hm fs).trans (by simp [Operation.isUpdate])
    | update t u =>
      have hwithin := isWithinBound_update hm fs t u
      exact iff_of_true ((ih hm.update _).2 (.inl hwithin)) (.inr ⟨_, List.mem_cons_self, rfl⟩)

/-- Questions change nothing. -/
theorem operateAll_of_forall_ask (fs : FileSystem) {ops : List Operation}
    (hops : ∀ o ∈ ops, o.isUpdate = false) : (m.operateAll fs ops).2 = (m, fs) := by
  have hfilter : ops.filter Operation.isUpdate = [] := by simpa using hops
  rw [← operateAll_filter_isUpdate, hfilter]
  rfl

/-- However a memory is obtained and whatever is done with it, its bound stays, and no more is known
than the bound allows if and only if that was so at the beginning or anything was changed. Until
then all pieces of the snapshot are known, however many they are. -/
theorem capacity (h : Begins m s bound) (fs : FileSystem) (ops : List Operation) :
    let store := (m.operateAll fs ops).2.1.store
    store.maxKnowledge = bound ∧
      (store.knowledge.length ≤ bound ↔
        s.knowledge.length ≤ bound ∨ ∃ o ∈ ops, o.isUpdate = true) ∧
      ((∀ o ∈ ops, o.isUpdate = false) → store.knowledge = s.knowledge) := by
  intro store
  have hbound : store.maxKnowledge = bound :=
    (maxKnowledge_operateAll h.isImmediate fs ops).trans h.maxKnowledge_eq
  refine ⟨hbound, ?_, fun hops => ?_⟩
  · have hwithin := isWithinBound_operateAll_iff h.isImmediate fs ops
    rwa [IsWithinBound, IsWithinBound, hbound, h.maxKnowledge_eq, h.knowledge_eq] at hwithin
  · rw [← h.knowledge_eq]
    exact congrArg (·.1.store.knowledge) (operateAll_of_forall_ask fs hops)

namespace Attic

/-- One piece of knowledge more than a memory with the default bound has room for. -/
def snapshot : MemorySnapshot where
  knowledge := List.replicate (defaultMaxKnowledge + 1) ⟨"note", "s", .epoch⟩

theorem wellFormed_snapshot : snapshot.WellFormed := by
  refine ⟨.nil, by simp [snapshot], fun k hk => ?_⟩
  rw [List.eq_of_mem_replicate hk]
  exact Timestamp.isValid_epoch

/-- The snapshot in a file. -/
def files : FileSystem :=
  FileSystem.empty.insert ["m.json"] (.file (.text snapshot.toJson.pretty))

theorem readText_files : files.readText "/m.json" = .ok snapshot.toJson.pretty := by
  have hleads : files.Leads "/m.json" ["m.json"] :=
    ⟨rfl, fun last => by cases last <;> rfl⟩
  exact hleads.readText_of_text rfl

end Attic

/-- A memory opened from that file knows everything in it, beyond its bound, and comes within its
bound by forgetting it or by learning something. -/
theorem crowded_in_attic :
    let f : FileStore := ⟨"/m.json", .ofSnapshot Attic.snapshot⟩
    FileStore.openAt Attic.files "/m.json" .epoch = .ok (f, Attic.files) ∧
    Begins (filed f) Attic.snapshot defaultMaxKnowledge ∧
    Attic.snapshot.knowledge.length = defaultMaxKnowledge + 1 ∧
    ¬ f.store.knowledge.length ≤ f.store.maxKnowledge ∧
    ∀ t u, ((filed f).operate Attic.files (.update t u)).2.1.store.knowledge.length ≤
      defaultMaxKnowledge := by
  intro f
  have hdecode := MemorySnapshot.decode_pretty Attic.wellFormed_snapshot
  have hopen : FileStore.openAt Attic.files "/m.json" .epoch = .ok (f, Attic.files) := by
    rw [FileStore.openAt, FileStore.load_of_readText Attic.readText_files hdecode]
    rfl
  have hstores : FileStore.Stores Attic.files "/m.json" Attic.snapshot := by
    refine .inr ⟨_, Attic.readText_files, ?_⟩
    rw [FileStore.snapshotOf, hdecode]
    rfl
  have hbegins : Begins (filed f) Attic.snapshot defaultMaxKnowledge := .opened hopen hstores
  have hlength : Attic.snapshot.knowledge.length = defaultMaxKnowledge + 1 :=
    List.length_replicate
  refine ⟨hopen, hbegins, hlength, ?_, fun t u => ?_⟩
  · intro hle
    rcases (capacity hbegins Attic.files []).2.1.1 hle with hle' | ⟨o, ho, -⟩
    · omega
    · cases ho
  · exact (capacity hbegins Attic.files [.update t u]).2.1.2
      (.inr ⟨_, List.mem_singleton_self _, rfl⟩)

end Memory

end Switchboard
