import Switchboard.Proofs.Memory.FileStore

/-!
# Changes that cannot be written

A change takes place in memory whether or not it can be written. If it cannot, the file is what
it was before, and the next change that can be written writes everything
(`FileStore.atomicity`). Besides the file and the draft beside it nothing is ever touched.
-/

namespace Switchboard

open FileSystem Outcome

namespace FileSystem

/-- What the file at a path holds, if there is one. -/
def contents? (fs : FileSystem) (path : String) : Option Contents :=
  (fs.read path).toOption

variable {fs fs' : FileSystem} {path : String} {l : Location}

/-- The contents of a path are those of the file to which it leads. -/
theorem contents?_eq_some (hlinks : fs.LinkFree) {c : Contents} :
    fs.contents? path = some c ↔ ∃ l, fs.Leads path l ∧ fs.node? l = some (.file c) := by
  rw [← read_eq_ok_iff hlinks, contents?]
  cases fs.read path <;> simp [Except.toOption]

/-- A file that comes or goes elsewhere leaves what a path holds as it is. -/
theorem contents?_congr (hlinks : fs.LinkFree) (hlinks' : fs'.LinkFree)
    (hdirs : SameDirectories fs fs') (h : ∀ l, fs.Leads path l → fs'.node? l = fs.node? l) :
    fs'.contents? path = fs.contents? path := by
  refine Option.ext fun c => ?_
  rw [contents?_eq_some hlinks, contents?_eq_some hlinks']
  constructor
  · rintro ⟨l, hl, hnode⟩
    have hl' := hl.congr hlinks' hlinks hdirs.symm
    exact ⟨l, hl', (h l hl').symm.trans hnode⟩
  · rintro ⟨l, hl, hnode⟩
    exact ⟨l, hl.congr hlinks hlinks' hdirs, (h l hl).trans hnode⟩

end FileSystem

namespace FileStore

variable {fs : FileSystem} {l d : Location} {s : FileStore}

/-! ## A change -/

/-- What is left of a change that could not be written. -/
structure Failed (s : FileStore) (fs fs' : FileSystem) (e : MemoryFailure) : Prop where
  failure : ∃ path details, e = .persistence path details
  contents : fs'.contents? s.path = fs.contents? s.path

/-- What is left of a change that was written: the file describes all that is kept, and there is
no draft. -/
structure Written (s : FileStore) (fs' : FileSystem) : Prop where
  text : ∃ text, fs'.contents? s.path = some (.text text) ∧
    Json.decode MemorySnapshot.read text = .ok s.store.toMemorySnapshot
  draft : fs'.read (draftPath s.path) = .error .notFound

/-- No file but those of the store changes. -/
def Confined (s : FileStore) (fs fs' : FileSystem) : Prop :=
  ∀ l, fs'.node? l ≠ fs.node? l → fs.Leads s.path l ∨ fs.Leads (draftPath s.path) l

/-- A file and its draft are not at one place. -/
theorem ne_draft (hlinks : fs.LinkFree) (hext : Path.extension? s.path ≠ some "tmp")
    (hl : fs.Leads s.path l) (hd : fs.Leads (draftPath s.path) d) : l ≠ d :=
  hl.ne_withExtension hlinks (by decide) (by decide) hext hd

/-- A write that fails leaves the files as they were, with no draft. -/
theorem persist_error (hlinks : fs.LinkFree) (hext : Path.extension? s.path ≠ some "tmp")
    {e : MemoryFailure} (h : (s.persist fs).1 = .error e) :
    s.Failed fs (s.persist fs).2 e := by
  rcases persist_cases hlinks s with ⟨f, hcase⟩ | ⟨d, f, hd, hcase⟩ | ⟨d, l, -, -, hcase⟩
  · rw [hcase] at h ⊢
    exact ⟨⟨_, _, (Except.error.inj h).symm⟩, rfl⟩
  · rw [hcase] at h ⊢
    refine ⟨⟨_, _, (Except.error.inj h).symm⟩, ?_⟩
    refine contents?_congr hlinks (hlinks.insert hd.ne_nil) (.insert hd.1) fun l hl => ?_
    rw [node?_insert hd.ne_nil, if_neg (ne_draft hlinks hext hl hd)]
  · rw [hcase] at h
    cases h

/-- A write that succeeds leaves all that is kept in the file, with no draft. -/
theorem persist_ok (hlinks : fs.LinkFree) (hext : Path.extension? s.path ≠ some "tmp")
    (hs : s.store.toMemorySnapshot.WellFormed) (h : (s.persist fs).1 = .ok ()) :
    s.Written (s.persist fs).2 := by
  rcases persist_cases hlinks s with ⟨f, hcase⟩ | ⟨d, f, -, hcase⟩ | ⟨d, l, hd, hl, hcase⟩
  · rw [hcase] at h
    cases h
  · rw [hcase] at h
    cases h
  · rw [hcase]
    have hlinks' := linkFree_replaced hlinks hd.ne_nil hl.ne_nil (.text s.fileText)
    have hdirs := sameDirectories_replaced hd.1 hl.1 (.text s.fileText)
    refine ⟨⟨s.fileText, (contents?_eq_some hlinks').2 ⟨l, hl.congr hlinks hlinks' hdirs, ?_⟩,
      decode_fileText hs⟩, ?_⟩
    · rw [node?_replaced hd.ne_nil hl.ne_nil, if_pos rfl]
    · refine (hd.congr hlinks hlinks' hdirs).read_of_free ?_
      rw [node?_replaced hd.ne_nil hl.ne_nil, if_neg (ne_draft hlinks hext hl hd).symm, if_pos rfl]

/-- A write changes no file but those of the store. -/
theorem persist_confined (hlinks : fs.LinkFree) (s : FileStore) :
    s.Confined fs (s.persist fs).2 := by
  intro l hne
  rcases persist_cases hlinks s with ⟨f, hcase⟩ | ⟨d, f, hd, hcase⟩ | ⟨d, l', hd, hl', hcase⟩
  · rw [hcase] at hne
    exact absurd rfl hne
  · rw [hcase, node?_insert hd.ne_nil] at hne
    split at hne
    · next h => exact .inr (h ▸ hd)
    · exact absurd rfl hne
  · rw [hcase, node?_replaced hd.ne_nil hl'.ne_nil] at hne
    split at hne
    · next h => exact .inl (h ▸ hl')
    · split at hne
      · next h => exact .inr (h ▸ hd)
      · exact absurd rfl hne

/-- A change, when it is made, and the file system it meets. -/
structure Attempt where
  files : FileSystem
  stamps : Stamps
  change : MemoryUpdate

/-- The store after changes, whether or not they could be written. -/
def after (s : FileStore) (l : List Attempt) : FileStore :=
  l.foldl (fun s a => (s.update a.files a.stamps a.change).2.1) s

/-- The store of a memory in which all changes take place. -/
def keep (m : MemoryStore) (l : List Attempt) : MemoryStore :=
  l.foldl (fun m a => m.update a.stamps a.change) m

theorem after_eq (s : FileStore) (l : List Attempt) :
    s.after l = { s with store := keep s.store l } := by
  induction l generalizing s with
  | nil => rfl
  | cons a rest ih => exact ih _

/-- Changes at valid points in time keep a snapshot well formed. -/
theorem wellFormed_keep {m : MemoryStore} (hm : m.toMemorySnapshot.WellFormed) {l : List Attempt}
    (hl : ∀ a ∈ l, a.stamps.IsValid) : (keep m l).toMemorySnapshot.WellFormed := by
  induction l generalizing m with
  | nil => exact hm
  | cons a rest ih =>
    exact ih (MemoryStore.wellFormed_update hm (hl a List.mem_cons_self) a.change)
      fun b hb => hl b (List.mem_cons_of_mem a hb)

/-- After any changes, written or not, a further change takes place in memory. If it cannot be
written, the file holds what it held before. If it is written, the file describes everything
that is kept, all changes included, and no draft is left. In both cases no other file
changes. -/
theorem atomicity {s s' : FileStore} (hs : s.store.toMemorySnapshot.WellFormed)
    (hext : Path.extension? s.path ≠ some "tmp") {earlier : List Attempt} {a : Attempt}
    (htimes : ∀ b ∈ earlier ++ [a], b.stamps.IsValid) (hlinks : a.files.LinkFree)
    {result : Except MemoryFailure Unit} {fs' : FileSystem}
    (h : (s.after earlier).update a.files a.stamps a.change = (result, s', fs')) :
    s' = { s with store := keep s.store (earlier ++ [a]) } ∧
      (∀ e, result = .error e → s'.Failed a.files fs' e) ∧
      (result = .ok () → s'.Written fs') ∧ s'.Confined a.files fs' := by
  have hkept : (s.after earlier).change a.stamps a.change =
      { s with store := keep s.store (earlier ++ [a]) } := by
    simp [after_eq, change, keep]
  unfold FileStore.update at h
  rw [hkept] at h
  dsimp only at h
  have hstore := (Prod.mk.inj (Prod.mk.inj h).2).1
  have hresult := (Prod.mk.inj h).1
  have hfiles := (Prod.mk.inj (Prod.mk.inj h).2).2
  have hext' : Path.extension? s'.path ≠ some "tmp" := by rwa [← hstore]
  have hwell : s'.store.toMemorySnapshot.WellFormed := by
    rw [← hstore]
    exact wellFormed_keep hs htimes
  rw [hstore] at hresult hfiles
  subst hresult hfiles
  exact ⟨hstore.symm, fun e => persist_error hlinks hext', persist_ok hlinks hext' hwell,
    persist_confined hlinks s'⟩

namespace Notebook

/-- An empty store with its file in the root. -/
def store : FileStore := ⟨"/m.json", {}⟩

/-- A directory stands where the draft is to be written. -/
def blocked : Attempt where
  files := ⟨[(["m.tmp"], .directory)], []⟩
  stamps := Timestamp.epoch
  change := .add "first" "a"

/-- Nothing stands in the way of this change. -/
def free : Attempt where
  files := .empty
  stamps := Timestamp.epoch
  change := .add "second" "b"

/-- What was not written at first is in the file in the end. -/
theorem written_of_blocked :
    (store.update blocked.files blocked.stamps blocked.change).1 =
        .error (.persistence "/m.tmp" "Is a directory (os error 21)") ∧
      ∃ s' fs', (store.after [blocked]).update free.files free.stamps free.change =
          (.ok (), s', fs') ∧
        s'.store.knowledge = [⟨"first", "a", .epoch⟩, ⟨"second", "b", .epoch⟩] ∧
        s'.Written fs' := by
  have htimes : ∀ b ∈ [blocked] ++ [free], b.stamps.IsValid := by
    simp [blocked, free, Stamps.isValid_once Timestamp.isValid_epoch]
  have hopen : openAt .empty "/m.json" .epoch = .ok (store, .empty) := rfl
  obtain ⟨-, -, hwritten, -⟩ := @atomicity store _ (wellFormed_of_openAt hopen) (by decide)
    [blocked] free htimes linkFree_empty _ _ rfl
  exact ⟨rfl, _, _, rfl, rfl, hwritten rfl⟩

end Notebook

end FileStore

end Switchboard
