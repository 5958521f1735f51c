import Switchboard.Memory.FileStore
import Switchboard.Proofs.FileSystem.Files
import Switchboard.Proofs.Memory.Format

/-!
# Files of a memory

What writing the file of a memory can come to (`FileStore.persist_cases`), and what opening it
gives: the snapshot that the file stores, whatever copy is put aside. The text that is written says
everything about the snapshot (`FileStore.lossless`).
-/

namespace Switchboard.FileStore

open FileSystem Outcome

variable {fs fs' : FileSystem} {path : String} {l d : Location} {s : FileStore}

/-- The file system after a file was written at `d` and got the name `l`. -/
def replaced (fs : FileSystem) (d l : Location) (c : Contents) : FileSystem :=
  if d = l then fs.insert d (.file c) else ((fs.insert d (.file c)).erase d).insert l (.file c)

/-- A replacement puts the file at its place, takes the draft away and changes nothing else. -/
theorem node?_replaced (hd : d ≠ []) (hl : l ≠ []) (c : Contents) (l' : Location) :
    (replaced fs d l c).node? l' =
      if l' = l then some (.file c) else if l' = d then none else fs.node? l' := by
  unfold replaced
  split
  · next h =>
    subst h
    rw [node?_insert hd]
    split <;> rfl
  · rw [node?_insert hl, node?_erase hd, node?_insert hd]
    split
    · rfl
    · split <;> rfl

theorem linkFree_replaced (h : fs.LinkFree) (hd : d ≠ []) (hl : l ≠ []) (c : Contents) :
    (replaced fs d l c).LinkFree := by
  unfold replaced
  split
  · exact h.insert hd
  · exact ((h.insert hd).erase hd).insert hl

/-- A replacement of a file touches no directory. -/
theorem sameDirectories_replaced (hd : fs.isDirectory d = false) (hl : fs.isDirectory l = false)
    (c : Contents) : SameDirectories fs (replaced fs d l c) := by
  have hinsert : SameDirectories fs (fs.insert d (.file c)) := .insert hd
  unfold replaced
  split
  · exact hinsert
  · have herase := hinsert.trans (.erase (by rw [hinsert.isDirectory, hd]))
    exact herase.trans (.insert (by rw [herase.isDirectory, hl]))

/-- Writing fails at the draft and changes nothing, or fails at the file and leaves the draft, or
the draft takes the place of the file. -/
theorem persist_cases (hlinks : fs.LinkFree) (s : FileStore) :
    (∃ f : Fault, s.persist fs = (.error (.persistence (draftPath s.path) f.message), fs)) ∨
    (∃ d, ∃ f : Fault, fs.Leads (draftPath s.path) d ∧ s.persist fs =
      (.error (.persistence s.path f.message), fs.insert d (.file (.text s.fileText)))) ∨
    ∃ d l, fs.Leads (draftPath s.path) d ∧ fs.Leads s.path l ∧
      s.persist fs = (.ok (), replaced fs d l (.text s.fileText)) := by
  unfold persist
  cases hwrite : fs.write (draftPath s.path) (.text s.fileText) with
  | error f => exact .inl ⟨f, rfl⟩
  | ok fs' =>
    obtain ⟨d, hd, rfl⟩ := write_eq_ok hlinks hwrite
    have hlinks' := hlinks.insert (c := .text s.fileText) hd.ne_nil
    have hdirs : SameDirectories fs (fs.insert d (.file (.text s.fileText))) := .insert hd.1
    cases hrename : (fs.insert d (.file (.text s.fileText))).rename (draftPath s.path) s.path with
    | error f => exact .inr (.inl ⟨d, f, hd, by simp [hrename]⟩)
    | ok fs'' =>
      obtain ⟨d', c, l, hd', hnode, hl, rfl⟩ := rename_eq_ok hlinks' hrename
      obtain rfl := (hd.congr hlinks hlinks' hdirs).unique hd'
      rw [node?_insert hd.ne_nil, if_pos rfl] at hnode
      cases hnode
      exact .inr (.inr ⟨d, l, hd, hl.congr hlinks' hlinks hdirs.symm, by simp [hrename, replaced]⟩)

/-- Where the path and the draft lead to places for files, writing replaces the file. -/
theorem persist_of_leads (hlinks : fs.LinkFree) (hl : fs.Leads s.path l)
    (hd : fs.Leads (draftPath s.path) d) :
    s.persist fs = (.ok (), replaced fs d l (.text s.fileText)) := by
  have hlinks' := hlinks.insert (c := .text s.fileText) hd.ne_nil
  have hdirs : SameDirectories fs (fs.insert d (.file (.text s.fileText))) := .insert hd.1
  have hnode : (fs.insert d (.file (.text s.fileText))).node? d =
      some (.file (.text s.fileText)) := by
    rw [node?_insert hd.ne_nil, if_pos rfl]
  have hrename := (hd.congr hlinks hlinks' hdirs).rename hlinks' hnode
    (hl.congr hlinks hlinks' hdirs)
  unfold persist
  rw [hd.write hlinks]
  dsimp only
  rw [hrename, replaced]

/-! ## Opening -/

/-- The snapshot of a text; one that describes none stands for the empty snapshot. -/
def snapshotOf (text : String) : MemorySnapshot :=
  (Json.decode MemorySnapshot.read text).toOption.getD {}

/-- The file at the path stores a snapshot: a text of it or, of an empty one, no file or a text
that describes none. -/
def Stores (fs : FileSystem) (path : String) (s : MemorySnapshot) : Prop :=
  (fs.readText path = .error .notFound ∧ s = {}) ∨
    ∃ text, fs.readText path = .ok text ∧ s = snapshotOf text

/-- The text of a store describes its snapshot. -/
theorem decode_fileText (h : s.store.toMemorySnapshot.WellFormed) :
    Json.decode MemorySnapshot.read s.fileText = .ok s.store.toMemorySnapshot :=
  MemorySnapshot.decode_pretty h

/-- What a file stores is well formed. -/
theorem Stores.wellFormed {s : MemorySnapshot} (h : Stores fs path s) : s.WellFormed := by
  rcases h with ⟨-, rfl⟩ | ⟨text, -, rfl⟩
  · exact MemorySnapshot.wellFormed_empty
  · unfold snapshotOf
    cases hdecode : Json.decode MemorySnapshot.read text with
    | ok s => exact MemorySnapshot.wellFormed_of_decode hdecode
    | error f => exact MemorySnapshot.wellFormed_empty

/-- What a file stores depends on its contents only. -/
theorem Stores.congr {s : MemorySnapshot} (h : Stores fs path s)
    (hread : fs'.read path = fs.read path) :
    Stores fs' path s := by
  rwa [Stores, readText_congr hread]

theorem Stores.unique {s s' : MemorySnapshot} (h : Stores fs path s) (h' : Stores fs path s') :
    s = s' := by
  rcases h with ⟨hread, rfl⟩ | ⟨text, hread, rfl⟩
  · rcases h' with ⟨-, rfl⟩ | ⟨text', hread', -⟩
    · rfl
    · simp [hread] at hread'
  · rcases h' with ⟨hread', -⟩ | ⟨text', hread', rfl⟩
    · simp [hread] at hread'
    · rw [Except.ok.inj (hread.symm.trans hread')]

/-- Opening gives the snapshot that the file stores, and puts a copy aside at most. -/
theorem load_eq_ok {s : MemorySnapshot} {now : Timestamp}
    (h : load fs path now = .ok (s, fs')) :
    Stores fs path s ∧ (fs' = fs ∨ fs.copy path (backupPath path now) = .ok fs') := by
  unfold load at h
  cases hread : fs.readText path with
  | error f =>
    rw [hread] at h
    cases f with
    | notFound =>
      cases h
      exact ⟨.inl ⟨hread, rfl⟩, .inl rfl⟩
    | _ => cases h
  | ok text =>
    rw [hread] at h
    dsimp only at h
    cases hdecode : Json.decode MemorySnapshot.read text with
    | ok s' =>
      rw [hdecode] at h
      cases h
      exact ⟨.inr ⟨text, hread, by simp [snapshotOf, hdecode, Except.toOption]⟩, .inl rfl⟩
    | error f =>
      rw [hdecode] at h
      dsimp only at h
      have hs : {} = snapshotOf text := by simp [snapshotOf, hdecode, Except.toOption]
      cases hcopy : fs.copy path (backupPath path now) with
      | ok fs'' =>
        rw [hcopy] at h
        cases h
        exact ⟨.inr ⟨text, hread, hs⟩, .inr rfl⟩
      | error f' =>
        rw [hcopy] at h
        cases h
        exact ⟨.inr ⟨text, hread, hs⟩, .inl rfl⟩

/-- Whatever file a store is opened from, its snapshot is one that is read back. -/
theorem wellFormed_of_openAt {now : Timestamp} (h : openAt fs path now = .ok (s, fs')) :
    s.store.toMemorySnapshot.WellFormed := by
  obtain ⟨r, hload, heq⟩ := map_eq_ok.1 h
  cases heq
  exact (load_eq_ok hload).1.wellFormed

/-- What a file stores is loaded. -/
theorem Stores.load {s : MemorySnapshot} (h : Stores fs path s) (now : Timestamp) :
    ∃ fs', FileStore.load fs path now = .ok (s, fs') := by
  unfold FileStore.load
  rcases h with ⟨hread, rfl⟩ | ⟨text, hread, rfl⟩
  · rw [hread]
    exact ⟨fs, rfl⟩
  · rw [hread]
    dsimp only
    cases hdecode : Json.decode MemorySnapshot.read text with
    | ok s => exact ⟨fs, by simp [snapshotOf, hdecode, Except.toOption]⟩
    | error f =>
      dsimp only
      cases fs.copy path (backupPath path now) with
      | ok fs' => exact ⟨fs', by simp [snapshotOf, hdecode, Except.toOption]⟩
      | error f' => exact ⟨fs, by simp [snapshotOf, hdecode, Except.toOption]⟩

/-- What was written is what is read. -/
theorem readText_of_persist (hlinks : fs.LinkFree) (h : s.persist fs = (.ok (), fs')) :
    fs'.readText s.path = .ok s.fileText := by
  rcases persist_cases hlinks s with ⟨f, hcase⟩ | ⟨d, f, -, hcase⟩ | ⟨d, l, hd, hl, hcase⟩
  · simp [hcase] at h
  · simp [hcase] at h
  · obtain rfl : replaced fs d l (.text s.fileText) = fs' := by simpa [hcase] using h
    have hlinks' := linkFree_replaced hlinks hd.ne_nil hl.ne_nil (.text s.fileText)
    have hdirs := sameDirectories_replaced hd.1 hl.1 (.text s.fileText)
    refine (hl.congr hlinks hlinks' hdirs).readText_of_text ?_
    rw [node?_replaced hd.ne_nil hl.ne_nil, if_pos rfl]

/-- A text of a snapshot is loaded as that snapshot, and no file changes. -/
theorem load_of_readText {text : String} {s : MemorySnapshot} (hread : fs.readText path = .ok text)
    (hdecode : Json.decode MemorySnapshot.read text = .ok s) (now : Timestamp) :
    load fs path now = .ok (s, fs) := by
  rw [load, hread]
  dsimp only
  rw [hdecode]

end Switchboard.FileStore
