import Mathlib.Data.List.Sort
import Mathlib.Data.String.Basic
import Switchboard.Proofs.Outcome
import Switchboard.Tool.WorkspaceListing

/-!
# What a listing tells of its directory

The entries of a directory are visited in the order they come as long as there is a place for one
more name, and what is visited is listed if it is a file or a directory (`exists_collect`). So a
listing is sound and bounded, and complete unless it is truncated; and the order does not show as
long as there is a place for every entry (`faithfulness`). A listing is truncated if an entry is
left to visit, which may be one that it has no place for: then nothing is missing although it is
truncated (`truncation`).
-/

namespace Switchboard

namespace Text

variable {l l' : List String}

theorem sortStrings_perm (l : List String) : (sortStrings l).Perm l :=
  List.mergeSort_perm l _

theorem mem_sortStrings {s : String} : s ∈ sortStrings l ↔ s ∈ l :=
  (sortStrings_perm l).mem_iff

theorem pairwise_sortStrings (l : List String) : (sortStrings l).Pairwise (· ≤ ·) :=
  List.pairwise_mergeSort' _ l

theorem pairwise_lt_sortStrings (h : l.Nodup) : (sortStrings l).Pairwise (· < ·) :=
  (pairwise_sortStrings l).imp₂ (fun _ _ hle hne => lt_of_le_of_ne hle hne)
    ((sortStrings_perm l).nodup_iff.mpr h)

theorem sortStrings_eq_of_pairwise (h : l.Perm l') (hl' : l'.Pairwise (· ≤ ·)) :
    sortStrings l = l' :=
  ((sortStrings_perm l).trans h).eq_of_pairwise' (pairwise_sortStrings l) hl'

/-- Sorting forgets the order. -/
theorem sortStrings_eq_of_perm (h : l.Perm l') : sortStrings l = sortStrings l' :=
  sortStrings_eq_of_pairwise (h.trans (sortStrings_perm l').symm) (pairwise_sortStrings l')

end Text

namespace WorkspaceListing

variable {entries entries' seen rest : List Entry} {kind : EntryKind} {name : String} {room : ℕ}

/-! ## The entries of a directory -/

/-- Whether a listing has a place for the entry. -/
def Entry.isListable (e : Entry) : Bool :=
  e.kind != .other

/-- The names of the entries of one kind. -/
def namesOf (kind : EntryKind) (entries : List Entry) : List String :=
  (entries.filter fun e => e.kind = kind).map (·.name)

/-- The names of a kind are those of the entries of that kind. -/
theorem mem_namesOf : name ∈ namesOf kind entries ↔ ⟨name, kind⟩ ∈ entries := by
  simp only [namesOf, List.mem_map, List.mem_filter, decide_eq_true_eq]
  constructor
  · rintro ⟨e, ⟨he, rfl⟩, rfl⟩
    exact he
  · exact fun h => ⟨_, ⟨h, rfl⟩, rfl⟩

theorem namesOf_sublist : (namesOf kind entries).Sublist (entries.map (·.name)) :=
  List.filter_sublist.map _

/-- Files and directories are the entries that can be listed. -/
theorem length_namesOf (entries : List Entry) :
    (namesOf .file entries).length + (namesOf .directory entries).length =
      entries.countP Entry.isListable := by
  induction entries with
  | nil => rfl
  | cons e rest ih =>
    rcases e with ⟨name, _ | _ | _⟩ <;>
      simp [namesOf, Entry.isListable, List.countP_cons] at ih ⊢ <;> omega

/-- Of the entries that come, `seen` are visited and `rest` are not: there was a place for one more
name at each entry that was visited, and there is none if an entry is left. -/
structure Visits (room : ℕ) (seen rest : List Entry) : Prop where
  hasRoom : ∀ before e after, seen = before ++ e :: after →
    before.countP Entry.isListable < room
  isFull : rest ≠ [] → seen.countP Entry.isListable = room

namespace Visits

theorem cons {e : Entry} (h : Visits room seen rest) (he : e.isListable = true) :
    Visits (room + 1) (e :: seen) rest where
  hasRoom before e' after heq := by
    rcases List.cons_eq_append_iff.mp heq with ⟨rfl, -⟩ | ⟨before, rfl, rfl⟩
    · exact Nat.succ_pos room
    · rw [List.countP_cons_of_pos he]
      exact Nat.succ_lt_succ (h.hasRoom before e' after rfl)
  isFull hrest := by rw [List.countP_cons_of_pos he, h.isFull hrest]

theorem cons_other {e : Entry} (h : Visits (room + 1) seen rest) (he : e.isListable = false) :
    Visits (room + 1) (e :: seen) rest where
  hasRoom before e' after heq := by
    rcases List.cons_eq_append_iff.mp heq with ⟨rfl, -⟩ | ⟨before, rfl, rfl⟩
    · exact Nat.succ_pos room
    · rw [List.countP_cons_of_neg (by simp [he])]
      exact h.hasRoom before e' after rfl
  isFull hrest := by rw [List.countP_cons_of_neg (by simp [he]), h.isFull hrest]

/-- No more entries are listed than there is room for. -/
theorem countP_le (h : Visits room seen rest) : seen.countP Entry.isListable ≤ room := by
  rcases seen.eq_nil_or_concat with rfl | ⟨before, e, rfl⟩
  · exact Nat.zero_le room
  · have hlt := h.hasRoom before e [] (List.concat_eq_append ..)
    have hle : [e].countP Entry.isListable ≤ 1 := List.countP_le_length
    rw [List.concat_eq_append, List.countP_append]
    omega

end Visits

/-- Adding entries to a listing with so much room lists what is visited of them. -/
theorem exists_collect (l : Listing) (entries : List Entry) (room : ℕ)
    (hroom : l.files.length + l.directories.length + room = maxEntries) :
    ∃ seen rest, entries = seen ++ rest ∧ Visits room seen rest ∧
      collect l entries = ⟨l.files ++ namesOf .file seen, l.directories ++ namesOf .directory seen,
        l.truncated || !rest.isEmpty⟩ := by
  -- The room shrinks with every name that is listed, and with nothing else.
  induction entries generalizing l room with
  | nil => exact ⟨[], [], rfl, ⟨by simp, by simp⟩, by simp [collect, namesOf]⟩
  | cons e entries ih =>
    cases room with
    | zero =>
      have hfull : maxEntries ≤ l.files.length + l.directories.length := hroom.ge
      exact ⟨[], e :: entries, rfl, ⟨by simp, by simp⟩, by simp [collect, hfull, namesOf]⟩
    | succ room =>
      have hfree : ¬ maxEntries ≤ l.files.length + l.directories.length := by omega
      obtain ⟨name, kind⟩ := e
      cases kind with
      | file =>
        obtain ⟨seen, rest, rfl, hvisits, hcollect⟩ :=
          ih { l with files := l.files ++ [name] } room (by simp; omega)
        exact ⟨_ :: seen, rest, rfl, hvisits.cons rfl,
          by simp [collect, hfree, hcollect, namesOf]⟩
      | directory =>
        obtain ⟨seen, rest, rfl, hvisits, hcollect⟩ :=
          ih { l with directories := l.directories ++ [name] } room (by simp; omega)
        exact ⟨_ :: seen, rest, rfl, hvisits.cons rfl,
          by simp [collect, hfree, hcollect, namesOf]⟩
      | other =>
        obtain ⟨seen, rest, rfl, hvisits, hcollect⟩ := ih l _ hroom
        exact ⟨_ :: seen, rest, rfl, hvisits.cons_other rfl,
          by simp [collect, hfree, hcollect, namesOf]⟩

/-- A listing shows the entries up to where it is cut off. -/
theorem exists_ofDirectory (entries : List Entry) :
    ∃ seen rest, entries = seen ++ rest ∧ Visits maxEntries seen rest ∧
      Listing.ofDirectory entries = ⟨Text.sortStrings (namesOf .file seen),
        Text.sortStrings (namesOf .directory seen), !rest.isEmpty⟩ := by
  obtain ⟨seen, rest, rfl, hvisits, hcollect⟩ :=
    exists_collect {} entries maxEntries (Nat.zero_add _)
  exact ⟨seen, rest, rfl, hvisits, by simp [Listing.ofDirectory, Listing.sorted, hcollect]⟩

/-! ## What is listed and what is missing -/

/-- What the listing of a directory with these entries has to be. -/
structure Listing.Tells (l : Listing) (entries : List Entry) : Prop where
  sorted_files : l.files.Pairwise (· < ·)
  sorted_directories : l.directories.Pairwise (· < ·)
  isFile : ∀ name ∈ l.files, ⟨name, .file⟩ ∈ entries
  isDirectory : ∀ name ∈ l.directories, ⟨name, .directory⟩ ∈ entries
  length_le : l.files.length + l.directories.length ≤ maxEntries
  complete : l.truncated = false → ∀ name, (⟨name, .file⟩ ∈ entries → name ∈ l.files) ∧
    (⟨name, .directory⟩ ∈ entries → name ∈ l.directories)

/-- A file or a directory is missing from the listing. -/
def Listing.Misses (l : Listing) (entries : List Entry) : Prop :=
  ∃ name, ⟨name, .file⟩ ∈ entries ∧ name ∉ l.files ∨
    ⟨name, .directory⟩ ∈ entries ∧ name ∉ l.directories

/-- A listing tells what is in the directory. -/
theorem tells_ofDirectory (h : (entries.map (·.name)).Nodup) :
    (Listing.ofDirectory entries).Tells entries := by
  obtain ⟨seen, rest, rfl, hvisits, hlisting⟩ := exists_ofDirectory entries
  have hseen : (seen.map (·.name)).Nodup := h.sublist ((List.sublist_append_left _ _).map _)
  have hnodup : ∀ kind, (namesOf kind seen).Nodup := fun _ => hseen.sublist namesOf_sublist
  have hsound : ∀ kind, ∀ name ∈ Text.sortStrings (namesOf kind seen),
      ⟨name, kind⟩ ∈ seen ++ rest := fun _ _ hname =>
    List.mem_append_left _ (mem_namesOf.mp (Text.mem_sortStrings.mp hname))
  rw [hlisting]
  refine ⟨Text.pairwise_lt_sortStrings (hnodup _), Text.pairwise_lt_sortStrings (hnodup _),
    hsound _, hsound _, ?_, fun hwhole name => ?_⟩
  · simp only [(Text.sortStrings_perm _).length_eq, length_namesOf]
    exact hvisits.countP_le
  · obtain rfl : rest = [] := by simpa using hwhole
    simp only [List.append_nil, Text.mem_sortStrings, mem_namesOf, imp_self, and_self]

/-- Where there is a place for every entry, the order in which they come does not show. -/
theorem ofDirectory_eq_of_perm (hlength : entries.length ≤ maxEntries)
    (h : entries'.Perm entries) : Listing.ofDirectory entries' = .ofDirectory entries := by
  have hwhole : ∀ {entries : List Entry}, entries.length ≤ maxEntries →
      Listing.ofDirectory entries = ⟨Text.sortStrings (namesOf .file entries),
        Text.sortStrings (namesOf .directory entries), false⟩ := by
    intro entries hlength
    obtain ⟨seen, rest, rfl, hvisits, hlisting⟩ := exists_ofDirectory entries
    cases rest with
    | nil => simpa using hlisting
    | cons e rest =>
      have hfull := hvisits.isFull (List.cons_ne_nil e rest)
      have hle : seen.countP Entry.isListable ≤ seen.length := List.countP_le_length
      rw [List.length_append, List.length_cons] at hlength
      omega
  have hnames : ∀ kind, (namesOf kind entries').Perm (namesOf kind entries) :=
    fun _ => (h.filter _).map _
  rw [hwhole hlength, hwhole (h.length_eq.trans_le hlength),
    Text.sortStrings_eq_of_perm (hnames .file), Text.sortStrings_eq_of_perm (hnames .directory)]

/-- What is missing is what was not visited. -/
theorem misses_iff (h : ((seen ++ rest).map (·.name)).Nodup) {truncated : Bool} :
    Listing.Misses ⟨Text.sortStrings (namesOf .file seen),
        Text.sortStrings (namesOf .directory seen), truncated⟩ (seen ++ rest) ↔
      0 < rest.countP Entry.isListable := by
  have hdisjoint : ∀ name kind kind', ⟨name, kind⟩ ∈ rest → ⟨name, kind'⟩ ∉ seen := by
    intro name kind kind' hrest hseen
    rw [List.map_append, List.nodup_append] at h
    exact h.2.2 _ (List.mem_map_of_mem hseen) _ (List.mem_map_of_mem hrest) rfl
  have hmissing : ∀ name kind, (⟨name, kind⟩ ∈ seen ++ rest ∧
      name ∉ Text.sortStrings (namesOf kind seen)) ↔ ⟨name, kind⟩ ∈ rest := by
    intro name kind
    rw [Text.mem_sortStrings, mem_namesOf, List.mem_append]
    exact ⟨fun ⟨hmem, hseen⟩ => hmem.resolve_left hseen,
      fun hrest => ⟨.inr hrest, hdisjoint name kind kind hrest⟩⟩
  simp only [Listing.Misses, hmissing, List.countP_pos_iff]
  constructor
  · rintro ⟨name, hfile | hdirectory⟩
    · exact ⟨_, hfile, rfl⟩
    · exact ⟨_, hdirectory, rfl⟩
  · rintro ⟨⟨name, kind⟩, hmem, hlistable⟩
    cases kind with
    | file => exact ⟨name, .inl hmem⟩
    | directory => exact ⟨name, .inr hmem⟩
    | other => cases hlistable

/-- A file or a directory is missing if there are more of them than places. The listing is
truncated too if there is a place for each, but not for the last entry, which is none. -/
theorem truncated_ofDirectory_iff (h : (entries.map (·.name)).Nodup) :
    ((Listing.ofDirectory entries).Misses entries ↔
        maxEntries < entries.countP Entry.isListable) ∧
      ((Listing.ofDirectory entries).truncated = true ↔
        (Listing.ofDirectory entries).Misses entries ∨
          entries.countP Entry.isListable = maxEntries ∧
            ∃ e, entries.getLast? = some e ∧ e.isListable = false) := by
  obtain ⟨seen, rest, rfl, hvisits, hlisting⟩ := exists_ofDirectory entries
  rw [hlisting, misses_iff h, List.countP_append]
  rcases rest.eq_nil_or_concat with rfl | ⟨others, last, rfl⟩
  · have hle := hvisits.countP_le
    refine ⟨by simp [hle], ?_⟩
    simp only [List.isEmpty_nil, Bool.not_true, Bool.false_eq_true, List.countP_nil, lt_irrefl,
      false_or, false_iff, List.append_nil, Nat.add_zero]
    rintro ⟨hcount, last, hlast, hother⟩
    -- There was a place left for the last entry, so it is not that of the last name.
    obtain ⟨before, rfl⟩ := List.getLast?_eq_some_iff.mp hlast
    have hlt := hvisits.hasRoom before last [] rfl
    rw [List.countP_append, List.countP_singleton, hother] at hcount
    simp only [Bool.false_eq_true, if_false] at hcount
    omega
  · have hfull := hvisits.isFull (by simp)
    refine ⟨by omega, fun _ => ?_, fun _ => by simp⟩
    rcases Nat.eq_zero_or_pos ((others.concat last).countP Entry.isListable) with hzero | hpos
    · refine .inr ⟨by omega, last, by simp, ?_⟩
      rw [List.concat_eq_append, List.countP_append] at hzero
      simpa [List.countP_singleton] using (Nat.add_eq_zero_iff.mp hzero).2
    · exact .inl hpos

variable {read : String → Except FileSystem.Fault (List Entry)} {base path : String} {args : Json}
  {listing : Listing}

/-- The tool answers exactly if the argument is accepted and the directory can be read. -/
theorem listWith_eq_ok_iff :
    listWith read base args = .ok (path, listing) ↔
      ∃ relative entries, pathArgument args = .ok relative ∧ resolve base relative = .ok path ∧
        read path = .ok entries ∧ listing = .ofDirectory entries := by
  constructor
  · intro h
    obtain ⟨relative, hargs, h⟩ := Outcome.bind_eq_ok.1 h
    obtain ⟨path', hpath, h⟩ := Outcome.bind_eq_ok.1 h
    split at h
    · next entries hentries =>
      obtain ⟨rfl, rfl⟩ := Prod.mk.inj (Except.ok.inj h)
      exact ⟨relative, entries, hargs, hpath, hentries, rfl⟩
    · cases h
  · rintro ⟨relative, entries, hargs, hpath, hentries, rfl⟩
    simp [listWith, hargs, hpath, hentries]

/-- What is read in a file system is a directory of it, with the names in it. -/
theorem readDirectory_eq_ok_iff {fs : FileSystem} :
    readDirectory fs path = .ok entries ↔ ∃ l, fs.directory path = .ok l ∧
      entries = (fs.entries l).map fun n => .ofNode n.1 n.2 := by
  simp only [readDirectory, FileSystem.list, Outcome.map_eq_ok, Outcome.bind_eq_ok,
    Outcome.pure_eq, Except.ok.injEq]
  constructor
  · rintro ⟨_, ⟨l, hl, rfl⟩, rfl⟩
    exact ⟨l, hl, rfl⟩
  · rintro ⟨l, hl, rfl⟩
    exact ⟨_, ⟨l, hl, rfl⟩, rfl⟩

/-- No name stands twice in a directory if nothing stands twice in the file system. -/
theorem nodup_readDirectory {fs : FileSystem} (hnodes : (fs.nodes.map (·.1)).Nodup)
    (path : String) (entries : List Entry) (h : readDirectory fs path = .ok entries) :
    (entries.map (·.name)).Nodup := by
  obtain ⟨dir, -, rfl⟩ := readDirectory_eq_ok_iff.mp h
  have hname : ∀ name node, (Entry.ofNode name node).name = name := by
    rintro name (_ | _ | _) <;> rfl
  have hnames : ((fs.entries dir).map fun n => Entry.ofNode n.1 n.2).map (·.name) =
      (fs.nodes.map (·.1)).filterMap fun l =>
        if FileSystem.isIn dir l then l.getLast? else none := by
    simp only [FileSystem.entries, List.map_filterMap, List.filterMap_map]
    refine List.filterMap_congr fun n _ => ?_
    cases hin : FileSystem.isIn dir n.1 <;> simp [hin, hname, Function.comp_def]
  rw [hnames]
  refine List.Nodup.filterMap (fun l l' name hl hl' => ?_) hnodes
  have hsplit : ∀ l : Location, name ∈ (if FileSystem.isIn dir l then l.getLast? else none) →
      l = dir ++ [name] := by
    intro l hl
    split at hl
    · next hin =>
      simp only [FileSystem.isIn, Bool.and_eq_true, bne_iff_ne, decide_eq_true_eq] at hin
      rw [← hin.2]
      exact (List.dropLast_append_getLast? name hl).symm
    · cases hl
  rw [hsplit l hl, hsplit l' hl']

/-- Whatever directory is read, in which no name stands twice, what the tool answers has files and
directories of it in order, as many as there are places for; it has all of them unless it is
truncated, and if there is a place for every entry, the answer is the same in every order in which
the entries come. -/
theorem faithfulness (read : String → Except FileSystem.Fault (List Entry))
    (hread : ∀ path entries, read path = .ok entries → (entries.map (·.name)).Nodup)
    (base : String) (args : Json) (path : String) (listing : Listing)
    (h : listWith read base args = .ok (path, listing)) :
    ∃ entries, read path = .ok entries ∧ listing.Tells entries ∧
      (entries.length ≤ maxEntries → ∀ (read' : String → Except FileSystem.Fault (List Entry))
        (entries' : List Entry), read' path = .ok entries' → entries'.Perm entries →
        listWith read' base args = .ok (path, listing)) := by
  obtain ⟨relative, entries, hargs, hpath, hentries, rfl⟩ := listWith_eq_ok_iff.mp h
  refine ⟨entries, hentries, tells_ofDirectory (hread path entries hentries), ?_⟩
  intro hlength read' entries' hentries' hperm
  exact listWith_eq_ok_iff.mpr ⟨relative, entries', hargs, hpath, hentries',
    (ofDirectory_eq_of_perm hlength hperm).symm⟩

namespace Desk

/-- A directory in which nothing stands in order, and a link. -/
def files : FileSystem where
  nodes := [(["ws"], .directory), (["ws", "b.rs"], .file (.text "b")), (["ws", "src"], .directory),
    (["ws", "out"], .link "src"), (["ws", "a.rs"], .file (.text "a"))]
  workingDirectory := []

/-- The files stand in order, and the link is left out. -/
theorem listed_in_order : (files.nodes.map (·.1)).Nodup ∧
    list files "/ws" (.obj []) = .ok ("/ws", ⟨["a.rs", "b.rs"], ["src"], false⟩) ∧
    ∃ entries, readDirectory files "/ws" = .ok entries ∧
      Listing.Tells ⟨["a.rs", "b.rs"], ["src"], false⟩ entries := by
  have hnodup : (files.nodes.map (·.1)).Nodup := by decide
  have hfiles : Text.sortStrings ["b.rs", "a.rs"] = ["a.rs", "b.rs"] :=
    Text.sortStrings_eq_of_pairwise (List.Perm.swap _ _ _) (by decide)
  have hdirectories : Text.sortStrings ["src"] = ["src"] :=
    Text.sortStrings_eq_of_pairwise (.refl _) (by decide)
  have hlist : list files "/ws" (.obj []) = .ok ("/ws", ⟨["a.rs", "b.rs"], ["src"], false⟩) := by
    rw [← hfiles, ← hdirectories]
    rfl
  obtain ⟨entries, hentries, htells, -⟩ :=
    faithfulness (readDirectory files) (nodup_readDirectory hnodup) "/ws" (.obj []) _ _ hlist
  exact ⟨hnodup, hlist, entries, hentries, htells⟩

end Desk

/-- Whatever directory is read, in which no name stands twice, a file or a directory is missing
from the answer of the tool exactly if there are more of them than places. The answer is truncated
if so, and also if there are as many of them as places and the last entry is neither. -/
theorem truncation (read : String → Except FileSystem.Fault (List Entry))
    (hread : ∀ path entries, read path = .ok entries → (entries.map (·.name)).Nodup)
    (base : String) (args : Json) (path : String) (listing : Listing)
    (h : listWith read base args = .ok (path, listing)) :
    ∃ entries, read path = .ok entries ∧
      (listing.Misses entries ↔ maxEntries < entries.countP Entry.isListable) ∧
      (listing.truncated = true ↔ listing.Misses entries ∨
        entries.countP Entry.isListable = maxEntries ∧
          ∃ e, entries.getLast? = some e ∧ e.isListable = false) := by
  obtain ⟨relative, entries, -, -, hentries, rfl⟩ := listWith_eq_ok_iff.mp h
  exact ⟨entries, hentries, truncated_ofDirectory_iff (hread path entries hentries)⟩

namespace Crowd

/-- As many files as a listing has places for. -/
def paths : List Location :=
  (List.range maxEntries).map fun n => ["ws", String.ofList (List.replicate n 'f')]

/-- A directory of files, and a link after them. -/
def files : FileSystem where
  nodes := (["ws"], .directory) :: paths.map (·, .file (.text "")) ++ [(["ws", "link"], .link "ws")]
  workingDirectory := []

theorem nodup_files : (files.nodes.map (·.1)).Nodup := by
  have hpaths : paths.Nodup := by
    refine List.nodup_range.map fun m n h => ?_
    have hlength := congrArg String.length (List.cons.inj (List.cons.inj h).2).1
    simpa using hlength
  have hlink : ["ws", "link"] ∉ paths := by
    intro h
    obtain ⟨n, -, hn⟩ := List.mem_map.mp h
    have hname := congrArg String.toList (List.cons.inj (List.cons.inj hn).2).1
    have hmem : 'l' ∈ List.replicate n 'f' := by
      rw [String.toList_ofList] at hname
      rw [hname]
      decide
    exact absurd (List.eq_of_mem_replicate hmem) (by decide)
  have hroot : ["ws"] ∉ paths := by simp [paths]
  have hnodes : files.nodes.map (·.1) = ["ws"] :: (paths ++ [["ws", "link"]]) := by
    simp [files, Function.comp_def]
  rw [hnodes, List.nodup_cons, List.nodup_append]
  refine ⟨by simp [hroot], hpaths, List.nodup_singleton _, ?_⟩
  rintro path hpath _ hother rfl
  exact hlink (List.mem_singleton.mp hother ▸ hpath)

/-- The entries of the directory. -/
def crowd : List Entry :=
  (List.range maxEntries).map (fun n => ⟨String.ofList (List.replicate n 'f'), .file⟩) ++
    [⟨"link", .other⟩]

theorem readDirectory_files : readDirectory files "/ws" = .ok crowd := by
  refine readDirectory_eq_ok_iff.mpr ⟨["ws"], rfl, ?_⟩
  simp [FileSystem.entries, files, paths, FileSystem.isIn, crowd, Entry.ofNode,
    Function.comp_def]

theorem countP_crowd : crowd.countP Entry.isListable = maxEntries := by
  have hfile : (EntryKind.file != .other) = true := rfl
  simp [crowd, List.countP_map, Entry.isListable, Function.comp_def, hfile]

/-- The listing is truncated by the link, which it has no place for. -/
theorem truncated_by_link : (files.nodes.map (·.1)).Nodup ∧
    readDirectory files "/ws" = .ok crowd ∧
    ∃ listing, list files "/ws" (.obj []) = .ok ("/ws", listing) ∧
      listing.truncated = true ∧ ¬ listing.Misses crowd := by
  have hlist : list files "/ws" (.obj []) = .ok ("/ws", .ofDirectory crowd) :=
    listWith_eq_ok_iff.mpr ⟨none, crowd, rfl, rfl, readDirectory_files, rfl⟩
  obtain ⟨entries, hentries, hmisses, htruncated⟩ :=
    truncation (readDirectory files) (nodup_readDirectory nodup_files) "/ws" (.obj []) _ _ hlist
  obtain rfl : crowd = entries := Except.ok.inj (readDirectory_files.symm.trans hentries)
  refine ⟨nodup_files, readDirectory_files, _, hlist,
    htruncated.mpr (.inr ⟨countP_crowd, ⟨"link", .other⟩, ?_, rfl⟩),
    fun h => (hmisses.mp h).ne' countP_crowd⟩
  simp [crowd]

end Crowd

end WorkspaceListing

end Switchboard
