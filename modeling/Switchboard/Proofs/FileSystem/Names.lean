import Switchboard.Proofs.FileSystem.Walk
import Switchboard.Proofs.Splitting

/-!
# The last name of a path

A path that leads to a location for a file ends in the name of the location, with nothing after
it (`FileSystem.Leads.last`). A draft beside such a path has the extension `tmp`, so it leads
elsewhere unless the path has this extension too.
-/

namespace Switchboard

namespace Path

open Text

/-- The extension of the last name. -/
def extension? (path : String) : Option String :=
  (fileName path).bind fun name => (splitExtension name).2

/-- What is put behind the last point of a name is its extension. -/
theorem splitExtension_append {name ext : String} (hname : name ≠ "") (hext : '.' ∉ ext.toList) :
    (splitExtension (name ++ "." ++ ext)).2 = some ext := by
  have hsplit : (name ++ "." ++ ext).toList.splitOn '.' =
      name.toList.splitOn '.' ++ [ext.toList] := by
    rw [splitOn_toList_append rfl, List.splitOn_eq_singleton hext]
  unfold splitExtension
  rw [hsplit]
  cases hpieces : name.toList.splitOn '.' with
  | nil => exact absurd hpieces (List.splitOn_ne_nil _ _)
  | cons a rest =>
    cases rest with
    | nil =>
      cases a with
      | nil => exact absurd (splitOn_eq_nil_piece hpieces) (by simpa using hname)
      | cons c a => simp
    | cons b rest => cases a <;> cases rest <;> simp [List.getLast?_cons]

theorem splitExtension_fst_ne {name : String} (h : name ≠ "") : (splitExtension name).1 ≠ "" := by
  unfold splitExtension
  split
  · exact h
  · exact h
  · exact h
  · next hone hhidden =>
    cases hpieces : name.toList.splitOn '.' with
    | nil => exact absurd hpieces (List.splitOn_ne_nil _ _)
    | cons a rest =>
      cases rest with
      | nil => exact (hone a hpieces).elim
      | cons b rest =>
        cases rest with
        | nil =>
          cases a with
          | nil => exact (hhidden b hpieces).elim
          | cons c a => simp
        | cons c rest => simp

/-- What comes before an extension has no other characters than the name and a point. -/
theorem mem_splitExtension {name : String} {c : Char} (h : c ∈ (splitExtension name).1.toList) :
    c ∈ name.toList ∨ c = '.' := by
  unfold splitExtension at h
  split at h
  · exact .inl h
  · exact .inl h
  · exact .inl h
  · rw [String.toList_ofList] at h
    rcases mem_intercalate h with h | ⟨piece, hpiece, hc⟩
    · exact .inr (List.mem_singleton.1 h)
    · exact .inl (mem_of_mem_splitOn (List.dropLast_subset _ hpiece) hc).1

theorem pieces_ne_nil (path : String) : pieces path ≠ [] := by
  simp [pieces]

/-- The pieces of two texts with a slash between them are those of the one and of the other. -/
theorem pieces_append (s t : String) : pieces (s ++ "/" ++ t) = pieces s ++ pieces t := by
  rw [pieces, splitOn_toList_append rfl, List.map_append, pieces, pieces]

/-- The pieces of joined texts are those of each. -/
theorem pieces_intercalate {l : List String} (hl : l ≠ []) :
    pieces ("/".intercalate l) = l.flatMap pieces := by
  rw [pieces, splitOn_intercalate rfl hl, List.map_flatMap]
  rfl

theorem pieces_of_not_mem {name : String} (h : '/' ∉ name.toList) : pieces name = [name] := by
  simp [pieces, List.splitOn_eq_singleton h]

theorem isAbsolute_of_not_mem {name : String} (h : '/' ∉ name.toList) : isAbsolute name = false :=
  decide_eq_false fun hhead => h (List.mem_of_mem_head? (hhead ▸ rfl))

/-- A name joined to the end is the last piece. -/
theorem getLast?_pieces_intercalate {name : String} (hname : '/' ∉ name.toList)
    (before : List String) :
    (pieces ("/".intercalate (before ++ [name]))).getLast? = some name := by
  rw [pieces_intercalate (by simp), List.flatMap_append, List.flatMap_singleton,
    pieces_of_not_mem hname, List.getLast?_concat]

/-- A path that ends in a name has it as the name of its file. -/
theorem splitName_of_last {path name : String} (hname : FileSystem.IsName name)
    (h : (pieces path).getLast? = some name) :
    splitName path = some ((pieces path).dropLast, name) := by
  obtain ⟨h0, h1, h2⟩ := hname
  have htrim : trimPieces (pieces path) = pieces path := by
    cases hps : pieces path with
    | nil => rfl
    | cons first rest =>
      rw [hps] at h
      rw [trimPieces]
      cases hrev : rest.reverse with
      | nil => simp [List.reverse_eq_nil_iff.1 hrev]
      | cons last others =>
        have hrest : rest = others.reverse ++ [last] := by
          rw [← List.reverse_cons, ← hrev, List.reverse_reverse]
        have hlast : last = name := by simpa [hrest, List.getLast?_cons] using h
        simp [hrest, hlast, h0, h1]
  rw [splitName, htrim, h]
  simp [h0, h1, h2]

/-- The path of a single name without an extension, with one. -/
theorem withExtension_name {name : String} (hname : FileSystem.IsName name)
    (hslash : '/' ∉ name.toList) (hdot : '.' ∉ name.toList) (ext : String) :
    withExtension name ext = name ++ "." ++ ext := by
  have hpieces := pieces_of_not_mem hslash
  have hsplit : splitName name = some ([], name) := by
    rw [splitName_of_last hname (by rw [hpieces]; rfl), hpieces]
    rfl
  have hext : splitExtension name = (name, none) := by
    rw [splitExtension, List.splitOn_eq_singleton hdot]
  have hdrop : dropExtension name = name := by simp [dropExtension, fileName, hsplit, hext]
  unfold withExtension
  dsimp only
  rw [hdrop, hsplit]
  dsimp only
  rw [hext]
  rfl

/-- Behind a slash at the end the last piece is empty. -/
theorem getLast?_pieces_of_slash {path : String} (h : FileSystem.asksForDirectory path = true) :
    (pieces path).getLast? = some "" := by
  have hlast : path.toList.getLast? = some '/' := of_decide_eq_true h
  obtain ⟨s, hs⟩ := List.getLast?_eq_some_iff.1 hlast
  rw [pieces, hs, List.splitOn_append_cons_self]
  simp

theorem trimPieces_subset (ps : List String) : trimPieces ps ⊆ ps := by
  cases ps with
  | nil => exact List.Subset.refl _
  | cons first rest =>
    refine List.cons_subset_cons first fun p hp => ?_
    have hdrop := (List.dropWhile_sublist _).subset (List.mem_reverse.1 hp)
    exact List.mem_reverse.1 hdrop

/-- The last name of a path is one of its pieces, and is not empty. -/
theorem mem_of_splitName {path name : String} {before : List String}
    (h : splitName path = some (before, name)) : name ∈ pieces path ∧ name ≠ "" := by
  unfold splitName at h
  dsimp only at h
  split at h
  · cases h
  · next last hlast =>
    split at h
    · cases h
    · next hname =>
      simp only [Option.some.injEq, Prod.mk.injEq] at h
      obtain ⟨-, rfl⟩ := h
      exact ⟨trimPieces_subset _ (List.mem_of_getLast? hlast), fun h0 => hname (.inl h0)⟩

/-- The pieces of a path have its characters, except for slashes. -/
theorem mem_of_mem_pieces {path name : String} {c : Char} (h : name ∈ pieces path)
    (hc : c ∈ name.toList) : c ∈ path.toList ∧ c ≠ '/' := by
  obtain ⟨piece, hpiece, rfl⟩ := List.mem_map.1 h
  rw [String.toList_ofList] at hc
  exact mem_of_mem_splitOn hpiece hc

theorem slash_not_mem_of_mem_pieces {path name : String} (h : name ∈ pieces path) :
    '/' ∉ name.toList :=
  fun hc => (mem_of_mem_pieces h hc).2 rfl

/-- A path with another extension ends in the stem of a name with that extension. -/
theorem getLast?_pieces_withExtension {path ext name : String} {before : List String}
    (hext : '/' ∉ ext.toList) (h : splitName (dropExtension path) = some (before, name)) :
    (pieces (withExtension path ext)).getLast? = some ((splitExtension name).1 ++ "." ++ ext) := by
  have hname := slash_not_mem_of_mem_pieces (mem_of_splitName h).1
  have hslash : '/' ∉ ((splitExtension name).1 ++ "." ++ ext).toList := by
    simp only [String.toList_append, List.mem_append, not_or]
    refine ⟨⟨fun hc => ?_, by decide⟩, hext⟩
    rcases mem_splitExtension hc with hc | hc
    · exact hname hc
    · exact absurd hc (by decide)
  have hdraft : withExtension path ext =
      "/".intercalate (before ++ [(splitExtension name).1 ++ "." ++ ext]) := by
    unfold withExtension
    dsimp only
    rw [h]
  rw [hdraft]
  exact getLast?_pieces_intercalate hslash before

end Path

/-! ## Where paths lead -/

namespace FileSystem

variable {fs : FileSystem} {l : Location} {path : String}

theorem getLast?_names (path : String) : (names path).getLast? = (Path.pieces path).getLast? := by
  cases h : (Path.pieces path).getLast? with
  | none => exact absurd (List.getLast?_eq_none_iff.1 h) (Path.pieces_ne_nil path)
  | some name => simp [names, h]

/-- A path that leads to a location for a file ends in the name of the location. -/
theorem Leads.last (hlinks : fs.LinkFree) (h : fs.Leads path l) :
    ∃ name, IsName name ∧ (Path.pieces path).getLast? = some name ∧ l.getLast? = some name := by
  have hc := (leads_iff hlinks).1 h
  unfold courseOf at hc
  split at hc
  · cases hc
  split at hc
  · cases hc
  split at hc
  · cases hc
  obtain ⟨-, name, hname, hlast, hl⟩ := course_eq_last (Except.ok.inj hc)
  exact ⟨name, hname, (getLast?_names path).symm.trans hlast, hl⟩

/-- A path that leads to a place for a file does not end in a slash. -/
theorem Leads.not_asksForDirectory (hlinks : fs.LinkFree) (h : fs.Leads path l) :
    asksForDirectory path = false := by
  obtain ⟨name, hname, hlast, -⟩ := h.last hlinks
  cases hslash : asksForDirectory path with
  | false => rfl
  | true =>
    rw [Path.getLast?_pieces_of_slash hslash] at hlast
    exact absurd (Option.some.inj hlast).symm hname.1

/-- A path that leads to a place for a file does not end in a point or two. -/
theorem Leads.not_endsInDirectory (hlinks : fs.LinkFree) (h : fs.Leads path l) :
    endsInDirectory path = false := by
  obtain ⟨name, ⟨h0, h1, h2⟩, hlast, -⟩ := h.last hlinks
  simp [endsInDirectory, hlast, h0, h1, h2]

theorem withoutSlashes_of_not_asksForDirectory (h : asksForDirectory path = false) :
    withoutSlashes path = path := by
  have hlast : path.toList.reverse.head? ≠ some '/' := by
    rw [List.head?_reverse]
    exact of_decide_eq_false h
  unfold withoutSlashes
  cases hrev : path.toList.reverse with
  | nil => rfl
  | cons c rest =>
    have hc : c ≠ '/' := fun hc => hlast (by rw [hrev, hc]; rfl)
    have hlist : path.toList = (c :: rest).reverse := by rw [← hrev, List.reverse_reverse]
    rw [List.dropWhile_cons_of_neg (by simpa using hc)]
    dsimp only
    rw [← hlist, String.ofList_toList]

theorem isName_of_size {name : String} (h : 3 ≤ name.utf8ByteSize) : IsName name := by
  refine ⟨?_, ?_, ?_⟩ <;> (rintro rfl; exact absurd h (by decide))

/-! Names of any length, for paths that are too long: `n` times the same letter. -/

theorem utf8ByteSize_replicate (n : Nat) :
    (String.ofList (List.replicate n 'a')).utf8ByteSize = n := by
  induction n with
  | zero => rfl
  | succ n ih =>
    rw [List.replicate_succ, String.ofList_cons, String.utf8ByteSize_append, ih,
      String.utf8ByteSize_singleton, Nat.add_comm]
    rfl

theorem not_mem_replicate {c : Char} (hc : c ≠ 'a') (n : Nat) :
    c ∉ (String.ofList (List.replicate n 'a')).toList := by
  rw [String.toList_ofList]
  exact fun h => hc (List.eq_of_mem_replicate h)

/-- The course of a path that is a single name. -/
theorem courseOf_name {name : String} (hname : IsName name) (hslash : '/' ∉ name.toList)
    (hnul : Char.ofNat 0 ∉ name.toList) (hlen : name.utf8ByteSize ≤ maxPathLength) :
    fs.courseOf name = .ok
      (if maxNameLength < name.utf8ByteSize then .tooLong
      else if fs.isDirectory (fs.workingDirectory ++ [name]) then
        .directory (fs.workingDirectory ++ [name])
      else .last (fs.workingDirectory ++ [name])) := by
  obtain ⟨h0, h1, h2⟩ := hname
  have hpieces := Path.pieces_of_not_mem hslash
  have habsolute := Path.isAbsolute_of_not_mem hslash
  simp [courseOf, hnul, h0, h1, h2, Nat.not_lt.2 hlen, start, habsolute, names, hpieces, course]

/-- A name without slashes leads to its place in the working directory, if it is not too long and no
directory stands there. -/
theorem leads_name (hlinks : fs.LinkFree) {name : String} (hname : IsName name)
    (hslash : '/' ∉ name.toList) (hnul : Char.ofNat 0 ∉ name.toList)
    (hlen : name.utf8ByteSize ≤ maxNameLength)
    (hfree : fs.isDirectory (fs.workingDirectory ++ [name]) = false) :
    fs.Leads name (fs.workingDirectory ++ [name]) := by
  have hpath : name.utf8ByteSize ≤ maxPathLength := Nat.le_trans hlen (by decide)
  rw [leads_iff hlinks, courseOf_name hname hslash hnul hpath, if_neg (Nat.not_lt.2 hlen),
    if_neg (by simp [hfree])]

/-- A path with another extension that leads to a location for a file gives it that extension. -/
theorem Leads.exists_last_withExtension (hlinks : fs.LinkFree) {ext : String}
    (hslash : '/' ∉ ext.toList) (h : fs.Leads (Path.withExtension path ext) l) :
    ∃ stem, stem ≠ "" ∧ l.getLast? = some (stem ++ "." ++ ext) := by
  obtain ⟨name, hname, hlast, hl⟩ := h.last hlinks
  cases hbare : Path.splitName (Path.dropExtension path) with
  | none =>
    have hsame : Path.withExtension path ext = Path.dropExtension path := by
      unfold Path.withExtension
      dsimp only
      rw [hbare]
    rw [hsame] at hlast
    rw [Path.splitName_of_last hname hlast] at hbare
    cases hbare
  | some split =>
    obtain ⟨before, bareName⟩ := split
    refine ⟨_, Path.splitExtension_fst_ne (Path.mem_of_splitName hbare).2, ?_⟩
    rw [hl, ← hlast]
    exact Path.getLast?_pieces_withExtension hslash hbare

/-- A path with another extension leads elsewhere. -/
theorem Leads.ne_withExtension (hlinks : fs.LinkFree) {ext : String} {l' : Location}
    (hslash : '/' ∉ ext.toList) (hdot : '.' ∉ ext.toList) (hext : Path.extension? path ≠ some ext)
    (h : fs.Leads path l) (h' : fs.Leads (Path.withExtension path ext) l') : l ≠ l' := by
  rintro rfl
  obtain ⟨name, hname, hlast, hl⟩ := h.last hlinks
  obtain ⟨stem, hstem, hdraft⟩ := h'.exists_last_withExtension hlinks hslash
  have heq : name = stem ++ "." ++ ext := Option.some.inj (hl.symm.trans hdraft)
  apply hext
  rw [Path.extension?, Path.fileName, Path.splitName_of_last hname hlast, heq]
  exact Path.splitExtension_append hstem hdot

end FileSystem

end Switchboard
