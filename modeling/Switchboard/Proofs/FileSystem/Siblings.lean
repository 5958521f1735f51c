import Switchboard.Proofs.FileSystem.Links

/-!
# Names beside a file

A path with another file name leads to the directory of the file, and there to that name
(`FileSystem.Leads.withFileName_iff`). The text of such a path need not be that of the old one up
to the name, but it has the same names in it, up to idle ones.
-/

namespace Switchboard

namespace Path

variable {path name : String} {before ps : List String}

/-- A path is absolute exactly if it has an empty piece before others. -/
theorem isAbsolute_iff : isAbsolute path = true ↔ ∃ ps, ps ≠ [] ∧ pieces path = "" :: ps := by
  unfold isAbsolute pieces
  cases hpath : path.toList with
  | nil => simp
  | cons c rest =>
    rw [List.splitOn_cons_eq_if_modifyHead]
    by_cases hc : c = '/'
    · simp [hc]
    · obtain ⟨first, others, hsplit⟩ := List.exists_cons_of_ne_nil (List.splitOn_ne_nil '/' rest)
      simp [hc, hsplit]

/-- Whether a name moves a walk. -/
def isIdle (name : String) : Bool :=
  name = "" || name = "."

theorem filter_trimPieces (ps : List String) :
    (trimPieces ps).filter (!isIdle ·) = ps.filter (!isIdle ·) := by
  cases ps with
  | nil => rfl
  | cons first rest =>
    have hdrop : ∀ l : List String,
        (l.dropWhile isIdle).filter (!isIdle ·) = l.filter (!isIdle ·) := by
      intro l
      induction l with
      | nil => rfl
      | cons p l ih =>
        rw [List.dropWhile_cons]
        split
        · next hp => simp [ih, hp]
        · rfl
    have hrest := congrArg List.reverse (hdrop rest.reverse)
    rw [← List.filter_reverse, ← List.filter_reverse, List.reverse_reverse] at hrest
    unfold trimPieces
    rw [List.filter_cons, List.filter_cons, ← hrest]
    rfl

/-- Pieces joined by slashes are split again. -/
theorem pieces_intercalate_eq (hps : ps ≠ []) (h : ∀ p ∈ ps, '/' ∉ p.toList) :
    pieces ("/".intercalate ps) = ps := by
  rw [pieces_intercalate hps, List.flatMap_def,
    List.map_congr_left fun p hp => pieces_of_not_mem (h p hp), ← List.flatMap_def,
    List.flatMap_singleton']

/-- The text of a directory has the pieces before the name, up to idle ones at their end. -/
theorem pieces_directoryText (hbefore : ∀ p ∈ before, '/' ∉ p.toList) :
    pieces (directoryText before) =
      if trimPieces before = [] then [""]
      else if trimPieces before = [""] then ["", ""] else trimPieces before := by
  unfold directoryText
  split
  · next h =>
    rw [h]
    rfl
  · next h =>
    rw [h]
    rfl
  · next hnil hroot =>
    rw [if_neg hnil, if_neg hroot]
    exact pieces_intercalate_eq hnil fun p hp => hbefore p (trimPieces_subset before hp)

/-- The text of a directory has the pieces it was made from, apart from idle ones. -/
theorem filter_pieces_directoryText (hbefore : ∀ p ∈ before, '/' ∉ p.toList) :
    (pieces (directoryText before)).filter (!isIdle ·) = before.filter (!isIdle ·) := by
  rw [← filter_trimPieces before, pieces_directoryText hbefore]
  split
  · next h =>
    rw [h]
    rfl
  · split
    · next h =>
      rw [h]
      rfl
    · rfl

/-- The text of a directory is absolute exactly if its pieces begin with an empty one. -/
theorem isAbsolute_directoryText (hbefore : ∀ p ∈ before, '/' ∉ p.toList) :
    isAbsolute (directoryText before) = true ↔ ∃ rest, before = "" :: rest := by
  rw [isAbsolute_iff, pieces_directoryText hbefore]
  cases before with
  | nil => simp [trimPieces]
  | cons first rest =>
    rw [if_neg (by simp [trimPieces])]
    split
    · next h =>
      have hfirst : first = "" := (List.cons.inj h).1
      simp [hfirst]
    · next h =>
      rw [trimPieces] at h ⊢
      constructor
      · rintro ⟨others, -, heq⟩
        exact ⟨rest, by rw [(List.cons.inj heq).1]⟩
      · rintro ⟨others, heq⟩
        rw [(List.cons.inj heq).1] at h ⊢
        exact ⟨_, fun hnil => h (by rw [hnil]), rfl⟩

theorem mem_directoryText {c : Char} (hc : c ∈ (directoryText before).toList) :
    c = '/' ∨ ∃ p ∈ before, c ∈ p.toList := by
  unfold directoryText at hc
  split at hc
  · cases hc
  · exact .inl (by simpa using hc)
  · rw [String.toList_intercalate] at hc
    rcases Text.mem_intercalate hc with hc | ⟨piece, hpiece, hc⟩
    · exact .inl (by simpa using hc)
    · obtain ⟨p, hp, rfl⟩ := List.mem_map.1 hpiece
      exact .inr ⟨p, trimPieces_subset before hp, hc⟩

theorem mem_join {directory : String} {c : Char} (hc : c ∈ (join directory name).toList) :
    c ∈ directory.toList ∨ c = '/' ∨ c ∈ name.toList := by
  unfold join at hc
  split at hc
  · exact .inr (.inr hc)
  · split at hc
    · rw [String.toList_append, List.mem_append] at hc
      exact hc.imp_right .inr
    · rw [String.toList_append, String.toList_append, List.mem_append, List.mem_append] at hc
      rcases hc with (hc | hc) | hc
      · exact .inl hc
      · exact .inr (.inl (by simpa using hc))
      · exact .inr (.inr hc)

section WithFileName

variable {old : String} (hold : FileSystem.IsName old) (hpieces : pieces path = before ++ [old])
include hold hpieces

theorem withFileName_eq (name : String) :
    withFileName path name = join (directoryText before) name := by
  have hlast : (pieces path).getLast? = some old := by rw [hpieces, List.getLast?_concat]
  rw [withFileName, splitName_of_last hold hlast, hpieces, List.dropLast_concat]

omit hold in
theorem slash_not_mem_before : ∀ p ∈ before, '/' ∉ p.toList := by
  intro p hp
  have hmem : p ∈ pieces path := by
    rw [hpieces]
    exact List.mem_append_left _ hp
  exact slash_not_mem_of_mem_pieces hmem

/-- With another name a path stays absolute or relative. -/
theorem isAbsolute_withFileName (hslash : '/' ∉ name.toList) :
    isAbsolute (withFileName path name) = isAbsolute path := by
  have hbefore := slash_not_mem_before hpieces
  rw [withFileName_eq hold hpieces, isAbsolute_join (isAbsolute_of_not_mem hslash),
    Bool.eq_iff_iff, isAbsolute_directoryText hbefore, isAbsolute_iff, hpieces]
  constructor
  · rintro ⟨rest, rfl⟩
    exact ⟨rest ++ [old], by simp, rfl⟩
  · rintro ⟨ps, -, heq⟩
    cases before with
    | nil => exact absurd (List.cons.inj heq).1 hold.1
    | cons first rest => exact ⟨rest, by rw [(List.cons.inj heq).1]⟩

/-- With another name a path has no other characters than a slash and those of the path and of the
name. -/
theorem mem_withFileName {c : Char} (hc : c ∈ (withFileName path name).toList) :
    c = '/' ∨ c ∈ path.toList ∨ c ∈ name.toList := by
  rw [withFileName_eq hold hpieces] at hc
  rcases mem_join hc with hc | rfl | hc
  · rcases mem_directoryText hc with rfl | ⟨p, hp, hc⟩
    · exact .inl rfl
    · have hmem : p ∈ pieces path := by
        rw [hpieces]
        exact List.mem_append_left _ hp
      exact .inr (.inl (mem_of_mem_pieces hmem hc).1)
  · exact .inl rfl
  · exact .inr (.inr hc)

end WithFileName

end Path

/-! ## Where it leads -/

namespace FileSystem

variable {fs : FileSystem} {path name : String} {l l' dir p : Location} {xs : List String}
  {isDirectory : Location → Bool}

/-- Idle names on the way to a directory may be left out. -/
theorem course_filter_eq_directory_iff :
    course isDirectory dir (xs.filter (!Path.isIdle ·)) = .directory p ↔
      course isDirectory dir xs = .directory p := by
  induction xs generalizing dir with
  | nil => rfl
  | cons name rest ih =>
    by_cases hidle : name = "" ∨ name = "."
    · have hfilter : (name :: rest).filter (!Path.isIdle ·) = rest.filter (!Path.isIdle ·) :=
        List.filter_cons_of_neg (by simpa [Path.isIdle, Decidable.or_iff_not_imp_left] using hidle)
      rw [hfilter, ih, course, if_pos hidle]
    · have hfilter : (name :: rest).filter (!Path.isIdle ·) =
          name :: rest.filter (!Path.isIdle ·) :=
        List.filter_cons_of_pos (by simpa [Path.isIdle] using hidle)
      rw [hfilter, course, course, if_neg hidle, if_neg hidle]
      split
      · exact ih
      split
      · simp
      split
      · exact ih
      · split <;> split <;> simp

/-- What comes before the last name has to end at a directory. -/
theorem course_concat (xs : List String) (name : String) :
    course isDirectory dir (xs ++ [name]) =
      match course isDirectory dir xs with
      | .directory p => course isDirectory p [name]
      | .last l => .blocked l
      | c => c := by
  induction xs generalizing dir with
  | nil => rfl
  | cons n rest ih =>
    rw [List.cons_append, course, course]
    split
    · exact ih
    split
    · exact ih
    split
    · rfl
    split
    · exact ih
    · cases rest <;> rfl

/-- The course of names ends at a place for a file exactly if those before the last lead to a
directory with room for the last. -/
theorem course_concat_eq_last_iff (hname : IsName name) :
    course isDirectory dir (xs ++ [name]) = .last l ↔
      ∃ p, course isDirectory dir (xs.filter (!Path.isIdle ·)) = .directory p ∧
        name.utf8ByteSize ≤ maxNameLength ∧ isDirectory (p ++ [name]) = false ∧
        l = p ++ [name] := by
  obtain ⟨h0, h1, h2⟩ := hname
  have hsingle : ∀ p, course isDirectory p [name] = .last l ↔ name.utf8ByteSize ≤ maxNameLength ∧
      isDirectory (p ++ [name]) = false ∧ l = p ++ [name] := by
    intro p
    by_cases hlong : maxNameLength < name.utf8ByteSize
    · simp [course, h0, h1, h2, hlong, Nat.not_le.2 hlong]
    · cases hdir : isDirectory (p ++ [name]) <;>
        simp [course, h0, h1, h2, hlong, hdir, Nat.not_lt.1 hlong, eq_comm]
  rw [course_concat]
  simp only [course_filter_eq_directory_iff]
  cases course isDirectory dir xs <;> simp [hsingle]

/-- A path has the course of its names, if it is one. -/
theorem courseOf_eq_ok_iff {c : Course} :
    fs.courseOf path = .ok c ↔
      IsPath path ∧
        course fs.isDirectory (start fs.workingDirectory path) (names path) = c :=
  checked_eq_ok_iff.trans (and_congr_right fun _ => by rw [Except.ok.injEq])

theorem filter_isIdle_filter (ps : List String) :
    (ps.filter (· != "")).filter (!Path.isIdle ·) = ps.filter (!Path.isIdle ·) := by
  rw [List.filter_filter]
  refine List.filter_congr fun p _ => ?_
  by_cases hp : p = "" <;> simp [Path.isIdle, hp]

section WithFileName

variable {old : String} {before : List String} (hold : IsName old)
  (hpieces : Path.pieces path = before ++ [old]) (hslash : '/' ∉ name.toList)
include hold hpieces hslash

/-- With another name a path has the names of its directory before it. -/
theorem names_withFileName :
    names (Path.withFileName path name) =
      (Path.pieces (Path.directoryText before)).filter (· != "") ++ [name] := by
  have hsingle : Path.pieces name = [] ++ [name] := Path.pieces_of_not_mem hslash
  rw [Path.withFileName_eq hold hpieces, names_join (Path.isAbsolute_of_not_mem hslash),
    names_of_pieces hsingle]
  rfl

/-- With another name a path is one exactly if it is not too long. -/
theorem isPath_withFileName_iff (hpath : IsPath path) (hname : IsName name)
    (hnul : Char.ofNat 0 ∉ name.toList) :
    IsPath (Path.withFileName path name) ↔
      (Path.withFileName path name).utf8ByteSize ≤ maxPathLength := by
  refine ⟨IsPath.size, fun hsize => ⟨fun hmem => ?_, fun hempty => ?_, hsize⟩⟩
  · rcases Path.mem_withFileName hold hpieces hmem with hc | hc | hc
    · exact absurd hc (by decide)
    · exact hpath.noNul hc
    · exact hnul hc
  · have hlast := congrArg List.getLast? (names_withFileName hold hpieces hslash)
    rw [hempty, List.getLast?_concat] at hlast
    exact hname.1 (Option.some.inj hlast).symm

end WithFileName

/-- With another file name a path leads to that name in the same directory, unless the name or the
path is too long or a directory has that name. -/
theorem Leads.withFileName_iff (hlinks : fs.LinkFree) (h : fs.Leads path l) (hname : IsName name)
    (hslash : '/' ∉ name.toList) (hnul : Char.ofNat 0 ∉ name.toList) :
    fs.Leads (Path.withFileName path name) l' ↔
      name.utf8ByteSize ≤ maxNameLength ∧
      (Path.withFileName path name).utf8ByteSize ≤ maxPathLength ∧
      fs.isDirectory (l.dropLast ++ [name]) = false ∧ l' = l.dropLast ++ [name] := by
  obtain ⟨old, hold, hlast, -⟩ := h.last hlinks
  obtain ⟨before, hpieces⟩ := List.getLast?_eq_some_iff.1 hlast
  obtain ⟨hpath, hcourse⟩ := courseOf_eq_ok_iff.1 ((leads_iff hlinks).1 h)
  rw [names_of_pieces hpieces, course_concat_eq_last_iff hold, filter_isIdle_filter] at hcourse
  obtain ⟨dir, hdir, -, -, rfl⟩ := hcourse
  -- Both walks begin at one place and have the same names that move them before the last.
  have hstart : start fs.workingDirectory (Path.withFileName path name) =
      start fs.workingDirectory path := by
    rw [start, start, Path.isAbsolute_withFileName hold hpieces hslash]
  rw [leads_iff hlinks, courseOf_eq_ok_iff, hstart, names_withFileName hold hpieces hslash,
    isPath_withFileName_iff hold hpieces hslash hpath hname hnul, course_concat_eq_last_iff hname,
    filter_isIdle_filter,
    Path.filter_pieces_directoryText (Path.slash_not_mem_before hpieces), hdir,
    List.dropLast_concat]
  constructor
  · rintro ⟨hsize, p, hp, hlen, hfree, rfl⟩
    cases hp
    exact ⟨hlen, hsize, hfree, rfl⟩
  · rintro ⟨hlen, hsize, hfree, rfl⟩
    exact ⟨hsize, dir, rfl, hlen, hfree, rfl⟩

end FileSystem

end Switchboard
