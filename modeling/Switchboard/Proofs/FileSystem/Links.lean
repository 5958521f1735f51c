import Switchboard.Proofs.FileSystem.Names

/-!
# Where links lead

The names of a path lead from one directory to another, down into directories, up to parents and
through links (`FileSystem.Reaches`). A path is that of a directory exactly if its names lead to it
through no more links than may be followed (`FileSystem.directory_eq_ok_iff`). Names after one
another lead on from where the first have led, so a relative path that is joined to a base is
walked from the directory of the base.
-/

namespace Switchboard

namespace Path

variable {base path rest : String}

theorem pieces_empty : pieces "" = [""] :=
  rfl

/-- Texts up to a separator. -/
theorem exists_of_pieces_eq_append {xs ys : List String} (hxs : xs ≠ []) (hys : ys ≠ [])
    (h : pieces path = xs ++ ys) : ∃ s t, path = s ++ t ∧ pieces s = xs := by
  obtain ⟨xs', ys', hsplit, rfl, rfl⟩ := List.map_eq_append_iff.1 h
  obtain ⟨t, u, hpath, ht⟩ := Text.exists_of_splitOn_eq_append
    (fun hnil => hxs (by rw [hnil, List.map_nil])) (fun hnil => hys (by rw [hnil, List.map_nil]))
    hsplit
  refine ⟨String.ofList t, String.ofList ('/' :: u), ?_, ?_⟩
  · rw [← String.ofList_append, ← hpath, String.ofList_toList]
  · rw [pieces, String.toList_ofList, ht]

/-- What a relative path is put after. -/
def lead (base : String) : String :=
  if base.toList.isEmpty || base.toList.getLast? = some '/' then base else base ++ "/"

/-- A relative path is joined behind a text that depends on the base only. -/
theorem join_eq (h : isAbsolute path = false) : join base path = lead base ++ path := by
  unfold join lead
  rw [if_neg (by simp [h])]
  split <;> rfl

theorem exists_lead_eq (base : String) : ∃ t, lead base = base ++ t := by
  unfold lead
  split
  · exact ⟨"", String.append_empty.symm⟩
  · exact ⟨"/", rfl⟩

/-- What a relative path is put after has the pieces of the base, up to empty ones. -/
theorem exists_pieces_lead (base path : String) :
    ∃ ps, pieces (lead base ++ path) = ps ++ pieces path ∧
      ps.filter (· != "") = (pieces base).filter (· != "") := by
  unfold lead
  split
  · next hbase =>
    rcases Bool.or_eq_true_iff.1 hbase with hempty | hslash
    · have hnil : base = "" := by simpa using hempty
      exact ⟨[], by rw [hnil, String.empty_append, List.nil_append], by rw [hnil]; rfl⟩
    · obtain ⟨s, hs⟩ := List.getLast?_eq_some_iff.1 (of_decide_eq_true hslash)
      have hbase : base = String.ofList s ++ "/" := by
        rw [← String.toList_inj, hs]
        simp
      have hpieces := pieces_append (String.ofList s) ""
      rw [String.append_empty, ← hbase] at hpieces
      refine ⟨pieces (String.ofList s), by rw [hbase, pieces_append], ?_⟩
      simp [hpieces, pieces_empty]
  · exact ⟨pieces base, pieces_append base path, rfl⟩

theorem isAbsolute_of_append (h : isAbsolute (path ++ rest) = false) :
    isAbsolute path = false := by
  unfold isAbsolute at h ⊢
  rw [String.toList_append] at h
  cases hpath : path.toList <;> simp_all

/-- A joined path is absolute exactly if its base is. -/
theorem isAbsolute_join (h : isAbsolute path = false) :
    isAbsolute (join base path) = isAbsolute base := by
  rw [join_eq h, lead]
  by_cases hbase : base = ""
  · subst hbase
    exact h
  · obtain ⟨c, cs, hcs⟩ := List.exists_cons_of_ne_nil (mt String.toList_eq_nil_iff.1 hbase)
    split <;> simp [isAbsolute, hcs]

/-- A path can be joined in two parts. -/
theorem join_append (h : isAbsolute (path ++ rest) = false) :
    join base (path ++ rest) = join base path ++ rest := by
  rw [join_eq h, join_eq (isAbsolute_of_append h), String.append_assoc]

end Path

namespace FileSystem

variable {fs : FileSystem} {last : Bool} {n k m : Nat} {dir mid l : Location}
  {name target : String} {xs ys rest : List String}

@[simp] theorem follow_nil (fs : FileSystem) (last : Bool) (n : Nat) (dir : Location) :
    fs.follow last n dir [] = .ok (.found dir .directory) := by
  cases n <;> rfl

theorem follow_cons_idle (h : name = "" ∨ name = ".") :
    fs.follow last n dir (name :: rest) = fs.follow last n dir rest := by
  cases n <;> rw [follow, follow, walk, if_pos h]

theorem follow_cons_up :
    fs.follow last n dir (".." :: rest) = fs.follow last n dir.dropLast rest := by
  cases n <;> rw [follow, follow, walk, if_neg (by decide), if_pos rfl]

section

variable (hname : IsName name) (hlen : name.utf8ByteSize ≤ maxNameLength)
include hname hlen

theorem walk_cons_directory (hnode : fs.node? (dir ++ [name]) = some .directory) :
    fs.walk last dir (name :: rest) = fs.walk last (dir ++ [name]) rest := by
  obtain ⟨hempty, hdot, hup⟩ := hname
  simp only [walk, hempty, hdot, hup, Nat.not_lt.2 hlen, or_self, if_false, hnode]

/-- A walk stops at a link, or ends there if the link is last and is not followed. -/
theorem walk_cons_link (hnode : fs.node? (dir ++ [name]) = some (.link target)) :
    fs.walk last dir (name :: rest) =
      if rest.isEmpty && !last then .done (.found (dir ++ [name]) (.link target))
      else .link dir target rest := by
  obtain ⟨hempty, hdot, hup⟩ := hname
  simp only [walk, hempty, hdot, hup, Nat.not_lt.2 hlen, or_self, if_false, hnode]

/-- A walk ends at a file, which has no names in it. -/
theorem walk_cons_file {c : Contents} (hnode : fs.node? (dir ++ [name]) = some (.file c)) :
    fs.walk last dir (name :: rest) =
      if rest.isEmpty then .done (.found (dir ++ [name]) (.file c)) else .fault .notDirectory := by
  obtain ⟨hempty, hdot, hup⟩ := hname
  simp only [walk, hempty, hdot, hup, Nat.not_lt.2 hlen, or_self, if_false, hnode]

/-- A walk ends at a free name, which has no names in it. -/
theorem walk_cons_free (hnode : fs.node? (dir ++ [name]) = none) :
    fs.walk last dir (name :: rest) =
      if rest.isEmpty then .done (.free (dir ++ [name])) else .fault .notFound := by
  obtain ⟨hempty, hdot, hup⟩ := hname
  simp only [walk, hempty, hdot, hup, Nat.not_lt.2 hlen, or_self, if_false, hnode]

theorem follow_cons_directory (hnode : fs.node? (dir ++ [name]) = some .directory) :
    fs.follow last n dir (name :: rest) = fs.follow last n (dir ++ [name]) rest := by
  cases n <;> rw [follow, follow, walk_cons_directory hname hlen hnode]

/-- Following a link puts the names of its target before the rest. -/
theorem follow_cons_link (hnode : fs.node? (dir ++ [name]) = some (.link target))
    (hrest : rest ≠ [] ∨ last = true) :
    fs.follow last (n + 1) dir (name :: rest) =
      fs.follow last n (start dir target) (names target ++ rest) := by
  have hpassed : (rest.isEmpty && !last) = false := by
    rcases hrest with h | h <;> simp [h]
  rw [follow, walk_cons_link hname hlen hnode]
  simp only [hpassed, Bool.false_eq_true, if_false]

/-- A link at the end is not followed unless asked for. -/
theorem follow_link (hnode : fs.node? (dir ++ [name]) = some (.link target)) :
    fs.follow false n dir [name] = .ok (.found (dir ++ [name]) (.link target)) := by
  cases n <;> rw [follow, walk_cons_link hname hlen hnode] <;> rfl

end

/-- What the first name of a path to a directory can be. -/
theorem follow_cons_cases (h : fs.follow true n dir (name :: rest) = .ok (.found l .directory)) :
    (name = "" ∨ name = ".") ∧ fs.follow true n dir rest = .ok (.found l .directory) ∨
    name = ".." ∧ fs.follow true n dir.dropLast rest = .ok (.found l .directory) ∨
    IsName name ∧ name.utf8ByteSize ≤ maxNameLength ∧
      (fs.node? (dir ++ [name]) = some .directory ∧
          fs.follow true n (dir ++ [name]) rest = .ok (.found l .directory) ∨
        ∃ target m, n = m + 1 ∧ fs.node? (dir ++ [name]) = some (.link target) ∧
          fs.follow true m (start dir target) (names target ++ rest) =
            .ok (.found l .directory)) := by
  by_cases hidle : name = "" ∨ name = "."
  · exact .inl ⟨hidle, follow_cons_idle hidle ▸ h⟩
  by_cases hup : name = ".."
  · subst hup
    exact .inr (.inl ⟨rfl, follow_cons_up ▸ h⟩)
  have hname : IsName name := ⟨fun h => hidle (.inl h), fun h => hidle (.inr h), hup⟩
  by_cases hlen : name.utf8ByteSize ≤ maxNameLength
  · refine .inr (.inr ⟨hname, hlen, ?_⟩)
    cases hnode : fs.node? (dir ++ [name]) with
    | none =>
      cases n <;> rw [follow, walk_cons_free hname hlen hnode] at h <;> cases rest <;> cases h
    | some node =>
      cases node with
      | directory => exact .inl ⟨rfl, follow_cons_directory hname hlen hnode ▸ h⟩
      | file c =>
        cases n <;> rw [follow, walk_cons_file hname hlen hnode] at h <;> cases rest <;> cases h
      | link target =>
        cases n with
        | zero =>
          rw [follow, walk_cons_link hname hlen hnode] at h
          simp at h
        | succ m =>
          exact .inr ⟨target, m, rfl, rfl, follow_cons_link hname hlen hnode (.inr rfl) ▸ h⟩
  · cases n <;> rw [follow, walk, if_neg hidle, if_neg hup, if_pos (Nat.lt_of_not_le hlen)] at h <;>
      cases h

/-! ## From directory to directory -/

/-- Names lead from one directory to another through so many links. -/
inductive Reaches (fs : FileSystem) : Nat → Location → List String → Location → Prop where
  | done (dir : Location) : Reaches fs 0 dir [] dir
  | idle {k : Nat} {dir l : Location} {name : String} {rest : List String}
    (hidle : name = "" ∨ name = ".") (hrest : Reaches fs k dir rest l) :
    Reaches fs k dir (name :: rest) l
  | up {k : Nat} {dir l : Location} {rest : List String}
    (hrest : Reaches fs k dir.dropLast rest l) : Reaches fs k dir (".." :: rest) l
  | down {k : Nat} {dir l : Location} {name : String} {rest : List String} (hname : IsName name)
    (hlen : name.utf8ByteSize ≤ maxNameLength)
    (hnode : fs.node? (dir ++ [name]) = some .directory)
    (hrest : Reaches fs k (dir ++ [name]) rest l) : Reaches fs k dir (name :: rest) l
  | link {k : Nat} {dir l : Location} {name target : String} {rest : List String}
    (hname : IsName name) (hlen : name.utf8ByteSize ≤ maxNameLength)
    (hnode : fs.node? (dir ++ [name]) = some (.link target))
    (hrest : Reaches fs k (start dir target) (names target ++ rest) l) :
    Reaches fs (k + 1) dir (name :: rest) l

/-- Where the first names lead, the others are followed from, with the links that are left. -/
theorem Reaches.follow_append (h : fs.Reaches k dir xs mid) (hys : ys ≠ [] ∨ last = true) :
    fs.follow last (k + n) dir (xs ++ ys) = fs.follow last n mid ys := by
  induction h with
  | done dir => rw [Nat.zero_add, List.nil_append]
  | idle hidle hrest ih => rw [List.cons_append, follow_cons_idle hidle, ih]
  | up hrest ih => rw [List.cons_append, follow_cons_up, ih]
  | down hname hlen hnode hrest ih =>
    rw [List.cons_append, follow_cons_directory hname hlen hnode, ih]
  | @link k dir l name target rest hname hlen hnode hrest ih =>
    have hpassed : rest ++ ys ≠ [] ∨ last = true := hys.imp_left fun h => by simp [h]
    rw [List.cons_append, Nat.add_right_comm, follow_cons_link hname hlen hnode hpassed,
      ← List.append_assoc, ih]

/-- Where following names ends in a directory, the directory is reached. -/
theorem reaches_of_follow (h : fs.follow true n dir xs = .ok (.found l .directory)) :
    ∃ k ≤ n, fs.Reaches k dir xs l := by
  -- a link uses up one of the links, any other name is one of the names
  induction n using Nat.strongRecOn generalizing dir xs with
  | ind n ihlinks =>
    induction xs generalizing dir with
    | nil =>
      rw [follow_nil] at h
      cases h
      exact ⟨0, Nat.zero_le n, .done l⟩
    | cons name rest ih =>
      rcases follow_cons_cases h with
        ⟨hidle, hrest⟩ | ⟨rfl, hrest⟩ | ⟨hname, hlen, ⟨hnode, hrest⟩ | hlink⟩
      · exact (ih hrest).imp fun k hk => ⟨hk.1, .idle hidle hk.2⟩
      · exact (ih hrest).imp fun k hk => ⟨hk.1, .up hk.2⟩
      · exact (ih hrest).imp fun k hk => ⟨hk.1, .down hname hlen hnode hk.2⟩
      · obtain ⟨target, m, rfl, hnode, hrest⟩ := hlink
        obtain ⟨k, hk, hreaches⟩ := ihlinks m (Nat.lt_succ_self m) hrest
        exact ⟨k + 1, Nat.succ_le_succ hk, .link hname hlen hnode hreaches⟩

/-- Following names ends in a directory exactly if it is reached with few enough links. -/
theorem follow_eq_ok_iff :
    fs.follow true n dir xs = .ok (.found l .directory) ↔ ∃ k ≤ n, fs.Reaches k dir xs l := by
  refine ⟨reaches_of_follow, ?_⟩
  rintro ⟨k, hk, hreaches⟩
  obtain ⟨m, rfl⟩ := Nat.exists_eq_add_of_le hk
  have hfollow : fs.follow true (k + m) dir (xs ++ []) = fs.follow true m l [] :=
    hreaches.follow_append (.inr rfl)
  rwa [List.append_nil, follow_nil] at hfollow

theorem Reaches.append (h : fs.Reaches k dir xs mid) (h' : fs.Reaches m mid ys l) :
    fs.Reaches (k + m) dir (xs ++ ys) l := by
  induction h with
  | done dir => rwa [Nat.zero_add]
  | idle hidle hrest ih => exact .idle hidle (ih h')
  | up hrest ih => exact .up (ih h')
  | down hname hlen hnode hrest ih => exact .down hname hlen hnode (ih h')
  | link hname hlen hnode hrest ih =>
    rw [Nat.add_right_comm]
    exact .link hname hlen hnode (List.append_assoc .. ▸ ih h')

/-- Between two parts of the names there is a directory. -/
theorem Reaches.split (h : fs.Reaches k dir (xs ++ ys) l) :
    ∃ k₁ k₂ mid, k = k₁ + k₂ ∧ fs.Reaches k₁ dir xs mid ∧ fs.Reaches k₂ mid ys l := by
  have hnil : ∀ {k dir}, fs.Reaches k dir ys l →
      ∃ k₁ k₂ mid, k = k₁ + k₂ ∧ fs.Reaches k₁ dir [] mid ∧ fs.Reaches k₂ mid ys l :=
    fun {k dir} h => ⟨0, k, dir, (Nat.zero_add k).symm, .done dir, h⟩
  generalize hzs : xs ++ ys = zs at h
  induction h generalizing xs with
  | done dir =>
    obtain ⟨rfl, rfl⟩ := List.append_eq_nil_iff.1 hzs
    exact hnil (.done dir)
  | idle hidle hrest ih =>
    obtain ⟨rfl, rfl⟩ | ⟨xs, rfl, rfl⟩ := List.append_eq_cons_iff.1 hzs
    · exact hnil (.idle hidle hrest)
    · obtain ⟨k₁, k₂, mid, hk, h₁, h₂⟩ := ih hnil rfl
      exact ⟨k₁, k₂, mid, hk, .idle hidle h₁, h₂⟩
  | up hrest ih =>
    obtain ⟨rfl, rfl⟩ | ⟨xs, rfl, rfl⟩ := List.append_eq_cons_iff.1 hzs
    · exact hnil (.up hrest)
    · obtain ⟨k₁, k₂, mid, hk, h₁, h₂⟩ := ih hnil rfl
      exact ⟨k₁, k₂, mid, hk, .up h₁, h₂⟩
  | down hname hlen hnode hrest ih =>
    obtain ⟨rfl, rfl⟩ | ⟨xs, rfl, rfl⟩ := List.append_eq_cons_iff.1 hzs
    · exact hnil (.down hname hlen hnode hrest)
    · obtain ⟨k₁, k₂, mid, hk, h₁, h₂⟩ := ih hnil rfl
      exact ⟨k₁, k₂, mid, hk, .down hname hlen hnode h₁, h₂⟩
  | link hname hlen hnode hrest ih =>
    obtain ⟨rfl, rfl⟩ | ⟨xs, rfl, rfl⟩ := List.append_eq_cons_iff.1 hzs
    · exact hnil (.link hname hlen hnode hrest)
    · obtain ⟨k₁, k₂, mid, rfl, h₁, h₂⟩ := ih hnil (List.append_assoc ..)
      exact ⟨k₁ + 1, k₂, mid, Nat.add_right_comm .., .link hname hlen hnode h₁, h₂⟩

/-- A text that a path can be. -/
structure IsPath (path : String) : Prop where
  noNul : Char.ofNat 0 ∉ path.toList
  nonempty : path ≠ ""
  size : path.utf8ByteSize ≤ maxPathLength

variable {base path : String}

/-- A walk only begins if the text is one that a path can be. -/
theorem checked_eq_ok_iff {α : Type} {x : Except Fault α} {a : α} :
    (if path.toList.contains (Char.ofNat 0) then .error .nulInName
      else if path = "" then .error .notFound
      else if maxPathLength < path.utf8ByteSize then .error .nameTooLong
      else x) = .ok a ↔ IsPath path ∧ x = .ok a := by
  split
  · next hnul => exact ⟨nofun, fun h => absurd (by simpa using hnul) h.1.noNul⟩
  · next hnul =>
    split
    · next hempty => exact ⟨nofun, fun h => absurd hempty h.1.nonempty⟩
    · next hempty =>
      split
      · next hsize => exact ⟨nofun, fun h => absurd hsize (Nat.not_lt.2 h.1.size)⟩
      · next hsize =>
        exact (and_iff_right ⟨by simpa using hnul, hempty, Nat.not_lt.1 hsize⟩).symm

/-- A path resolves exactly if it is one and its names can be followed. -/
theorem resolve_eq_ok_iff {t : Target} :
    fs.resolve path last = .ok t ↔
      IsPath path ∧
        fs.follow last maxLinks (start fs.workingDirectory path) (names path) = .ok t :=
  checked_eq_ok_iff

/-- A path leads to a directory exactly if it is one and its names reach the directory. -/
theorem directory_eq_ok_iff :
    fs.directory path = .ok l ↔
      IsPath path ∧ ∃ k ≤ maxLinks,
        fs.Reaches k (start fs.workingDirectory path) (names path) l := by
  rw [← follow_eq_ok_iff, ← resolve_eq_ok_iff, directory, Outcome.bind_eq_ok]
  constructor
  · rintro ⟨t, ht, h⟩
    split at h
    · cases h
      exact ht
    · cases h
    · cases h
  · exact fun h => ⟨_, h, rfl⟩

theorem names_of_pieces {ps : List String} (h : Path.pieces path = ps ++ [name]) :
    names path = ps.filter (· != "") ++ [name] := by
  simp [names, h]

theorem exists_pieces_eq (path : String) : ∃ ps name, Path.pieces path = ps ++ [name] := by
  simpa using (List.eq_nil_or_concat (Path.pieces path)).resolve_left (Path.pieces_ne_nil path)

theorem mem_pieces_of_mem_names (h : name ∈ names path) : name ∈ Path.pieces path := by
  obtain ⟨ps, last, hps⟩ := exists_pieces_eq path
  rw [names_of_pieces hps] at h
  rw [hps]
  rcases List.mem_append.1 h with h | h
  · exact List.mem_append_left _ (List.mem_filter.1 h).1
  · exact List.mem_append_right _ h

/-- Pieces before those of a path come before its names. -/
theorem names_of_pieces_append {ps : List String} {joined : String}
    (h : Path.pieces joined = ps ++ Path.pieces path) :
    names joined = ps.filter (· != "") ++ names path := by
  obtain ⟨qs, last, hqs⟩ := exists_pieces_eq path
  rw [names_of_pieces hqs, ← List.append_assoc, ← List.filter_append]
  exact names_of_pieces (by rw [h, hqs, List.append_assoc])

/-- A name of a path and those before it are the names of a text that the path begins with. -/
theorem exists_of_names_eq (h : names path = xs ++ name :: ys) :
    ∃ s t, path = s ++ t ∧ names s = xs ++ [name] ∧ Path.pieces s ⊆ Path.pieces path := by
  obtain ⟨ps, last, hps⟩ := exists_pieces_eq path
  rcases List.eq_nil_or_concat ys with rfl | ⟨ys, y, rfl⟩
  · exact ⟨path, "", String.append_empty.symm, h, List.Subset.refl _⟩
  · have hsplit : ps.filter (· != "") ++ [last] = (xs ++ name :: ys) ++ [y] := by
      rw [← names_of_pieces hps, h]
      simp
    obtain ⟨l₁, l₂, rfl, rfl, hl₂⟩ := List.filter_eq_append_iff.1 (List.append_inj_left' hsplit rfl)
    obtain ⟨l₃, l₄, rfl, hl₃, -, -⟩ := List.filter_eq_cons_iff.1 hl₂
    have hpieces : Path.pieces path = (l₁ ++ l₃ ++ [name]) ++ (l₄ ++ [last]) := by
      rw [hps]
      simp
    obtain ⟨s, t, hpath, hs⟩ := Path.exists_of_pieces_eq_append (by simp) (by simp) hpieces
    refine ⟨s, t, hpath, ?_, ?_⟩
    · rw [names_of_pieces hs, List.filter_append, List.filter_eq_nil_iff.2 hl₃, List.append_nil]
    · rw [hs, hpieces]
      exact List.subset_append_left _ _

/-! ## Joined paths -/

/-- The directory of a path, where the empty path is that of the working directory. -/
def baseDirectory (fs : FileSystem) (base : String) : Except Fault Location :=
  if base = "" then .ok fs.workingDirectory else fs.directory base

theorem baseDirectory_of_directory (h : fs.directory base = .ok l) :
    fs.baseDirectory base = .ok l := by
  rw [baseDirectory, if_neg (directory_eq_ok_iff.1 h).1.nonempty, h]

/-- The beginning of a path is a path, unless it is empty. -/
theorem IsPath.of_append {s t : String} (h : IsPath (s ++ t)) (hs : s ≠ "") : IsPath s where
  noNul hnul := h.noNul (by simp [hnul])
  nonempty := hs
  size := by
    have hsize := h.size
    rw [String.utf8ByteSize_append] at hsize
    omega

theorem Reaches.of_empty (h : fs.Reaches k dir [name] l) (hname : name = "") :
    k = 0 ∧ dir = l := by
  cases h with
  | idle _ hrest =>
    cases hrest
    exact ⟨rfl, rfl⟩
  | up _ => exact absurd hname (by decide)
  | down hisName _ _ _ => exact absurd hname hisName.1
  | link hisName _ _ _ => exact absurd hname hisName.1

/-- An empty name at the end makes no difference to what is reached. -/
theorem reaches_append_empty :
    fs.Reaches k dir (xs ++ [""]) l ↔ fs.Reaches k dir xs l := by
  constructor
  · intro h
    obtain ⟨k₁, k₂, mid, rfl, h₁, h₂⟩ := h.split
    obtain ⟨rfl, rfl⟩ := h₂.of_empty rfl
    exact h₁
  · exact fun h => h.append (.idle (.inl rfl) (.done l))

/-- What the names of a path reach, its non-empty pieces reach. -/
theorem reaches_names_iff :
    fs.Reaches k dir (names path) l ↔
      fs.Reaches k dir ((Path.pieces path).filter (· != "")) l := by
  obtain ⟨ps, last, hps⟩ := exists_pieces_eq path
  rw [names_of_pieces hps, hps, List.filter_append]
  by_cases hlast : last = ""
  · simpa [hlast] using reaches_append_empty
  · simp [hlast]

/-- The names of a joined path are those of the base, and then those of the path. -/
theorem names_join (hpath : Path.isAbsolute path = false) :
    names (Path.join base path) = (Path.pieces base).filter (· != "") ++ names path := by
  obtain ⟨ps, hjoin, hps⟩ := Path.exists_pieces_lead base path
  rw [← Path.join_eq hpath] at hjoin
  rw [names_of_pieces_append hjoin, hps]

/-- A joined path starts where its base does. -/
theorem start_join (hpath : Path.isAbsolute path = false) (dir : Location) :
    start dir (Path.join base path) = start dir base := by
  rw [start, start, Path.isAbsolute_join hpath]

/-- A relative path leads on from the directory of its base. -/
theorem directory_join_eq_ok_iff (hpath : Path.isAbsolute path = false) :
    fs.directory (Path.join base path) = .ok l ↔
      IsPath (Path.join base path) ∧ ∃ k₁ k₂ dir, k₁ + k₂ ≤ maxLinks ∧
        fs.Reaches k₁ (start fs.workingDirectory base)
          ((Path.pieces base).filter (· != "")) dir ∧
        fs.baseDirectory base = .ok dir ∧ fs.Reaches k₂ dir (names path) l := by
  rw [directory_eq_ok_iff, names_join hpath, start_join hpath]
  refine and_congr_right fun hisPath => ⟨?_, ?_⟩
  · rintro ⟨k, hk, hreaches⟩
    obtain ⟨k₁, k₂, dir, rfl, h₁, h₂⟩ := hreaches.split
    refine ⟨k₁, k₂, dir, hk, h₁, ?_, h₂⟩
    unfold baseDirectory
    split
    · next hbase =>
      subst hbase
      cases h₁
      rfl
    · next hbase =>
      obtain ⟨t, ht⟩ := Path.exists_lead_eq base
      rw [Path.join_eq hpath, ht, String.append_assoc] at hisPath
      exact directory_eq_ok_iff.2 ⟨hisPath.of_append hbase, k₁,
        Nat.le_trans (Nat.le_add_right k₁ k₂) hk, reaches_names_iff.2 h₁⟩
  · rintro ⟨k₁, k₂, dir, hk, h₁, -, h₂⟩
    exact ⟨k₁ + k₂, hk, h₁.append h₂⟩

end FileSystem

end Switchboard
