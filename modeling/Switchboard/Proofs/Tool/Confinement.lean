import Switchboard.Proofs.FileSystem.Links
import Switchboard.Proofs.Tool.Listing

/-!
# What the listing tool can see

The tool looks at the components of its path argument only, and lists whatever directory the file
system finds there. So it stays beneath its base directory exactly if no link that it can be asked
for, and that stands beneath the base, leads out of it (`WorkspaceListing.confinement`).
-/

namespace Switchboard

open FileSystem

namespace FileSystem

variable {fs : FileSystem} {k : Nat} {base dir l : Location} {names : List String}

/-- Names without one for a parent lead from a directory beneath the base to another, unless one of
them is that of a link beneath the base that leads out of it. -/
theorem Reaches.prefix_or_link (hnames : ".." ∉ names) (hdir : base <+: dir)
    (h : fs.Reaches k dir names l) :
    base <+: l ∨ ∃ before name after target mid l' k₁ k₂,
      names = before ++ name :: after ∧ k₁ + k₂ ≤ k ∧
      fs.Reaches k₁ dir before mid ∧ base <+: mid ∧
      IsName name ∧ name.utf8ByteSize ≤ maxNameLength ∧
      fs.node? (mid ++ [name]) = some (.link target) ∧
      fs.Reaches k₂ mid [name] l' ∧ ¬ base <+: l' := by
  induction names generalizing dir k with
  | nil =>
    cases h
    exact .inl hdir
  | cons name rest ih =>
    obtain ⟨hup, hrest⟩ := not_or.1 (mt List.mem_cons.2 hnames)
    have h : fs.Reaches k dir ([name] ++ rest) l := h
    obtain ⟨k₁, k₂, mid, rfl, hfirst, hothers⟩ := h.split
    by_cases hmid : base <+: mid
    · rcases ih hrest hmid hothers with hl | hlink
      · exact .inl hl
      · obtain ⟨before, name', after, target, mid', l', k₃, k₄, rfl, hk, hbefore, hlink⟩ := hlink
        exact .inr ⟨name :: before, name', after, target, mid', l', k₁ + k₃, k₄, rfl, by omega,
          hfirst.append hbefore, hlink⟩
    · right
      cases hfirst with
      | idle _ hdone =>
        cases hdone
        exact absurd hdir hmid
      | up _ => exact absurd rfl hup
      | down _ _ _ hdone =>
        cases hdone
        exact absurd (hdir.trans (List.prefix_append _ _)) hmid
      | @link k _ _ _ target _ hname hlen hnode hdone =>
        exact ⟨[], name, rest, target, dir, mid, 0, k + 1, rfl, by omega, .done dir, hdir, hname,
          hlen, hnode, .link hname hlen hnode hdone, hmid⟩

end FileSystem

namespace WorkspaceListing

variable {fs : FileSystem} {base path : String}

theorem any_componentOf (piece : String) :
    (Path.componentOf piece).toList.any leadsAway = decide (piece = "..") := by
  unfold Path.componentOf
  split
  · next hidle => rcases hidle with rfl | rfl <;> rfl
  · split
    · next hup => simp [hup, leadsAway]
    · next hup => simp [hup, leadsAway]

/-- Of the pieces of a path only two points lead away. -/
theorem any_filterMap_componentOf (pieces : List String) :
    (pieces.filterMap Path.componentOf).any leadsAway = decide (".." ∈ pieces) := by
  induction pieces with
  | nil => rfl
  | cons piece rest ih =>
    have hsplit : (piece :: rest).filterMap Path.componentOf =
        (Path.componentOf piece).toList ++ rest.filterMap Path.componentOf := by
      cases h : Path.componentOf piece <;> simp [h]
    rw [hsplit, List.any_append, any_componentOf, ih, ← Bool.decide_or]
    simp [eq_comm]

/-- A path that the tool takes is relative and names no parent. -/
theorem any_leadsAway_eq_false_iff :
    (Path.components path).any leadsAway = false ↔
      Path.isAbsolute path = false ∧ ".." ∉ Path.pieces path := by
  obtain ⟨first, rest, hps⟩ := List.exists_cons_of_ne_nil (Path.pieces_ne_nil path)
  rw [Path.components, hps]
  simp only [List.any_append, Bool.or_eq_false_iff, any_filterMap_componentOf, List.mem_cons,
    not_or, decide_eq_false_iff_not]
  split
  · next habsolute => simp [leadsAway, habsolute]
  · next habsolute =>
    have hfirst : (if first = "." then [Path.Component.current]
        else (Path.componentOf first).toList).any leadsAway = false ↔ first ≠ ".." := by
      split
      · next hdot => simp [hdot, leadsAway]
      · rw [any_componentOf, decide_eq_false_iff_not]
    simp [habsolute, hfirst, eq_comm]

/-- An argument is accepted exactly if it is relative and has no piece of two points. -/
theorem resolve_some_eq_ok_iff {r : String} :
    resolve base (some r) = .ok path ↔
      Path.isAbsolute r = false ∧ ".." ∉ Path.pieces r ∧ path = Path.join base r := by
  rw [← and_assoc, ← any_leadsAway_eq_false_iff, resolve]
  split
  · next haway => simp [haway]
  · next haway => simpa [haway] using eq_comm

/-- A listing is that of the directory to which the joined path leads. -/
theorem list_eq_ok_iff {args : Json} {listing : Listing} :
    list fs base args = .ok (path, listing) ↔
      ∃ relative l, pathArgument args = .ok relative ∧ resolve base relative = .ok path ∧
        fs.directory path = .ok l ∧ listing = ofEntries (fs.entries l) := by
  rw [list, listWith_eq_ok_iff]
  constructor
  · rintro ⟨relative, _, hargs, hpath, hread, rfl⟩
    obtain ⟨l, hl, rfl⟩ := readDirectory_eq_ok_iff.1 hread
    exact ⟨relative, l, hargs, hpath, hl, rfl⟩
  · rintro ⟨relative, l, hargs, hpath, hl, rfl⟩
    exact ⟨relative, _, hargs, hpath, readDirectory_eq_ok_iff.2 ⟨l, hl, rfl⟩, rfl⟩

/-! ## Links that lead out -/

/-- The argument is that of a link beneath the root which leads to a directory that is not. -/
def LeadsOut (fs : FileSystem) (base : String) (root : Location) (argument : String) : Prop :=
  ∃ path link target l, resolve base (some argument) = .ok path ∧
    fs.resolve path false = .ok (.found link (.link target)) ∧ root <+: link ∧
    fs.directory path = .ok l ∧ ¬ root <+: l

/-- Whatever leads out of the base begins with the path of a link that does. -/
theorem prefix_or_leadsOut {root l : Location} {argument : String}
    (hargument : resolve base (some argument) = .ok path)
    (hroot : fs.baseDirectory base = .ok root) (hl : fs.directory path = .ok l) :
    root <+: l ∨ ∃ s t, argument = s ++ t ∧ LeadsOut fs base root s := by
  obtain ⟨hrelative, hup, rfl⟩ := resolve_some_eq_ok_iff.1 hargument
  obtain ⟨hpath, k₁, k₂, dir, hk, hbase, hdir, hnames⟩ :=
    (directory_join_eq_ok_iff hrelative).1 hl
  obtain rfl : dir = root := Except.ok.inj (hdir.symm.trans hroot)
  have hnoUp : ".." ∉ names argument := fun h => hup (mem_pieces_of_mem_names h)
  refine (hnames.prefix_or_link hnoUp (List.prefix_refl dir)).imp_right ?_
  rintro ⟨before, name, after, target, mid, l', k₃, k₄, hsplit, hk', hbefore, hmid, hname, hlen,
    hnode, hlink, hout⟩
  obtain ⟨s, t, rfl, hs, hpieces⟩ := exists_of_names_eq hsplit
  have hrelative' := Path.isAbsolute_of_append hrelative
  have hisPath : IsPath (Path.join base s) := by
    rw [Path.join_append hrelative] at hpath
    refine hpath.of_append fun hempty => hname.1 ?_
    have hparts : Path.lead base = "" ∧ s = "" := by
      simpa [Path.join_eq hrelative'] using congrArg String.toList hempty
    have hname : name ∈ names s := by rw [hs]; simp
    rw [hparts.2] at hname
    exact List.mem_singleton.1 hname
  refine ⟨s, t, rfl, _, mid ++ [name], target, l',
    resolve_some_eq_ok_iff.2 ⟨hrelative', fun h => hup (hpieces h), rfl⟩,
    resolve_eq_ok_iff.2 ⟨hisPath, ?_⟩, hmid.trans (List.prefix_append _ _),
    (directory_join_eq_ok_iff hrelative').2 ⟨hisPath, k₁, k₃ + k₄, dir, by omega, hbase, hdir,
      hs ▸ hbefore.append hlink⟩, hout⟩
  obtain ⟨n, hn⟩ := Nat.exists_eq_add_of_le (show k₁ + k₃ ≤ maxLinks by omega)
  rw [names_join hrelative', start_join hrelative', hs, ← List.append_assoc, hn,
    (hbase.append hbefore).follow_append (.inl (List.cons_ne_nil _ _)),
    follow_link hname hlen hnode]

/-- What the tool lists is the directory of a path that leads on from its base. That directory is
the base or stands beneath it unless the argument begins with the path of a link that stands
beneath the base and leads out of it, and every such link can be asked for. -/
theorem confinement (fs : FileSystem) (base : String) :
    (∀ args path listing, list fs base args = .ok (path, listing) →
      ∃ root l, fs.baseDirectory base = .ok root ∧ fs.directory path = .ok l ∧
        listing = ofEntries (fs.entries l) ∧
        (root <+: l ∨ ∃ s t, pathArgument args = .ok (some (s ++ t)) ∧ LeadsOut fs base root s)) ∧
    ∀ root argument, LeadsOut fs base root argument →
      ∃ path l, list fs base (.obj [("path", .str argument)]) =
          .ok (path, ofEntries (fs.entries l)) ∧
        fs.directory path = .ok l ∧ ¬ root <+: l := by
  constructor
  · intro args path listing h
    obtain ⟨relative, l, hargs, hpath, hl, rfl⟩ := list_eq_ok_iff.1 h
    cases relative with
    | none =>
      cases hpath
      exact ⟨l, l, baseDirectory_of_directory hl, hl, rfl, .inl (List.prefix_refl l)⟩
    | some argument =>
      obtain ⟨hrelative, -, rfl⟩ := resolve_some_eq_ok_iff.1 hpath
      obtain ⟨-, -, -, root, -, -, hroot, -⟩ := (directory_join_eq_ok_iff hrelative).1 hl
      refine ⟨root, l, hroot, hl, rfl, (prefix_or_leadsOut hpath hroot hl).imp_right ?_⟩
      rintro ⟨s, t, rfl, hs⟩
      exact ⟨s, t, hargs, hs⟩
  · rintro root argument ⟨path, link, target, l, hpath, -, -, hl, hout⟩
    exact ⟨path, l, list_eq_ok_iff.2 ⟨some argument, l, rfl, hpath, hl, rfl⟩, hl, hout⟩

/-! ## A link out of the workspace -/

namespace Leak

/-- A workspace with a link to the directory beside it. -/
def files : FileSystem where
  nodes := [(["private"], .directory), (["private", "key.txt"], .file (.text "secret")),
    (["ws"], .directory), (["ws", "out"], .link "../private")]
  workingDirectory := []

/-- The tool lists the directory beside the workspace. -/
theorem listed :
    files.baseDirectory "/ws" = .ok ["ws"] ∧
      list files "/ws" (.obj [("path", .str "out")]) = .ok ("/ws/out", ⟨["key.txt"], [], false⟩) ∧
      ∃ path l, list files "/ws" (.obj [("path", .str "out")]) =
          .ok (path, ofEntries (files.entries l)) ∧
        files.directory path = .ok l ∧ ¬ ["ws"] <+: l := by
  have hout : LeadsOut files "/ws" ["ws"] "out" :=
    ⟨"/ws/out", ["ws", "out"], "../private", ["private"], rfl, rfl, by decide, rfl, by decide⟩
  have hlisting : ofEntries (files.entries ["private"]) = ⟨["key.txt"], [], false⟩ := by
    decide +kernel
  exact ⟨rfl, hlisting ▸ rfl, (confinement files "/ws").2 ["ws"] "out" hout⟩

end Leak

end WorkspaceListing

end Switchboard
