import Switchboard.FileSystem.Basic
import Switchboard.Proofs.Keyed
import Switchboard.Proofs.Outcome

/-!
# Where paths lead

Without links, a path that ends at a file or at a free name leads to one location, whatever the
operation. Which location that is depends on the directories only (`Leads.congr`), so that files
may come and go without changing it. What the operations on files do is said in terms of it.
-/

namespace Switchboard.FileSystem

open Outcome

variable {fs fs' : FileSystem} {l : Location}

@[simp] theorem node?_nil (fs : FileSystem) : fs.node? [] = some .directory :=
  rfl

/-- Replacing what stands at a location changes what is found there alone. -/
theorem lookup_replace (nodes : List (Location × Node)) (l l' : Location) (n : Node) :
    (nodes.map fun m => if m.1 = l then (l, n) else m).lookup l' =
      (nodes.lookup l').map fun m => if l' = l then n else m := by
  induction nodes with
  | nil => rfl
  | cons m rest ih =>
    rw [List.map_cons, Keyed.lookup_cons_eq_ite, Keyed.lookup_cons_eq_ite, ih]
    by_cases hm' : m.1 = l'
    · subst hm'
      by_cases hm : m.1 = l <;> simp [hm]
    · by_cases hm : m.1 = l
      · simp [← hm, hm']
      · simp [hm, hm']

/-- Putting a node at a location changes what stands there alone. -/
theorem node?_insert (hl : l ≠ []) (n : Node) (l' : Location) :
    (fs.insert l n).node? l' = if l' = l then some n else fs.node? l' := by
  by_cases hnil : l' = []
  · subst hnil
    rw [if_neg hl.symm]
    rfl
  have hkept : (fs.nodes.any fun m => m.1 = l) = true ↔ (fs.nodes.lookup l).isSome := by
    simp
  unfold insert
  by_cases hany : fs.nodes.any fun m => m.1 = l
  · simp only [hany, if_true, node?, hnil, if_false, lookup_replace]
    by_cases heq : l' = l
    · subst heq
      obtain ⟨m, hm⟩ := Option.isSome_iff_exists.1 (hkept.1 hany)
      simp [hm]
    · simp [heq]
  · have hnone : fs.nodes.lookup l = none := Option.not_isSome_iff_eq_none.1 (mt hkept.2 hany)
    simp only [hany, Bool.false_eq_true, if_false, node?, hnil, List.lookup_append,
      Keyed.lookup_cons_eq_ite, List.lookup_nil]
    by_cases heq : l' = l
    · subst heq
      simp [hnone]
    · simp [heq, Ne.symm heq]

/-- Taking a node away changes what stands at its location alone. -/
theorem node?_erase (hl : l ≠ []) (l' : Location) :
    (fs.erase l).node? l' = if l' = l then none else fs.node? l' := by
  by_cases hnil : l' = []
  · subst hnil
    rw [if_neg hl.symm]
    rfl
  · have hfilter : (fs.erase l).nodes = fs.nodes.filter (·.1 ≠ l) :=
      List.filter_congr fun m _ => Bool.eq_iff_iff.2 (by simp)
    simp only [node?, hnil, if_false, hfilter, Keyed.lookup_filter_ne, eq_comm]

/-- Whether a directory stands at a location. -/
def isDirectory (fs : FileSystem) (l : Location) : Bool :=
  match fs.node? l with
  | some .directory => true
  | _ => false

@[simp] theorem isDirectory_nil (fs : FileSystem) : fs.isDirectory [] = true :=
  rfl

theorem isDirectory_eq_true : fs.isDirectory l = true ↔ fs.node? l = some .directory := by
  unfold isDirectory
  split
  · next h => simp [h]
  · next h => simpa using h

theorem ne_nil_of_isDirectory (h : fs.isDirectory l = false) : l ≠ [] := by
  rintro rfl
  cases h

/-- No symbolic links. -/
def LinkFree (fs : FileSystem) : Prop :=
  ∀ l target, fs.node? l ≠ some (.link target)

theorem linkFree_empty : empty.LinkFree := by
  intro l target
  unfold node?
  split <;> simp [empty]

/-- The same directories, and the same one for relative paths to begin at. -/
structure SameDirectories (fs fs' : FileSystem) : Prop where
  workingDirectory : fs'.workingDirectory = fs.workingDirectory
  isDirectory : fs'.isDirectory = fs.isDirectory

/-! ## Files that come and go -/

variable {c : Contents}

@[simp] theorem workingDirectory_insert (l : Location) (n : Node) :
    (fs.insert l n).workingDirectory = fs.workingDirectory := by
  unfold insert
  split <;> rfl

theorem LinkFree.insert (h : fs.LinkFree) (hl : l ≠ []) : (fs.insert l (.file c)).LinkFree := by
  intro l' target
  rw [node?_insert hl]
  split
  · simp
  · exact h l' target

theorem LinkFree.erase (h : fs.LinkFree) (hl : l ≠ []) : (fs.erase l).LinkFree := by
  intro l' target
  rw [node?_erase hl]
  split
  · simp
  · exact h l' target

/-- A file that comes where there is no directory touches none. -/
theorem SameDirectories.insert (hl : fs.isDirectory l = false) :
    SameDirectories fs (fs.insert l (.file c)) := by
  refine ⟨workingDirectory_insert l _, funext fun l' => ?_⟩
  by_cases h : l' = l
  · rw [h, hl]
    simp [FileSystem.isDirectory, node?_insert (ne_nil_of_isDirectory hl)]
  · simp [FileSystem.isDirectory, node?_insert (ne_nil_of_isDirectory hl), h]

/-- A node that goes where there is no directory touches none. -/
theorem SameDirectories.erase (hl : fs.isDirectory l = false) :
    SameDirectories fs (fs.erase l) := by
  refine ⟨rfl, funext fun l' => ?_⟩
  by_cases h : l' = l
  · rw [h, hl]
    simp [FileSystem.isDirectory, node?_erase (ne_nil_of_isDirectory hl)]
  · simp [FileSystem.isDirectory, node?_erase (ne_nil_of_isDirectory hl), h]

theorem SameDirectories.symm (h : SameDirectories fs fs') : SameDirectories fs' fs :=
  ⟨h.workingDirectory.symm, h.isDirectory.symm⟩

theorem SameDirectories.trans {fs'' : FileSystem} (h : SameDirectories fs fs')
    (h' : SameDirectories fs' fs'') : SameDirectories fs fs'' :=
  ⟨h'.workingDirectory.trans h.workingDirectory, h'.isDirectory.trans h.isDirectory⟩

/-- How a walk without links ends, as far as the directories decide it. -/
inductive Course where
  | directory (l : Location)
  /-- At the last name, which is no directory. -/
  | last (l : Location)
  /-- At a name that is no directory, with names after it. -/
  | blocked (l : Location)
  | tooLong

/-- The course of a walk. -/
def course (isDirectory : Location → Bool) (dir : Location) : List String → Course
  | [] => .directory dir
  | name :: rest =>
    if name = "" ∨ name = "." then course isDirectory dir rest
    else if name = ".." then course isDirectory dir.dropLast rest
    else if maxNameLength < name.utf8ByteSize then .tooLong
    else if isDirectory (dir ++ [name]) then course isDirectory (dir ++ [name]) rest
    else if rest.isEmpty then .last (dir ++ [name])
    else .blocked (dir ++ [name])

/-- The target at a location. -/
def landing (fs : FileSystem) (l : Location) : Target :=
  match fs.node? l with
  | some n => .found l n
  | none => .free l

theorem landing_of_file (h : fs.node? l = some (.file c)) : fs.landing l = .found l (.file c) := by
  simp [landing, h]

theorem landing_of_none (h : fs.node? l = none) : fs.landing l = .free l := by
  simp [landing, h]

/-- The target of a course. -/
def Course.target (fs : FileSystem) : Course → Except Fault Target
  | .directory l => .ok (.found l .directory)
  | .last l => .ok (fs.landing l)
  | .blocked l => .error (if (fs.node? l).isSome then .notDirectory else .notFound)
  | .tooLong => .error .nameTooLong

/-- Without links a walk follows its course. -/
theorem walk_eq (h : fs.LinkFree) (follow : Bool) (names : List String) (dir : Location) :
    fs.walk follow dir names =
      match (course fs.isDirectory dir names).target fs with
      | .ok t => .done t
      | .error f => .fault f := by
  induction names generalizing dir with
  | nil => rfl
  | cons name rest ih =>
    rw [walk, course]
    by_cases hidle : name = "" ∨ name = "."
    · simp only [if_pos hidle, ih]
    by_cases hup : name = ".."
    · simp only [if_neg hidle, if_pos hup, ih]
    by_cases hlong : maxNameLength < name.utf8ByteSize
    · simp only [if_neg hidle, if_neg hup, if_pos hlong, Course.target]
    simp only [if_neg hidle, if_neg hup, if_neg hlong]
    cases hnode : fs.node? (dir ++ [name]) with
    | none =>
      have hdir : fs.isDirectory (dir ++ [name]) = false := by simp [isDirectory, hnode]
      cases rest <;> simp [hdir, Course.target, landing, hnode]
    | some n =>
      cases n with
      | directory => simp only [isDirectory_eq_true.2 hnode, if_true, ih]
      | link target => exact absurd hnode (h _ target)
      | file c =>
        have hdir : fs.isDirectory (dir ++ [name]) = false := by simp [isDirectory, hnode]
        cases rest <;> simp [hdir, Course.target, landing, hnode]

/-- A name that a directory can hold. -/
def IsName (name : String) : Prop :=
  name ≠ "" ∧ name ≠ "." ∧ name ≠ ".."

/-- A walk that does not end at a directory ends at its last name. -/
theorem course_eq_last {isDirectory : Location → Bool} {names : List String} {dir : Location}
    (h : course isDirectory dir names = .last l) :
    isDirectory l = false ∧
      ∃ name, IsName name ∧ names.getLast? = some name ∧ l.getLast? = some name := by
  induction names generalizing dir with
  | nil => cases h
  | cons name rest ih =>
    have hrest : ∀ {dir'}, course isDirectory dir' rest = .last l → isDirectory l = false ∧
        ∃ name', IsName name' ∧ (name :: rest).getLast? = some name' ∧ l.getLast? = some name' := by
      intro dir' h
      obtain ⟨hl, name', hname, hlast, hl'⟩ := ih h
      exact ⟨hl, name', hname, by simp [List.getLast?_cons, hlast], hl'⟩
    unfold course at h
    split at h
    · exact hrest h
    · next hidle =>
      split at h
      · exact hrest h
      · next hup =>
        split at h
        · cases h
        · split at h
          · exact hrest h
          · next hdir =>
            split at h
            · next hempty =>
              cases h
              obtain ⟨h0, h1⟩ := not_or.1 hidle
              rw [List.isEmpty_iff.1 hempty]
              exact ⟨by simpa using hdir, name, ⟨h0, h1, hup⟩, rfl, by simp⟩
            · cases h

/-! ## Resolving -/

/-- The course of a path. -/
def courseOf (fs : FileSystem) (path : String) : Except Fault Course :=
  if path.toList.contains (Char.ofNat 0) then .error .nulInName
  else if path = "" then .error .notFound
  else if maxPathLength < path.utf8ByteSize then .error .nameTooLong
  else .ok (course fs.isDirectory (start fs.workingDirectory path) (names path))

/-- The course of a path depends on the directories only. -/
theorem courseOf_congr (h : SameDirectories fs fs') (path : String) :
    fs'.courseOf path = fs.courseOf path := by
  simp only [courseOf, h.workingDirectory, h.isDirectory]

/-- Without links a path resolves to the target of its course. -/
theorem resolve_eq (h : fs.LinkFree) (path : String) (last : Bool) :
    fs.resolve path last = fs.courseOf path >>= fun c => c.target fs := by
  have hfollow : ∀ dir names, fs.follow last maxLinks dir names =
      (course fs.isDirectory dir names).target fs := by
    intro dir names
    rw [maxLinks, follow, walk_eq h]
    cases (course fs.isDirectory dir names).target fs <;> rfl
  unfold resolve courseOf
  split
  · rfl
  split
  · rfl
  split
  · rfl
  exact hfollow _ _

/-- The path leads to a location where a file stands or may be put, whether or not links at its
end are followed. -/
def Leads (fs : FileSystem) (path : String) (l : Location) : Prop :=
  fs.isDirectory l = false ∧ ∀ last, fs.resolve path last = .ok (fs.landing l)

theorem landing_inj {l' : Location} (h : fs.landing l = fs.landing l') : l = l' := by
  unfold landing at h
  split at h <;> split at h <;> cases h <;> rfl

theorem landing_ne_directory (hl : fs.isDirectory l = false) (l' : Location) :
    fs.landing l ≠ .found l' .directory := by
  intro h
  unfold landing at h
  split at h
  · next n hn =>
    cases h
    rw [isDirectory_eq_true.2 hn] at hl
    cases hl
  · cases h

/-- Without links a path leads to a location exactly if its course ends there. -/
theorem leads_iff (h : fs.LinkFree) {path : String} :
    fs.Leads path l ↔ fs.courseOf path = .ok (.last l) := by
  constructor
  · rintro ⟨hl, hresolve⟩
    have htarget := hresolve true
    rw [resolve_eq h] at htarget
    obtain ⟨c, hc, htarget⟩ := bind_eq_ok.1 htarget
    rw [hc]
    cases c with
    | directory l' => exact absurd (Except.ok.inj htarget).symm (landing_ne_directory hl l')
    | last l' => rw [landing_inj (Except.ok.inj htarget)]
    | blocked l' => cases htarget
    | tooLong => cases htarget
  · intro hc
    refine ⟨?_, fun last => by rw [resolve_eq h, hc]; rfl⟩
    unfold courseOf at hc
    split at hc
    · cases hc
    split at hc
    · cases hc
    split at hc
    · cases hc
    exact (course_eq_last (Except.ok.inj hc)).1

/-- Where a path leads depends on the directories only. -/
theorem Leads.congr (h : fs.LinkFree) (h' : fs'.LinkFree) (hdirs : SameDirectories fs fs')
    {path : String} (hpath : fs.Leads path l) : fs'.Leads path l := by
  rw [leads_iff h', courseOf_congr hdirs]
  exact (leads_iff h).1 hpath

/-- A path leads to one location at most. -/
theorem Leads.unique {l' : Location} {path : String} (h : fs.Leads path l)
    (h' : fs.Leads path l') : l = l' :=
  landing_inj (Except.ok.inj ((h.2 true).symm.trans (h'.2 true)))

theorem Leads.ne_nil {path : String} (h : fs.Leads path l) : l ≠ [] :=
  ne_nil_of_isDirectory h.1

/-- Without links a path that resolves leads to a directory or to a location for a file. -/
theorem resolve_eq_ok (h : fs.LinkFree) {path : String} {last : Bool} {t : Target}
    (ht : fs.resolve path last = .ok t) :
    (∃ l, t = .found l .directory) ∨ ∃ l, fs.Leads path l ∧ t = fs.landing l := by
  rw [resolve_eq h] at ht
  obtain ⟨c, hc, ht⟩ := bind_eq_ok.1 ht
  cases c with
  | directory l => exact .inl ⟨l, (Except.ok.inj ht).symm⟩
  | last l => exact .inr ⟨l, (leads_iff h).2 hc, (Except.ok.inj ht).symm⟩
  | blocked l => cases ht
  | tooLong => cases ht

end Switchboard.FileSystem
