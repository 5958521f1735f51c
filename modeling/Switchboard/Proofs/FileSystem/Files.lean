import Switchboard.Proofs.FileSystem.Names

/-!
# Reading and writing files

Without links, an operation on files succeeds exactly if its paths lead to locations for files,
and then it touches these locations only.
-/

namespace Switchboard.FileSystem

open Outcome

variable {fs fs' : FileSystem} {path : String} {l : Location} {c : Contents}

/-- Without links there is a file where there is no directory, or nothing. -/
theorem node?_eq_none_or_file (hlinks : fs.LinkFree) (hl : fs.isDirectory l = false) :
    fs.node? l = none ∨ ∃ c, fs.node? l = some (.file c) := by
  cases hnode : fs.node? l with
  | none => exact .inl rfl
  | some n =>
    cases n with
    | file c => exact .inr ⟨c, rfl⟩
    | directory =>
      rw [isDirectory_eq_true.2 hnode] at hl
      cases hl
    | link target => exact absurd hnode (hlinks l target)

/-- Reading gives the contents of the file. -/
theorem Leads.read_of_file (h : fs.Leads path l) (hnode : fs.node? l = some (.file c)) :
    fs.read path = .ok c := by
  simp [read, h.2 true, landing_of_file hnode]

theorem Leads.read_of_free (h : fs.Leads path l) (hnode : fs.node? l = none) :
    fs.read path = .error .notFound := by
  simp [read, h.2 true, landing_of_none hnode]

/-- What can be read stands at the location that the path leads to. -/
theorem read_eq_ok_iff (hlinks : fs.LinkFree) :
    fs.read path = .ok c ↔ ∃ l, fs.Leads path l ∧ fs.node? l = some (.file c) := by
  constructor
  · intro h
    obtain ⟨t, ht, h⟩ := bind_eq_ok.1 h
    rcases resolve_eq_ok hlinks ht with ⟨l, rfl⟩ | ⟨l, hl, rfl⟩
    · cases h
    · refine ⟨l, hl, ?_⟩
      rcases node?_eq_none_or_file hlinks hl.1 with hnode | ⟨c', hnode⟩
      · rw [landing_of_none hnode] at h
        cases h
      · rw [landing_of_file hnode] at h
        cases h
        exact hnode
  · rintro ⟨l, hl, hnode⟩
    exact hl.read_of_file hnode

theorem Leads.readText_of_text {text : String} (h : fs.Leads path l)
    (hnode : fs.node? l = some (.file (.text text))) : fs.readText path = .ok text := by
  simp [readText, h.read_of_file hnode]

theorem readText_congr (h : fs'.read path = fs.read path) :
    fs'.readText path = fs.readText path := by
  rw [readText, readText, h]

/-- Writing puts a file at the place. -/
theorem Leads.write (hlinks : fs.LinkFree) (h : fs.Leads path l) (c : Contents) :
    fs.write path c = .ok (fs.insert l (.file c)) := by
  rcases node?_eq_none_or_file hlinks h.1 with hnode | ⟨c', hnode⟩
  · simp [FileSystem.write, h.2 true, landing_of_none hnode]
  · simp [FileSystem.write, h.2 true, landing_of_file hnode]

/-- A write succeeds only at a place for a file. -/
theorem write_eq_ok (hlinks : fs.LinkFree) (h : fs.write path c = .ok fs') :
    ∃ l, fs.Leads path l ∧ fs' = fs.insert l (.file c) := by
  obtain ⟨t, ht, hwrite⟩ := bind_eq_ok.1 h
  rcases resolve_eq_ok hlinks ht with ⟨l, rfl⟩ | ⟨l, hl, rfl⟩
  · cases hwrite
  · rw [hl.write hlinks] at h
    exact ⟨l, hl, (Except.ok.inj h).symm⟩

/-- A copy leaves what can be read from its source as it is. -/
theorem copy_eq_ok (hlinks : fs.LinkFree) {source target : String}
    (h : fs.copy source target = .ok fs') :
    ∃ l c, fs.Leads target l ∧ fs' = fs.insert l (.file c) ∧ fs'.read source = fs.read source := by
  obtain ⟨c, hread, hwrite⟩ := bind_eq_ok.1 h
  obtain ⟨l, hl, rfl⟩ := write_eq_ok hlinks hwrite
  obtain ⟨ls, hsource, hnode⟩ := (read_eq_ok_iff hlinks).1 hread
  have hsource' : (fs.insert l (.file c)).Leads source ls :=
    hsource.congr hlinks (hlinks.insert hl.ne_nil) (.insert hl.1)
  refine ⟨l, c, hl, rfl, ?_⟩
  rw [hread]
  refine hsource'.read_of_file ?_
  rw [node?_insert hl.ne_nil, hnode]
  split <;> rfl

variable {source target : String} {l' : Location}

/-- A file gets another name; one that has it already stays. -/
theorem Leads.rename (hlinks : fs.LinkFree) (h : fs.Leads source l)
    (hnode : fs.node? l = some (.file c)) (h' : fs.Leads target l') :
    fs.rename source target =
      .ok (if l = l' then fs else (fs.erase l).insert l' (.file c)) := by
  have hslash := h'.not_asksForDirectory hlinks
  have hend := h'.not_endsInDirectory hlinks
  have hbare := withoutSlashes_of_not_asksForDirectory hslash
  rcases node?_eq_none_or_file hlinks h'.1 with hfree | ⟨c', hfile⟩
  · have hne : l ≠ l' := by
      rintro rfl
      rw [hfree] at hnode
      cases hnode
    simp [FileSystem.rename, h.2 false, landing_of_file hnode, hbare, h'.2 false,
      landing_of_none hfree, hslash, hne]
  · by_cases heq : l = l'
    · simp [FileSystem.rename, h.2 false, hbare, h'.2 false, landing_of_file hfile, hslash, hend,
        heq]
    · simp [FileSystem.rename, h.2 false, landing_of_file hnode, hbare, h'.2 false,
        landing_of_file hfile, hslash, hend, heq]

/-- A file that was renamed is at its new place and no longer at the old one. -/
theorem rename_eq_ok (hlinks : fs.LinkFree) (h : fs.rename source target = .ok fs') :
    ∃ l c l', fs.Leads source l ∧ fs.node? l = some (.file c) ∧ fs.Leads target l' ∧
      fs' = if l = l' then fs else (fs.erase l).insert l' (.file c) := by
  obtain ⟨t, ht, hrest⟩ := bind_eq_ok.1 h
  rcases resolve_eq_ok hlinks ht with ⟨l, rfl⟩ | ⟨l, hl, rfl⟩
  · cases hrest
  rcases node?_eq_none_or_file hlinks hl.1 with hnode | ⟨c, hnode⟩
  · rw [landing_of_none hnode] at hrest
    cases hrest
  rw [landing_of_file hnode] at hrest
  obtain ⟨t', ht', hrest⟩ := bind_eq_ok.1 hrest
  have hslash : asksForDirectory target = false := by
    cases hslash : asksForDirectory target with
    | false => rfl
    | true =>
      cases t' with
      | free l' => simp [hslash] at hrest
      | found l' m =>
        by_cases hend : endsInDirectory (withoutSlashes target) = true <;>
          simp [hslash, hend] at hrest
  rw [withoutSlashes_of_not_asksForDirectory hslash] at ht' hrest
  rcases resolve_eq_ok hlinks ht' with ⟨l', rfl⟩ | ⟨l', hl', rfl⟩
  · by_cases hend : endsInDirectory target = true <;> simp [hslash, hend] at hrest
  · rw [hl.rename hlinks hnode hl'] at h
    exact ⟨l, c, l', hl, hnode, hl', (Except.ok.inj h).symm⟩

end Switchboard.FileSystem
