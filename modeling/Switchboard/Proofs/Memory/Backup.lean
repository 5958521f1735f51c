import Switchboard.Proofs.FileSystem.Siblings
import Switchboard.Proofs.Memory.Atomicity
import Switchboard.Proofs.Memory.Retention

/-!
# Files that hold no snapshot

Opening a memory leaves its file as it is. A file that holds no snapshot is copied to a name beside
it, and as no later change writes to that name, the copy stays (`FileStore.backup_kept`). The name
is longer than that of the file and may be too long: then there is no copy, the memory begins empty
all the same, and the next change destroys what the file held (`FileStore.destroyed_of_longName`).
-/

namespace Switchboard

open Decimal FileSystem Outcome

namespace FileStore

/-- The name of the copy of a file. -/
def backupName (name : String) (now : Timestamp) : String :=
  name ++ ".corrupted." ++ toString now.unixSeconds

variable {fs fs' fs'' : FileSystem} {path name : String} {l l' : Location} {c : Contents}
  {now : Timestamp}

theorem toList_backupName (name : String) (now : Timestamp) :
    (backupName name now).toList = name.toList ++ (".corrupted.".toList ++
      ((if now.unixSeconds < 0 then ['-'] else []) ++ natDigits now.unixSeconds.natAbs)) := by
  rw [backupName, String.toList_append, String.toList_append, toList_toString_int,
    List.append_assoc]

/-- A copy has a longer name than its file, by more than eleven bytes. -/
theorem utf8ByteSize_lt_backupName (name : String) (now : Timestamp) :
    name.utf8ByteSize + 11 < (backupName name now).utf8ByteSize := by
  have hsize : (".corrupted.").utf8ByteSize = 11 := by decide
  have hdigits : toString now.unixSeconds ≠ "" := by
    intro hempty
    have hlist := toList_toString_int now.unixSeconds
    rw [hempty] at hlist
    exact natDigits_ne_nil _ (List.append_eq_nil_iff.1 hlist.symm).2
  have hpos : 0 < (toString now.unixSeconds).utf8ByteSize :=
    Nat.pos_of_ne_zero fun hzero => hdigits (String.utf8ByteSize_eq_zero_iff.1 hzero)
  rw [backupName, String.utf8ByteSize_append, String.utf8ByteSize_append, hsize]
  omega

theorem backupName_ne_self (name : String) (now : Timestamp) : backupName name now ≠ name := by
  intro heq
  have hsize := utf8ByteSize_lt_backupName name now
  rw [heq] at hsize
  omega

/-- A character is not in the name of a copy unless it is in that of the file or in what is added.
-/
theorem not_mem_backupName {c : Char} (hname : c ∉ name.toList) (hdigit : c.isDigit = false)
    (hliteral : c ∉ '-' :: ".corrupted.".toList) (now : Timestamp) :
    c ∉ (backupName name now).toList := by
  have hdigits : c ∉ natDigits now.unixSeconds.natAbs := fun hmem => by
    simp [isDigit_of_mem_natDigits hmem] at hdigit
  rw [List.mem_cons, not_or] at hliteral
  rw [toList_backupName]
  simp only [List.mem_append, hname, hliteral.2, hdigits, or_false, false_or]
  split
  · simpa using hliteral.1
  · simp

/-- The name of a copy ends in a digit, so it is not that of a draft. -/
theorem backupName_ne_append (name stem : String) (now : Timestamp) :
    backupName name now ≠ stem ++ "." ++ "tmp" := by
  intro heq
  obtain ⟨ds, d, hds⟩ := (List.eq_nil_or_concat (natDigits now.unixSeconds.natAbs)).resolve_left
    (natDigits_ne_nil _)
  have hdigit : d.isDigit = true := by
    refine isDigit_of_mem_natDigits (n := now.unixSeconds.natAbs) ?_
    simp [hds]
  have hlast : (backupName name now).toList.getLast? = some d := by
    rw [toList_backupName, hds, List.concat_eq_append, ← List.append_assoc, ← List.append_assoc,
      ← List.append_assoc, List.getLast?_concat]
  rw [heq] at hlast
  have hp : d = 'p' := by simpa [List.getLast?_append] using hlast.symm
  rw [hp] at hdigit
  cases hdigit

/-- A copy of the file at `l` can be made beside it: its name and its path are not too long, and no
directory has that name. -/
structure CanBackUp (fs : FileSystem) (path : String) (l : Location) (name : String)
    (now : Timestamp) : Prop where
  name_le : (backupName name now).utf8ByteSize ≤ maxNameLength
  path_le : (backupPath path now).utf8ByteSize ≤ maxPathLength
  free : fs.isDirectory (l.dropLast ++ [backupName name now]) = false

/-- A file whose name has no room for eleven more bytes cannot be copied aside. -/
theorem not_canBackUp_of_size (h : maxNameLength ≤ name.utf8ByteSize + 11) :
    ¬CanBackUp fs path l name now := by
  intro hfit
  have hsize := utf8ByteSize_lt_backupName name now
  have hname := hfit.name_le
  omega

/-- The path of a copy leads to its name beside the file, if the copy can be made, and nowhere else.
-/
theorem leads_backupPath_iff (hlinks : fs.LinkFree) (h : fs.Leads path l)
    (hl : l.getLast? = some name) :
    fs.Leads (backupPath path now) l' ↔
      CanBackUp fs path l name now ∧ l' = l.dropLast ++ [backupName name now] := by
  obtain ⟨name', hname', hlast, hl'⟩ := h.last hlinks
  obtain rfl : name' = name := Option.some.inj (hl'.symm.trans hl)
  have hmem : name' ∈ Path.pieces path := List.mem_of_getLast? hlast
  have hnul : Char.ofNat 0 ∉ name'.toList := fun hc =>
    (courseOf_eq_ok_iff.1 ((leads_iff hlinks).1 h)).1.noNul (Path.mem_of_mem_pieces hmem hc).1
  have hpath : backupPath path now = Path.withFileName path (backupName name' now) := by
    rw [backupPath, Path.fileName, Path.splitName_of_last hname' hlast]
    rfl
  have hsize := utf8ByteSize_lt_backupName name' now
  have hiff := @Leads.withFileName_iff fs path _ l l' hlinks h (isName_of_size (by omega))
    (not_mem_backupName (Path.slash_not_mem_of_mem_pieces hmem) (by decide) (by decide) now)
    (not_mem_backupName hnul (by decide) (by decide) now)
  rw [← hpath] at hiff
  rw [hiff]
  constructor
  · rintro ⟨hname, hpath, hfree, heq⟩
    exact ⟨⟨hname, hpath, hfree⟩, heq⟩
  · rintro ⟨⟨hname, hpath, hfree⟩, heq⟩
    exact ⟨hname, hpath, hfree, heq⟩

theorem CanBackUp.leads (hfit : CanBackUp fs path l name now) (hlinks : fs.LinkFree)
    (h : fs.Leads path l) (hl : l.getLast? = some name) :
    fs.Leads (backupPath path now) (l.dropLast ++ [backupName name now]) :=
  (leads_backupPath_iff hlinks h hl).2 ⟨hfit, rfl⟩

/-- No link comes, the directories stay, and only the places of the file and its draft may hold
something else. -/
structure Spares (path : String) (fs fs' : FileSystem) : Prop where
  linkFree : fs'.LinkFree
  directories : SameDirectories fs fs'
  others : ∀ l, ¬fs.Leads path l → ¬fs.Leads (draftPath path) l → fs'.node? l = fs.node? l

theorem Spares.refl (hlinks : fs.LinkFree) (path : String) : Spares path fs fs :=
  ⟨hlinks, ⟨rfl, rfl⟩, fun _ _ _ => rfl⟩

/-- What two changes spare one after the other, they spare together. -/
theorem Spares.trans (hlinks : fs.LinkFree) (h : Spares path fs fs')
    (h' : Spares path fs' fs'') : Spares path fs fs'' := by
  refine ⟨h'.linkFree, h.directories.trans h'.directories, fun l hl hd => ?_⟩
  have hback : ∀ {p}, fs'.Leads p l → fs.Leads p l := fun hp =>
    hp.congr h.linkFree hlinks h.directories.symm
  rw [h'.others l (mt hback hl) (mt hback hd), h.others l hl hd]

/-- A write spares all files but its own and its draft. -/
theorem spares_persist (hlinks : fs.LinkFree) (s : FileStore) :
    Spares s.path fs (s.persist fs).2 := by
  have hconfined := persist_confined hlinks s
  have hothers : ∀ l, ¬fs.Leads s.path l → ¬fs.Leads (draftPath s.path) l →
      (s.persist fs).2.node? l = fs.node? l := by
    intro l hl hd
    by_contra hne
    exact (hconfined l hne).elim hl hd
  rcases persist_cases hlinks s with ⟨f, hcase⟩ | ⟨d, f, hd, hcase⟩ | ⟨d, l, hd, hl, hcase⟩
  · rw [hcase] at hothers ⊢
    exact ⟨hlinks, ⟨rfl, rfl⟩, hothers⟩
  · rw [hcase] at hothers ⊢
    exact ⟨hlinks.insert hd.ne_nil, .insert hd.1, hothers⟩
  · rw [hcase] at hothers ⊢
    exact ⟨linkFree_replaced hlinks hd.ne_nil hl.ne_nil _, sameDirectories_replaced hd.1 hl.1 _,
      hothers⟩

/-- The operations of a memory in a file spare all files but its own and its draft. -/
theorem spares_operateAll (hlinks : fs.LinkFree) (f : FileStore) (ops : List Memory.Operation) :
    Spares f.path fs ((Memory.filed f).operateAll fs ops).2.2 := by
  induction ops generalizing f fs with
  | nil => exact .refl hlinks _
  | cons o rest ih =>
    cases o with
    | ask q => exact ih hlinks f
    | update t u =>
      have hwrite : Spares f.path fs ((f.change t u).persist fs).2 :=
        spares_persist hlinks (f.change t u)
      have hrest : Spares f.path ((f.change t u).persist fs).2
          ((Memory.filed (f.change t u)).operateAll ((f.change t u).persist fs).2 rest).2.2 :=
        ih hwrite.linkFree (f.change t u)
      simp only [Memory.operateAll, Memory.operate, Memory.update, update]
      exact hwrite.trans hlinks hrest

/-! ## Opening -/

variable {text : String} {e : Json.Fault}

/-- A text that is no snapshot is copied aside if it can be, and the store starts empty. -/
theorem openAt_of_malformed (hread : fs.readText path = .ok text)
    (hdecode : Json.decode MemorySnapshot.read text = .error e) (now : Timestamp) :
    openAt fs path now =
      .ok (⟨path, {}⟩, (fs.copy path (backupPath path now)).toOption.getD fs) := by
  rw [openAt, load, hread]
  dsimp only
  rw [hdecode]
  dsimp only
  cases fs.copy path (backupPath path now) <;> rfl

/-- Where a copy can be made it is made, and nothing else changes. -/
theorem copy_of_canBackUp (hlinks : fs.LinkFree) (h : fs.Leads path l) (hl : l.getLast? = some name)
    (hnode : fs.node? l = some (.file c)) (hfit : CanBackUp fs path l name now) :
    fs.copy path (backupPath path now) =
      .ok (fs.insert (l.dropLast ++ [backupName name now]) (.file c)) := by
  have hleads := hfit.leads hlinks h hl
  rw [copy, h.read_of_file hnode]
  exact hleads.write hlinks c

/-- A copy that cannot be made is not made. -/
theorem toOption_copy_of_not_canBackUp (hlinks : fs.LinkFree) (h : fs.Leads path l)
    (hl : l.getLast? = some name) (hfit : ¬CanBackUp fs path l name now) :
    (fs.copy path (backupPath path now)).toOption = none := by
  cases hcopy : fs.copy path (backupPath path now) with
  | error f => rfl
  | ok fs' =>
    obtain ⟨b, c, hb, -⟩ := copy_eq_ok hlinks hcopy
    exact absurd ((leads_backupPath_iff hlinks h hl).1 hb).1 hfit

/-- Neither the file nor its draft has the name of the copy. -/
theorem backup_ne (hlinks : fs.LinkFree) (h : fs.Leads path l) (hl : l.getLast? = some name)
    (now : Timestamp) :
    ¬fs.Leads path (l.dropLast ++ [backupName name now]) ∧
      ¬fs.Leads (draftPath path) (l.dropLast ++ [backupName name now]) := by
  constructor
  · intro hb
    have heq := congrArg List.getLast? (h.unique hb)
    rw [hl, List.getLast?_concat, Option.some.injEq] at heq
    exact backupName_ne_self name now heq.symm
  · intro hb
    obtain ⟨stem, -, hstem⟩ := hb.exists_last_withExtension hlinks (by decide)
    rw [List.getLast?_concat, Option.some.injEq] at hstem
    exact backupName_ne_append name stem now hstem

/-- The copy stays, whatever is done later with a store of the file. -/
theorem backup_operateAll (hlinks : fs.LinkFree) (h : fs.Leads path l)
    (hl : l.getLast? = some name) (hfit : CanBackUp fs path l name now) (m : MemoryStore)
    (ops : List Memory.Operation) :
    let b := l.dropLast ++ [backupName name now]
    let after := ((Memory.filed ⟨path, m⟩).operateAll (fs.insert b (.file c)) ops).2.2
    after.node? b = some (.file c) ∧ after.read (backupPath path now) = .ok c := by
  have hleads := hfit.leads hlinks h hl
  have hlinks' := hlinks.insert (c := c) hleads.ne_nil
  have hdirs : SameDirectories fs (fs.insert _ (.file c)) := .insert hleads.1
  -- What a run spares is said of the file system with the copy, which has the same directories.
  have hspares := spares_operateAll hlinks' ⟨path, m⟩ ops
  obtain ⟨hfile, hdraft⟩ := backup_ne hlinks h hl now
  have hback : ∀ {p l'}, (fs.insert _ (.file c)).Leads p l' → fs.Leads p l' := fun hp =>
    hp.congr hlinks' hlinks hdirs.symm
  have hnode := hspares.others _ (mt hback hfile) (mt hback hdraft)
  rw [node?_insert hleads.ne_nil, if_pos rfl] at hnode
  have hleads' := hleads.congr hlinks hspares.linkFree (hdirs.trans hspares.directories)
  exact ⟨hnode, hleads'.read_of_file hnode⟩

/-- A file with a text is opened as it is. If the text describes a snapshot, that is the memory, and
no file changes. If it describes none, the memory is empty, and where a copy can be made beside the
file it is made, nothing else changes, and whatever is done with the memory later the copy holds
what the file held. Where none can be made no file changes. -/
theorem backup_kept (hlinks : fs.LinkFree) (hread : fs.readText path = .ok text)
    (now : Timestamp) :
    ∃ l name c, fs.Leads path l ∧ l.getLast? = some name ∧ fs.node? l = some (.file c) ∧
      (∀ s, Json.decode MemorySnapshot.read text = .ok s →
        openAt fs path now = .ok (⟨path, .ofSnapshot s⟩, fs)) ∧
      ∀ e, Json.decode MemorySnapshot.read text = .error e →
        ∃ fs', openAt fs path now = .ok (⟨path, {}⟩, fs') ∧ fs'.node? l = some (.file c) ∧
          (CanBackUp fs path l name now →
            let b := l.dropLast ++ [backupName name now]
            (∀ l', fs'.node? l' = if l' = b then some (.file c) else fs.node? l') ∧
              ∀ ops, let after := ((Memory.filed ⟨path, {}⟩).operateAll fs' ops).2.2
                after.node? b = some (.file c) ∧ after.read (backupPath path now) = .ok c) ∧
          (¬CanBackUp fs path l name now → fs' = fs) := by
  obtain ⟨c, hc, -⟩ := bind_eq_ok.1 hread
  obtain ⟨l, hl, hnode⟩ := (read_eq_ok_iff hlinks).1 hc
  obtain ⟨name, -, -, hlast⟩ := hl.last hlinks
  refine ⟨l, name, c, hl, hlast, hnode, fun s hs => ?_, fun e he => ?_⟩
  · rw [openAt, load_of_readText hread hs]
    rfl
  · rw [openAt_of_malformed hread he now]
    by_cases hfit : CanBackUp fs path l name now
    · have hne := (hfit.leads hlinks hl hlast).ne_nil
      rw [copy_of_canBackUp hlinks hl hlast hnode hfit]
      refine ⟨_, rfl, ?_, fun _ => ⟨node?_insert hne _, fun ops => ?_⟩, absurd hfit⟩
      · rw [Except.toOption, Option.getD_some, node?_insert hne, hnode, ite_self]
      · exact backup_operateAll hlinks hl hlast hfit {} ops
    · rw [toOption_copy_of_not_canBackUp hlinks hl hlast hfit]
      exact ⟨fs, rfl, hnode, fun h => absurd h hfit, fun _ => rfl⟩

/-- What no memory has written. -/
def Wreck.contents : String := "\x7b not json"

theorem Wreck.decode_contents : ∃ e, Json.decode MemorySnapshot.read contents = .error e := by
  have hnone : (Json.decode MemorySnapshot.read contents).toOption.isNone = true := rfl
  cases hdecode : Json.decode MemorySnapshot.read contents with
  | error e => exact ⟨e, rfl⟩
  | ok s =>
    rw [hdecode] at hnone
    cases hnone

/-- One file, which holds that. -/
def Wreck.files (name : String) : FileSystem :=
  FileSystem.empty.insert [name] (.file (.text contents))

theorem Wreck.linkFree_files (name : String) : (files name).LinkFree :=
  linkFree_empty.insert (List.cons_ne_nil _ _)

theorem Wreck.node?_files (name : String) (l : Location) :
    (files name).node? l =
      if l = [name] then some (.file (.text contents)) else FileSystem.empty.node? l :=
  node?_insert (List.cons_ne_nil _ _) _ l

theorem Wreck.eq_of_node?_files {name : String} {l : Location} {c : Contents}
    (h : (files name).node? l = some (.file c)) : l = [name] := by
  by_contra hne
  rw [node?_files, if_neg hne] at h
  cases l <;> cases h

theorem Wreck.isDirectory_files (name n : String) : (files name).isDirectory [n] = false := by
  rw [isDirectory, node?_files]
  by_cases h : [n] = [name]
  · rw [if_pos h]
  · rw [if_neg h]
    rfl

theorem Wreck.leads_files (name : String) {n : String} (hpos : 3 ≤ n.utf8ByteSize)
    (hlen : n.utf8ByteSize ≤ maxNameLength) (hslash : '/' ∉ n.toList)
    (hnul : Char.ofNat 0 ∉ n.toList) : (files name).Leads n [n] := by
  have hhome : (files name).workingDirectory = [] := workingDirectory_insert _ _
  have hleads := leads_name (linkFree_files name) (isName_of_size hpos) hslash hnul hlen
  rw [hhome] at hleads
  exact hleads (isDirectory_files name n)

/-- The wreck is still in its copy after all operations. -/
theorem copied_of_wreck :
    (Wreck.files "m.json").LinkFree ∧
      (Wreck.files "m.json").readText "m.json" = .ok Wreck.contents ∧
      ∃ fs', openAt (Wreck.files "m.json") "m.json" .epoch = .ok (⟨"m.json", {}⟩, fs') ∧
        ∀ ops, (((Memory.filed ⟨"m.json", {}⟩).operateAll fs' ops).2.2).read
          "m.json.corrupted.0" = .ok (.text Wreck.contents) := by
  have hlinks := Wreck.linkFree_files "m.json"
  have hread : (Wreck.files "m.json").readText "m.json" = .ok Wreck.contents := rfl
  obtain ⟨l, name, c, hl, hlast, hnode, -, hopen⟩ := backup_kept hlinks hread .epoch
  obtain ⟨e, he⟩ := Wreck.decode_contents
  obtain ⟨fs', hfs', -, hkept, -⟩ := hopen e he
  obtain rfl : l = ["m.json"] := hl.unique
    (Wreck.leads_files "m.json" (by decide) (by decide) (by decide) (by decide))
  obtain rfl : "m.json" = name := Option.some.inj hlast
  obtain rfl : .text Wreck.contents = c := by
    cases hnode
    rfl
  exact ⟨hlinks, hread, fs', hfs', fun ops => ((hkept ⟨by decide, by decide, by decide⟩).2 ops).2⟩

/-! ## Names with no room for a copy -/

/-- A text that describes no snapshot and is nowhere but in the file is gone once a change is
written. -/
theorem update_destroys (hlinks : fs.LinkFree) {f : FileStore}
    (hf : f.store.toMemorySnapshot.WellFormed) (h : fs.Leads f.path l) {d : Location}
    (hd : fs.Leads (draftPath f.path) d)
    (honly : ∀ l', fs.node? l' = some (.file (.text text)) → l' = l)
    (hdecode : Json.decode MemorySnapshot.read text = .error e) {t : Stamps} (ht : t.IsValid)
    (u : MemoryUpdate) :
    ∃ s fs', f.update fs t u = (.ok (), s, fs') ∧
      ∀ l', fs'.node? l' ≠ some (.file (.text text)) := by
  have hwritten := decode_fileText (s := f.change t u) (MemoryStore.wellFormed_update hf ht u)
  have hne : (f.change t u).fileText ≠ text := by
    intro heq
    rw [heq, hdecode] at hwritten
    cases hwritten
  have hpersist := persist_of_leads (s := f.change t u) hlinks h hd
  refine ⟨f.change t u, _, by rw [update, hpersist], fun l' => ?_⟩
  rw [node?_replaced hd.ne_nil h.ne_nil]
  split
  · simpa using hne
  · next hfile =>
    split
    · simp
    · exact fun hl' => hfile (honly l' hl')

/-- Where no copy can be made, the first change that can be written destroys what the file held. -/
theorem destroyed_of_not_canBackUp (hlinks : fs.LinkFree) (h : fs.Leads path l)
    (hl : l.getLast? = some name) (hnode : fs.node? l = some (.file (.text text)))
    (honly : ∀ l', fs.node? l' = some (.file (.text text)) → l' = l)
    (hdecode : Json.decode MemorySnapshot.read text = .error e)
    (hfit : ¬CanBackUp fs path l name now) {d : Location} (hd : fs.Leads (draftPath path) d) :
    ∃ f, openAt fs path now = .ok (f, fs) ∧ f.store = {} ∧
      ∀ t u, Stamps.IsValid t → ∃ s fs', f.update fs t u = (.ok (), s, fs') ∧
        ∀ l', fs'.node? l' ≠ some (.file (.text text)) := by
  refine ⟨⟨path, {}⟩, ?_, rfl, fun t u ht => ?_⟩
  · rw [openAt_of_malformed (h.readText_of_text hnode) hdecode,
      toOption_copy_of_not_canBackUp hlinks h hl hfit]
    rfl
  · exact update_destroys (f := ⟨path, {}⟩) hlinks MemorySnapshot.wellFormed_empty h hd honly
      hdecode ht u

/-- A name of 250 bytes, so that there is room for that of a draft and none for that of a copy. -/
def Wreck.longName : String :=
  String.ofList (List.replicate 250 'a')

theorem Wreck.utf8ByteSize_longName : longName.utf8ByteSize = 250 :=
  utf8ByteSize_replicate 250

theorem Wreck.not_mem_longName {a : Char} (ha : a ≠ 'a') : a ∉ longName.toList :=
  not_mem_replicate ha 250

theorem Wreck.leads_longName : (files longName).Leads longName [longName] := by
  have hsize := utf8ByteSize_longName
  exact leads_files _ (by omega) (by rw [maxNameLength]; omega) (not_mem_longName (by decide))
    (not_mem_longName (by decide))

theorem Wreck.leads_longDraft :
    (files longName).Leads (draftPath longName) [longName ++ ".tmp"] := by
  have hsize := utf8ByteSize_longName
  have hext : (".tmp").utf8ByteSize = 4 := by decide
  have hdraft : (longName ++ ".tmp").utf8ByteSize = 254 := by
    rw [String.utf8ByteSize_append, hsize, hext]
  rw [draftPath_name (isName_of_size (by omega)) (not_mem_longName (by decide))
    (not_mem_longName (by decide))]
  exact leads_files _ (by omega) (by rw [maxNameLength]; omega)
    (by simp [not_mem_longName]) (by simp [not_mem_longName])

/-- No directory has the name of the copy, but the file is opened without one, and what it held is
gone after any change. -/
theorem destroyed_of_longName :
    let fs := Wreck.files Wreck.longName
    fs.LinkFree ∧ fs.readText Wreck.longName = .ok Wreck.contents ∧
      (∃ e, Json.decode MemorySnapshot.read Wreck.contents = .error e) ∧
      fs.isDirectory [backupName Wreck.longName .epoch] = false ∧
      ∃ f, openAt fs Wreck.longName .epoch = .ok (f, fs) ∧ f.store = {} ∧
        fs.node? [backupName Wreck.longName .epoch] = none ∧
        ∀ u, ∃ s fs', f.update fs Timestamp.epoch u = (.ok (), s, fs') ∧
          ∀ l, fs'.node? l ≠ some (.file (.text Wreck.contents)) := by
  intro fs
  have hplace : fs.Leads Wreck.longName [Wreck.longName] := Wreck.leads_longName
  have hnode : fs.node? [Wreck.longName] = some (.file (.text Wreck.contents)) := by
    rw [Wreck.node?_files, if_pos rfl]
  have hfit : ¬CanBackUp fs Wreck.longName [Wreck.longName] Wreck.longName .epoch := by
    refine not_canBackUp_of_size ?_
    rw [maxNameLength, Wreck.utf8ByteSize_longName]
    decide
  have hfree : fs.node? [backupName Wreck.longName .epoch] = none := by
    rw [Wreck.node?_files, if_neg fun h => backupName_ne_self _ _ (List.cons.inj h).1]
    rfl
  obtain ⟨e, he⟩ := Wreck.decode_contents
  obtain ⟨f, hopen, hempty, hgone⟩ :=
    destroyed_of_not_canBackUp (Wreck.linkFree_files _) hplace rfl hnode
      (fun l => Wreck.eq_of_node?_files) he hfit Wreck.leads_longDraft
  exact ⟨Wreck.linkFree_files _, hplace.readText_of_text hnode, ⟨e, he⟩,
    Wreck.isDirectory_files _ _, f, hopen, hempty, hfree,
    fun u => hgone Timestamp.epoch u (Stamps.isValid_once Timestamp.isValid_epoch)⟩

end FileStore

end Switchboard
