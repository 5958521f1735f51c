import Switchboard.Memory.Backend
import Switchboard.Proofs.Memory.FileStore

/-!
# Memories that outlive the program

A memory is told things and asked things. One that is kept in a file may be dropped and opened
again at any point: as long as its path and the draft beside it lead to locations for files, all
its replies are those of a memory that is never dropped (`Memory.durability`). An open memory and
its file hold the same snapshot all along; every update writes it and every opening reads it back.

The draft can be out of reach though the file is not: its name may be too long. Then no update
is written, and opening the memory again loses it (`Memory.lost_of_long`).
-/

namespace Switchboard

open FileSystem Outcome

namespace Memory

/-- What a memory can be asked. -/
inductive Question where
  | history (id : RequestId)
  | search (query : String) (limit : Nat) (threshold : Float)
  | usage

/-- What a memory answers. -/
inductive Answer where
  | history (entries : List ConversationEntry)
  | search (snippets : List KnowledgeSnippet)
  | usage (u : MemoryUsage)

/-- The answer to a question. -/
def answer (m : Memory) : Question → Except MemoryFailure Answer
  | .history id => (m.history id).map .history
  | .search query limit threshold => (m.search query limit threshold).map .search
  | .usage => .ok (.usage m.store.usage)

/-- What is done with a memory. -/
inductive Operation where
  | update (t : Stamps) (u : MemoryUpdate)
  | ask (q : Question)

/-- What a memory replies. -/
inductive Reply where
  | updated (r : Except MemoryFailure Unit)
  | answered (r : Except MemoryFailure Answer)

/-- Carries out an operation. -/
def operate (m : Memory) (fs : FileSystem) : Operation → Reply × Memory × FileSystem
  | .update t u => ((.updated (m.update fs t u).1), (m.update fs t u).2)
  | .ask q => (.answered (m.answer q), m, fs)

/-- A step of a session. -/
inductive Step where
  | operate (o : Operation)
  /-- The memory is dropped, and the one in the file is opened. -/
  | reopen (now : Timestamp)

/-- Whether the step is an operation. -/
def Step.isOperation : Step → Bool
  | .operate _ => true
  | .reopen _ => false

/-- The points in time of a change are of the calendar. -/
def Step.IsTimed : Step → Prop
  | .operate (.update t _) => t.IsValid
  | _ => True

/-- The replies to a session with the memory in a file. A session ends early if the file cannot
be opened. -/
def session (path : String) (m : Memory) (fs : FileSystem) :
    List Step → Except MemoryFailure (List Reply)
  | [] => .ok []
  | .operate o :: rest => do
    let r := m.operate fs o
    return r.1 :: (← session path r.2.1 r.2.2 rest)
  | .reopen now :: rest => do
    let r ← FileStore.openAt fs path now
    session path (.filed r.1) r.2 rest

end Memory

namespace FileStore

variable {fs fs' : FileSystem} {path : String} {l d : Location} {f : FileStore}

/-- The path and the draft beside it lead to locations for files. -/
structure Placed (fs : FileSystem) (path : String) (l d : Location) : Prop where
  linkFree : fs.LinkFree
  file : fs.Leads path l
  draft : fs.Leads (draftPath path) d

/-- Where the files of a store are depends on the directories only. -/
theorem Placed.congr (h : Placed fs path l d) (hlinks : fs'.LinkFree)
    (hdirs : SameDirectories fs fs') : Placed fs' path l d :=
  ⟨hlinks, h.file.congr h.linkFree hlinks hdirs, h.draft.congr h.linkFree hlinks hdirs⟩

/-- Opening keeps the snapshot in the file, and where the paths lead. -/
theorem Placed.load {s : MemorySnapshot} {now : Timestamp} (h : Placed fs path l d)
    (hload : FileStore.load fs path now = .ok (s, fs')) :
    Placed fs' path l d ∧ Stores fs' path s := by
  obtain ⟨hstores, rfl | hcopy⟩ := load_eq_ok hload
  · exact ⟨h, hstores⟩
  · obtain ⟨b, c, hb, rfl, hread⟩ := copy_eq_ok h.linkFree hcopy
    exact ⟨h.congr (h.linkFree.insert hb.ne_nil) (.insert hb.1), hstores.congr hread⟩

/-- A store and its file hold the same snapshot. -/
structure InStep (f : FileStore) (fs : FileSystem) (l d : Location) : Prop where
  placed : Placed fs f.path l d
  stores : Stores fs f.path f.store.toMemorySnapshot
  /-- The bound of a store is not kept in its file. -/
  bound : f.store.maxKnowledge = defaultMaxKnowledge

/-- A store that was opened is in step with its file, and holds what was stored there. -/
theorem Placed.openAt {now : Timestamp} (h : Placed fs path l d)
    (hopen : FileStore.openAt fs path now = .ok (f, fs')) :
    InStep f fs' l d ∧ f.path = path ∧ ∃ s, Stores fs path s ∧ f.store = .ofSnapshot s := by
  obtain ⟨⟨s, fs''⟩, hload, heq⟩ := map_eq_ok.1 hopen
  cases heq
  obtain ⟨hplaced, hstores⟩ := h.load hload
  exact ⟨⟨hplaced, hstores, rfl⟩, rfl, s, (load_eq_ok hload).1, rfl⟩

/-- Opening the file again gives the same store. -/
theorem InStep.openAt (h : InStep f fs l d) (now : Timestamp) :
    ∃ fs', FileStore.openAt fs f.path now = .ok (f, fs') ∧ InStep f fs' l d := by
  obtain ⟨fs', hload⟩ := h.stores.load now
  have hstore : MemoryStore.ofSnapshot f.store.toMemorySnapshot = f.store := by
    obtain ⟨path, snapshot, bound⟩ := f
    obtain rfl : bound = defaultMaxKnowledge := h.bound
    rfl
  have hopen : FileStore.openAt fs f.path now = .ok (f, fs') := by
    rw [FileStore.openAt, hload, map_ok, hstore]
  exact ⟨fs', hopen, (h.placed.openAt hopen).1⟩

/-- No change touches the bound of a store. -/
theorem maxKnowledge_update (s : MemoryStore) (t : Stamps) (u : MemoryUpdate) :
    (s.update t u).maxKnowledge = s.maxKnowledge := by
  cases u <;> rfl

/-- A change is written as a whole. -/
theorem InStep.update (h : InStep f fs l d) {t : Stamps} (ht : t.IsValid) (u : MemoryUpdate) :
    ∃ fs', f.update fs t u = (.ok (), f.change t u, fs') ∧ InStep (f.change t u) fs' l d := by
  have hpersist := persist_of_leads (s := f.change t u) h.placed.linkFree h.placed.file
    h.placed.draft
  have hplaced := h.placed.congr
    (linkFree_replaced h.placed.linkFree h.placed.draft.ne_nil h.placed.file.ne_nil
      (.text (f.change t u).fileText))
    (sameDirectories_replaced h.placed.draft.1 h.placed.file.1 _)
  refine ⟨_, by rw [FileStore.update, hpersist], hplaced,
    .inr ⟨(f.change t u).fileText, ?_, ?_⟩, ?_⟩
  · refine hplaced.file.readText_of_text ?_
    rw [node?_replaced h.placed.draft.ne_nil h.placed.file.ne_nil, if_pos rfl]
  · have hwritten : (f.change t u).store.toMemorySnapshot.WellFormed :=
      MemoryStore.wellFormed_update h.stores.wellFormed ht u
    rw [snapshotOf, decode_fileText hwritten]
    rfl
  · exact (maxKnowledge_update f.store t u).trans h.bound

end FileStore

/-! ## Sessions with and without openings -/

namespace Memory

variable {fs fs' : FileSystem} {path : String} {l d : Location} {f : FileStore}

theorem session_operate {m m' : Memory} {o : Operation} {reply : Reply} {rest : List Step}
    {replies : List Reply} (ho : m.operate fs o = (reply, m', fs'))
    (h : session path m' fs' rest = .ok replies) :
    session path m fs (.operate o :: rest) = .ok (reply :: replies) := by
  simp [session, ho, h]

/-- A memory in a file answers like one that is lost with the program. -/
theorem answer_filed (f : FileStore) (q : Question) :
    (filed f).answer q = (transient f.store).answer q := by
  cases q <;> rfl

/-- A store in step with its file replies as one that is never dropped. -/
theorem session_of_inStep (h : f.InStep fs l d) {steps : List Step}
    (hsteps : ∀ s ∈ steps, s.IsTimed) :
    ∃ replies, session f.path (filed f) fs steps = .ok replies ∧
      ∀ fs', session f.path (transient f.store) fs' (steps.filter Step.isOperation)
        = .ok replies := by
  induction steps generalizing f fs with
  | nil => exact ⟨[], rfl, fun _ => rfl⟩
  | cons s rest ih =>
    have hrest : ∀ s ∈ rest, s.IsTimed := fun s' hs' => hsteps s' (List.mem_cons_of_mem s hs')
    cases s with
    | operate o =>
      cases o with
      | update t u =>
        obtain ⟨fs', hupdate, h'⟩ := h.update (hsteps _ List.mem_cons_self) u
        obtain ⟨replies, hfiled, htransient⟩ := ih h' hrest
        have hoperate : (filed f).operate fs (.update t u) =
            (.updated (.ok ()), filed (f.change t u), fs') := by
          simp [operate, Memory.update, hupdate]
        exact ⟨.updated (.ok ()) :: replies, session_operate hoperate hfiled,
          fun fs'' => session_operate rfl (htransient fs'')⟩
      | ask q =>
        obtain ⟨replies, hfiled, htransient⟩ := ih h hrest
        exact ⟨.answered ((filed f).answer q) :: replies, session_operate rfl hfiled,
          fun fs'' => session_operate (by rw [operate, answer_filed]) (htransient fs'')⟩
    | reopen now =>
      obtain ⟨fs', hopen, h'⟩ := h.openAt now
      obtain ⟨replies, hfiled, htransient⟩ := ih h' hrest
      refine ⟨replies, ?_, fun fs'' => ?_⟩
      · simp [session, hopen, hfiled]
      · simpa [Step.isOperation] using htransient fs''

/-- Dropping a memory in a file and opening it again changes no reply, and the replies are those
of a memory that begins with the snapshot in the file and is never dropped. -/
theorem durability (hlinks : fs.LinkFree) (hfile : fs.Leads path l)
    (hdraft : fs.Leads (FileStore.draftPath path) d) {now : Timestamp}
    (hopen : FileStore.openAt fs path now = .ok (f, fs')) (steps : List Step)
    (hsteps : ∀ s ∈ steps, s.IsTimed) :
    ∃ s replies, FileStore.Stores fs path s ∧ f.store = .ofSnapshot s ∧
      session path (filed f) fs' steps = .ok replies ∧
      session path (filed f) fs' (steps.filter Step.isOperation) = .ok replies ∧
      session path (transient (.ofSnapshot s)) fs' (steps.filter Step.isOperation)
        = .ok replies := by
  have hplaced : FileStore.Placed fs path l d := ⟨hlinks, hfile, hdraft⟩
  obtain ⟨hinStep, rfl, s, hstores, hstore⟩ := hplaced.openAt hopen
  obtain ⟨replies, hreopened, htransient⟩ := session_of_inStep hinStep hsteps
  obtain ⟨replies', hkept, htransient'⟩ := session_of_inStep hinStep
    (fun s' hs' => hsteps s' (List.mem_of_mem_filter hs') :
      ∀ s' ∈ steps.filter Step.isOperation, s'.IsTimed)
  have hsame : replies' = replies := by
    have hfilter := htransient' fs'
    rw [List.filter_filter] at hfilter
    simp only [Bool.and_self] at hfilter
    exact Except.ok.inj (hfilter.symm.trans (htransient fs'))
  exact ⟨s, replies, hstores, hstore, hreopened, hsame ▸ hkept, hstore ▸ htransient fs'⟩

namespace Diary

/-- The conversation with the diary. -/
def id : RequestId := ⟨"diary", by decide +kernel⟩

/-- Something is said, the memory is dropped and opened again, and what was said is asked. -/
def steps : List Step :=
  [.operate (.update Timestamp.epoch (.append id "Good morning." "Hello!")), .reopen .epoch,
    .operate (.ask (.history id))]

theorem isTimed_of_mem_steps : ∀ s ∈ steps, s.IsTimed := by
  simp only [steps, List.forall_mem_cons, List.not_mem_nil, false_implies, implies_true, and_true]
  exact ⟨Stamps.isValid_once Timestamp.isValid_epoch, trivial, trivial⟩

/-- What was said. -/
def entries : List ConversationEntry :=
  [⟨.user, "Good morning.", .epoch⟩, ⟨.assistant, "Hello!", .epoch⟩]

end Diary

/-- After the memory was dropped and opened again, what was said in the diary is still there. -/
theorem history_of_diary :
    session "/m.json" (filed ⟨"/m.json", {}⟩) .empty Diary.steps =
      .ok [.updated (.ok ()), .answered (.ok (.history Diary.entries))] := by
  have hfile : FileSystem.empty.Leads "/m.json" ["m.json"] :=
    ⟨rfl, fun last => by cases last <;> rfl⟩
  have hdraft : FileSystem.empty.Leads (FileStore.draftPath "/m.json") ["m.tmp"] :=
    ⟨rfl, fun last => by cases last <;> rfl⟩
  have hopen : FileStore.openAt .empty "/m.json" .epoch = .ok (⟨"/m.json", {}⟩, .empty) := rfl
  obtain ⟨s, replies, -, hstore, hreopened, -, htransient⟩ :=
    durability linkFree_empty hfile hdraft hopen Diary.steps Diary.isTimed_of_mem_steps
  rw [← hstore] at htransient
  rw [hreopened, ← htransient]
  rfl

/-! ## Names that are too long -/

end Memory

namespace FileStore

theorem draftPath_name {name : String} (hname : IsName name) (hslash : '/' ∉ name.toList)
    (hdot : '.' ∉ name.toList) : draftPath name = name ++ ".tmp" := by
  rw [draftPath, Path.withExtension_name hname hslash hdot, String.append_assoc]
  rfl

/-- A name of at most 255 bytes whose draft has more: the file can be opened, but no change is
ever written. -/
theorem persist_of_longName {fs : FileSystem} {name : String} (hlinks : fs.LinkFree)
    (hslash : '/' ∉ name.toList) (hdot : '.' ∉ name.toList) (hnul : Char.ofNat 0 ∉ name.toList)
    (hlong : 252 ≤ name.utf8ByteSize) (hlen : name.utf8ByteSize ≤ 255)
    (hfree : fs.isDirectory (fs.workingDirectory ++ [name]) = false) :
    fs.Leads name (fs.workingDirectory ++ [name]) ∧
      (∀ last, fs.resolve (draftPath name) last = .error .nameTooLong) ∧
      ∀ s : FileStore, s.path = name → s.persist fs =
        (.error (.persistence (draftPath name) Fault.nameTooLong.message), fs) := by
  have hname : IsName name := isName_of_size (by omega)
  have hdraftName := draftPath_name hname hslash hdot
  have hsize : (name ++ ".tmp").utf8ByteSize = name.utf8ByteSize + 4 :=
    String.utf8ByteSize_append
  have hcourse : fs.courseOf (draftPath name) = .ok .tooLong := by
    rw [hdraftName, courseOf_name, if_pos]
    · rw [hsize, maxNameLength]
      omega
    · exact isName_of_size (by omega)
    · simp [hslash]
    · simp [hnul]
    · rw [hsize, maxPathLength]
      omega
  have hdraft : ∀ last, fs.resolve (draftPath name) last = .error .nameTooLong := by
    intro last
    rw [resolve_eq hlinks, hcourse]
    rfl
  refine ⟨leads_name hlinks hname hslash hnul hlen hfree, hdraft, ?_⟩
  rintro s rfl
  unfold persist FileSystem.write
  rw [hdraft]
  rfl

theorem openAt_of_free {fs : FileSystem} {path : String} {l : Location} (h : fs.Leads path l)
    (hfree : fs.node? l = none) (now : Timestamp) : openAt fs path now = .ok (⟨path, {}⟩, fs) := by
  have hread : fs.readText path = .error .notFound := by
    rw [readText, h.read_of_free hfree]
    rfl
  rw [openAt, load, hread]
  rfl

end FileStore

namespace Memory

/-- Nothing stands at the name or at the draft beside it, and their directory exists; but the
draft cannot be written, and what was said is lost with the memory. -/
theorem lost_of_long {name : String} (hslash : '/' ∉ name.toList) (hdot : '.' ∉ name.toList)
    (hnul : Char.ofNat 0 ∉ name.toList) (hlong : 252 ≤ name.utf8ByteSize)
    (hlen : name.utf8ByteSize ≤ 255) :
    FileSystem.empty.resolve name true = .ok (.free [name]) ∧
      FileSystem.empty.resolve (FileStore.draftPath name) true = .error .nameTooLong ∧
      FileStore.openAt .empty name .epoch = .ok (⟨name, {}⟩, .empty) ∧
      (∃ failure, session name (filed ⟨name, {}⟩) .empty Diary.steps =
        .ok [.updated (.error failure), .answered (.ok (.history []))]) ∧
      ∃ failure, session name (filed ⟨name, {}⟩) .empty (Diary.steps.filter Step.isOperation) =
        .ok [.updated (.error failure), .answered (.ok (.history Diary.entries))] := by
  have hnode : FileSystem.empty.node? [name] = none := by simp [node?, FileSystem.empty]
  obtain ⟨hpath, hdraft, hpersist⟩ := FileStore.persist_of_longName linkFree_empty hslash hdot hnul
    hlong hlen (show FileSystem.empty.isDirectory [name] = false by simp [isDirectory, hnode])
  have hopen := FileStore.openAt_of_free hpath hnode .epoch
  have hupdate : ∀ u, (filed ⟨name, {}⟩).operate .empty (.update Timestamp.epoch u) =
      (.updated (.error (.persistence (FileStore.draftPath name) Fault.nameTooLong.message)),
        filed ((⟨name, {}⟩ : FileStore).change Timestamp.epoch u), .empty) := by
    intro u
    simp only [operate, Memory.update, FileStore.update]
    rw [hpersist _ rfl]
  refine ⟨?_, hdraft true, hopen, ⟨_, session_operate (hupdate _) ?_⟩,
    _, session_operate (hupdate _) ?_⟩
  · exact (hpath.2 true).trans (congrArg Except.ok (landing_of_none hnode))
  · rw [session, hopen]
    rfl
  · rfl

/-- A name of 252 bytes. -/
def Diary.longName : String :=
  String.ofList (List.replicate 252 'a')

/-- A name of 252 bytes has no room for that of its draft, and what was said is lost when the memory
is dropped. -/
theorem lost_of_longName :
    FileSystem.empty.LinkFree ∧
      FileSystem.empty.resolve Diary.longName true = .ok (.free [Diary.longName]) ∧
      FileSystem.empty.resolve (FileStore.draftPath Diary.longName) true
        = .error .nameTooLong ∧
      FileStore.openAt .empty Diary.longName .epoch = .ok (⟨Diary.longName, {}⟩, .empty) ∧
      (∃ failure, session Diary.longName (filed ⟨Diary.longName, {}⟩) .empty Diary.steps =
        .ok [.updated (.error failure), .answered (.ok (.history []))]) ∧
      ∃ failure, session Diary.longName (filed ⟨Diary.longName, {}⟩) .empty
        (Diary.steps.filter Step.isOperation) =
          .ok [.updated (.error failure), .answered (.ok (.history Diary.entries))] := by
  have hsize : Diary.longName.utf8ByteSize = 252 := utf8ByteSize_replicate 252
  exact ⟨linkFree_empty, lost_of_long (not_mem_replicate (by decide) 252)
    (not_mem_replicate (by decide) 252) (not_mem_replicate (by decide) 252) (by omega) (by omega)⟩

end Memory

end Switchboard
