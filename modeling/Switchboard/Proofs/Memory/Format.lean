import Switchboard.Memory.Store
import Switchboard.Proofs.Json.Readers
import Switchboard.Proofs.Timestamp.Text
import Mathlib.Data.String.Basic

/-!
# The format of memory files

A snapshot with its histories in order and with points in time of the calendar is read back from
its text (`MemorySnapshot.decode_pretty`). Every snapshot that is read from some text is such
a snapshot (`MemorySnapshot.wellFormed_of_decode`), and every change keeps it one
(`MemoryStore.wellFormed_update`).
-/

namespace Switchboard

open Json

/-- A point in time of the calendar is given back. -/
theorem Timestamp.givesBack {t : Timestamp} (h : t.IsValid) :
    GivesBack Timestamp.read 0 t.toJson t := by
  refine (givesBack_string t.toText).readAs ?_
  rw [toText, String.toList_ofList, parse_render h, Outcome.mapError_ok]

/-- A point in time that was read is one of the calendar. -/
theorem Timestamp.isValid_of_read {origin : Origin} {depth : Depth} {d : Draft} {t : Timestamp}
    (h : Timestamp.read origin depth d = .ok t) : t.IsValid := by
  obtain ⟨s, -, hs⟩ := readAs_eq_ok h
  exact isValid_of_parse (Outcome.mapError_eq_ok.1 hs)

theorem RequestId.parse_text (id : RequestId) : RequestId.parse id.text = .ok id := by
  unfold RequestId.parse
  split
  · rfl
  · next f hf => exact absurd (id.valid.symm.trans hf) (by simp)

theorem RequestId.givesBack (id : RequestId) : GivesBack RequestId.read 0 id.toJson id :=
  (givesBack_string id.text).readAs (by rw [check, id.parse_text, Outcome.mapError_ok])

theorem RequestId.ofKey_text (id : RequestId) : RequestId.ofKey id.text = .ok id := by
  simp [RequestId.ofKey, RequestId.check, id.parse_text]

theorem Role.givesBack (r : Role) : GivesBack Role.read 0 (.str r.name) r :=
  givesBack_variant (by cases r <;> rfl)

namespace ConversationEntry

/-- An entry of a history is given back if its point in time is one of the calendar. -/
theorem givesBack {e : ConversationEntry} (h : e.timestamp.IsValid) :
    GivesBack ConversationEntry.read 1 e.toJson e := by
  have hkeys : (([("role", .str e.role.name), ("content", .str e.content),
      ("timestamp", e.timestamp.toJson)] : List (String × Json)).map (·.1)).Nodup :=
    (by decide : ["role", "content", "timestamp"].Nodup)
  exact givesBack_record hkeys
    ((((givesBack_need hkeys (by simp) e.role.givesBack).map ConversationEntry.mk).seq
      (givesBack_need hkeys (by simp) (givesBack_string e.content))).seq
      (givesBack_need hkeys (by simp) (Timestamp.givesBack h)))

/-- An entry that was read has a point in time of the calendar. -/
theorem isValid_of_read {origin : Origin} {depth : Depth} {d : Draft} {e : ConversationEntry}
    (h : ConversationEntry.read origin depth d = .ok e) : e.timestamp.IsValid := by
  obtain ⟨entries, h⟩ := readRecord_eq_ok h
  obtain ⟨g, t, hg, ht, rfl⟩ := build_seq_eq_ok h
  obtain ⟨g', c, hg', -, rfl⟩ := build_seq_eq_ok hg
  obtain ⟨r, -, rfl⟩ := build_map_eq_ok hg'
  obtain ⟨d, ht⟩ := build_need_eq_ok ht
  exact Timestamp.isValid_of_read ht

theorem isExact (e : ConversationEntry) : e.toJson.IsExact := by
  simp [toJson, Timestamp.toJson, IsExact, HasExactMembers]

end ConversationEntry

namespace KnowledgeEntry

/-- A piece of knowledge is given back if its point in time is one of the calendar. -/
theorem givesBack {k : KnowledgeEntry} (h : k.createdAt.IsValid) :
    GivesBack KnowledgeEntry.read 1 k.toJson k := by
  have hkeys : (([("content", .str k.content), ("source", .str k.source),
      ("created_at", k.createdAt.toJson)] : List (String × Json)).map (·.1)).Nodup :=
    (by decide : ["content", "source", "created_at"].Nodup)
  exact givesBack_record hkeys
    ((((givesBack_need hkeys (by simp) (givesBack_string k.content)).map KnowledgeEntry.mk).seq
      (givesBack_need hkeys (by simp) (givesBack_string k.source))).seq
      (givesBack_need hkeys (by simp) (Timestamp.givesBack h)))

/-- A piece of knowledge that was read has a point in time of the calendar. -/
theorem isValid_of_read {origin : Origin} {depth : Depth} {d : Draft} {k : KnowledgeEntry}
    (h : KnowledgeEntry.read origin depth d = .ok k) : k.createdAt.IsValid := by
  obtain ⟨entries, h⟩ := readRecord_eq_ok h
  obtain ⟨g, t, hg, ht, rfl⟩ := build_seq_eq_ok h
  obtain ⟨g', s, hg', -, rfl⟩ := build_seq_eq_ok hg
  obtain ⟨c, -, rfl⟩ := build_map_eq_ok hg'
  obtain ⟨d, ht⟩ := build_need_eq_ok ht
  exact Timestamp.isValid_of_read ht

theorem isExact (k : KnowledgeEntry) : k.toJson.IsExact := by
  simp [toJson, Timestamp.toJson, IsExact, HasExactMembers]

end KnowledgeEntry

/-! ## Histories in order -/

namespace MemorySnapshot

/-- The identifiers rise. -/
def Rising (l : List (RequestId × List ConversationEntry)) : Prop :=
  l.Pairwise fun c d => c.1.text < d.1.text

theorem mem_setHistory {id : RequestId} {h : List ConversationEntry}
    {l : List (RequestId × List ConversationEntry)} {c : RequestId × List ConversationEntry}
    (hc : c ∈ setHistory id h l) : c = (id, h) ∨ c ∈ l := by
  induction l with
  | nil => exact .inl (List.mem_singleton.1 hc)
  | cons d rest ih =>
    obtain ⟨i, h'⟩ := d
    unfold setHistory at hc
    split at hc
    · rcases List.mem_cons.1 hc with hc | hc
      · exact .inl hc
      · exact .inr (List.mem_cons_of_mem _ hc)
    · split at hc
      · exact List.mem_cons.1 hc
      · rcases List.mem_cons.1 hc with rfl | hc
        · exact .inr List.mem_cons_self
        · exact (ih hc).imp_right (List.mem_cons_of_mem _)

/-- Setting a history keeps the identifiers rising. -/
theorem rising_setHistory {l : List (RequestId × List ConversationEntry)} (hl : Rising l)
    (id : RequestId) (h : List ConversationEntry) : Rising (setHistory id h l) := by
  induction l with
  | nil => exact List.pairwise_singleton _ _
  | cons c rest ih =>
    obtain ⟨i, h'⟩ := c
    obtain ⟨hhead, hrest⟩ := List.pairwise_cons.1 hl
    unfold setHistory
    split
    · next hi =>
      subst hi
      exact List.pairwise_cons.2 ⟨hhead, hrest⟩
    · next hi =>
      have hne : id.text ≠ i.text := fun heq => hi (RequestId.text_inj.1 heq).symm
      split
      · next hle =>
        have hlt : id.text < i.text := lt_of_le_of_ne (of_decide_eq_true hle) hne
        refine List.pairwise_cons.2 ⟨fun d hd => ?_, hl⟩
        rcases List.mem_cons.1 hd with rfl | hd
        · exact hlt
        · exact hlt.trans (hhead d hd)
      · next hle =>
        have hlt : i.text < id.text := lt_of_not_ge fun h' => hle (decide_eq_true h')
        refine List.pairwise_cons.2 ⟨fun d hd => ?_, ih hrest⟩
        rcases mem_setHistory hd with rfl | hd
        · exact hlt
        · exact hhead d hd

/-- The history of an identifier after all others is put last. -/
theorem setHistory_of_lt {id : RequestId} {h : List ConversationEntry}
    {l : List (RequestId × List ConversationEntry)} (hl : ∀ c ∈ l, c.1.text < id.text) :
    setHistory id h l = l ++ [(id, h)] := by
  induction l with
  | nil => rfl
  | cons c rest ih =>
    obtain ⟨i, h'⟩ := c
    have hlt : i.text < id.text := hl (i, h') List.mem_cons_self
    have hne : i ≠ id := fun heq => absurd (heq ▸ hlt) (lt_irrefl _)
    have hle : ¬id.le i = true := fun hle => absurd hlt (not_lt_of_ge (of_decide_eq_true hle))
    rw [setHistory, if_neg hne, if_neg hle, ih fun d hd => hl d (List.mem_cons_of_mem _ hd)]
    rfl

/-- Histories in rising order are taken in as they are. -/
theorem ofHistories_of_rising {l : List (RequestId × List ConversationEntry)} (hl : Rising l) :
    ofHistories l = l := by
  have hfold : ∀ (l acc : List (RequestId × List ConversationEntry)), Rising (acc ++ l) →
      l.foldl (fun acc c => setHistory c.1 c.2 acc) acc = acc ++ l := by
    intro l
    induction l with
    | nil => simp
    | cons c rest ih =>
      intro acc hacc
      have hlt : ∀ d ∈ acc, d.1.text < c.1.text := fun d hd =>
        (List.pairwise_append.1 hacc).2.2 d hd c List.mem_cons_self
      rw [List.foldl_cons, setHistory_of_lt hlt, ih _ (by simpa using hacc)]
      simp
  exact hfold l [] hl

/-- Histories are kept in rising order, whatever the order in which they come. -/
theorem rising_ofHistories (l : List (RequestId × List ConversationEntry)) :
    Rising (ofHistories l) := by
  unfold ofHistories
  refine List.foldlRecOn l _ List.Pairwise.nil ?_
  intro acc hacc c _
  exact rising_setHistory hacc c.1 c.2

theorem mem_ofHistories {l : List (RequestId × List ConversationEntry)}
    {c : RequestId × List ConversationEntry} (hc : c ∈ ofHistories l) : c ∈ l := by
  have hfold : ∀ (l acc : List (RequestId × List ConversationEntry)),
      c ∈ l.foldl (fun acc c => setHistory c.1 c.2 acc) acc → c ∈ acc ∨ c ∈ l := by
    intro l
    induction l with
    | nil => exact fun acc hc => .inl hc
    | cons d rest ih =>
      intro acc hc
      rcases ih _ hc with hc | hc
      · rcases mem_setHistory hc with rfl | hc
        · exact .inr List.mem_cons_self
        · exact .inl hc
      · exact .inr (List.mem_cons_of_mem _ hc)
  exact (hfold l [] hc).resolve_left List.not_mem_nil

/-! ## Snapshots -/

/-- The identifiers rise, and every point in time is one of the calendar. -/
structure WellFormed (s : MemorySnapshot) : Prop where
  rising : Rising s.conversations
  entries : ∀ c ∈ s.conversations, ∀ e ∈ c.2, e.timestamp.IsValid
  pieces : ∀ k ∈ s.knowledge, k.createdAt.IsValid

theorem wellFormed_empty : WellFormed {} :=
  ⟨.nil, by simp, by simp⟩

/-- In a history of a well-formed snapshot every point in time is one of the calendar. -/
theorem WellFormed.history {s : MemorySnapshot} (h : s.WellFormed) {id : RequestId}
    {e : ConversationEntry} (he : e ∈ s.history id) : e.timestamp.IsValid := by
  unfold MemorySnapshot.history at he
  cases hfind : s.conversations.lookup id with
  | none => simp [hfind] at he
  | some entries =>
    rw [hfind] at he
    exact h.entries (id, entries) (Keyed.mem_of_lookup_eq_some hfind) e he

/-- A well-formed snapshot is given back. -/
theorem givesBack {s : MemorySnapshot} (h : s.WellFormed) :
    GivesBack MemorySnapshot.read 4 s.toJson s := by
  have hhistories : GivesBack readConversations 3
      (.obj (s.conversations.map fun c => (c.1.text, ofList ConversationEntry.toJson c.2)))
      s.conversations := by
    refine (givesBack_map (fun c _ => c.1.ofKey_text) fun c hc => ?_).readAs ?_
    · exact givesBack_list fun e he => ConversationEntry.givesBack (h.entries c hc e he)
    · rw [ofHistories_of_rising h.rising]
  have hknowledge : GivesBack (readList KnowledgeEntry.read) 2
      (ofList KnowledgeEntry.toJson s.knowledge) s.knowledge :=
    givesBack_list fun k hk => KnowledgeEntry.givesBack (h.pieces k hk)
  have hkeys : (([("conversations", .obj (s.conversations.map fun c =>
      (c.1.text, ofList ConversationEntry.toJson c.2))),
      ("knowledge", ofList KnowledgeEntry.toJson s.knowledge)] :
        List (String × Json)).map (·.1)).Nodup :=
    (by decide : ["conversations", "knowledge"].Nodup)
  exact givesBack_record hkeys
    (((givesBack_orElse hkeys (by simp) hhistories).map MemorySnapshot.mk).seq
      (givesBack_orElse hkeys (by simp) (hknowledge.mono (by decide))))

theorem isExact (s : MemorySnapshot) : s.toJson.IsExact := by
  simp only [toJson, IsExact, HasExactMembers, ofList, hasExactMembers_iff,
    areExact_iff, List.forall_mem_map, and_true]
  exact ⟨fun c _ e _ => e.isExact, fun k _ => k.isExact⟩

/-- A snapshot is read back from its text. -/
theorem decode_pretty {s : MemorySnapshot} (h : s.WellFormed) :
    decode MemorySnapshot.read s.toJson.pretty = .ok s :=
  Json.decode_pretty s.isExact (givesBack h) (by decide)

/-- Whatever text a snapshot is read from, it is read back from its own text. -/
theorem wellFormed_of_decode {text : String} {s : MemorySnapshot}
    (h : decode MemorySnapshot.read text = .ok s) : s.WellFormed := by
  obtain ⟨d, h⟩ := decode_eq_ok h
  obtain ⟨entries, h⟩ := readRecord_eq_ok h
  obtain ⟨g, knowledge, hg, hknowledge, rfl⟩ := build_seq_eq_ok h
  obtain ⟨conversations, hconversations, rfl⟩ := build_map_eq_ok hg
  have hpieces : ∀ k ∈ knowledge, k.createdAt.IsValid := by
    rcases build_orElse_eq_ok hknowledge with rfl | ⟨d, hd⟩
    · simp
    · intro k hk
      obtain ⟨inner, item, hitem⟩ := readList_eq_ok hd k hk
      exact KnowledgeEntry.isValid_of_read hitem
  rcases build_orElse_eq_ok hconversations with rfl | ⟨d, hd⟩
  · exact ⟨.nil, by simp, hpieces⟩
  · obtain ⟨l, hl, hl'⟩ := readAs_eq_ok hd
    cases hl'
    refine ⟨rising_ofHistories l, fun c hc e he => ?_, hpieces⟩
    obtain ⟨inner, items, hitems⟩ := readMap_eq_ok hl c (mem_ofHistories hc)
    obtain ⟨_, item, hitem⟩ := readList_eq_ok hitems e he
    exact ConversationEntry.isValid_of_read hitem

end MemorySnapshot

/-- All points in time are of the calendar. -/
def Stamps.IsValid (t : Stamps) : Prop :=
  t.user.IsValid ∧ t.assistant.IsValid ∧ t.knowledge.IsValid

theorem Stamps.isValid_once {now : Timestamp} (h : now.IsValid) : (once now).IsValid :=
  ⟨h, h, h⟩

namespace MemoryStore

open MemorySnapshot

/-- A store that is taught something at a valid point in time stays well formed. -/
theorem wellFormed_push {s : MemoryStore} (h : s.toMemorySnapshot.WellFormed) {k : KnowledgeEntry}
    (hk : k.createdAt.IsValid) : (s.push k).toMemorySnapshot.WellFormed := by
  refine ⟨h.rising, h.entries, fun k' hk' => ?_⟩
  rcases List.mem_append.1 (List.mem_of_mem_drop hk') with hk' | hk'
  · exact h.pieces k' hk'
  · rw [List.mem_singleton.1 hk']
    exact hk

/-- A store to which entries with valid points in time are added stays well formed. -/
theorem wellFormed_converse {s : MemoryStore} (h : s.toMemorySnapshot.WellFormed) {id : RequestId}
    {entries : List ConversationEntry} (he : ∀ e ∈ entries, e.timestamp.IsValid) :
    (s.converse id entries).toMemorySnapshot.WellFormed := by
  refine ⟨rising_setHistory h.rising _ _, fun c hc e hec => ?_, h.pieces⟩
  rcases mem_setHistory hc with rfl | hc
  · rcases List.mem_append.1 hec with hec | hec
    · exact h.history hec
    · exact he e hec
  · exact h.entries c hc e hec

/-- Every change at points in time of the calendar keeps a snapshot one that is read back. -/
theorem wellFormed_update {s : MemoryStore} (h : s.toMemorySnapshot.WellFormed) {t : Stamps}
    (ht : t.IsValid) (u : MemoryUpdate) : (s.update t u).toMemorySnapshot.WellFormed := by
  obtain ⟨huser, hassistant, hknowledge⟩ := ht
  cases u with
  | append id user assistant =>
    refine wellFormed_push (wellFormed_converse h ?_) hknowledge
    simp [exchange, huser, hassistant]
  | add content source => exact wellFormed_push h hknowledge
  | clear => exact wellFormed_empty

end MemoryStore

end Switchboard
