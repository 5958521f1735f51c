import Switchboard.Json.Reader
import Switchboard.Proofs.Json.Text
import Switchboard.Proofs.Keyed
import Switchboard.Proofs.Outcome

/-!
# Readers that give a value back

A reader gives a value back from some JSON if it reads it wherever containers may nest deep
enough. The lemmas follow the combinators that readers are made of; for a record, every field
has to be given back from its member.
-/

namespace Switchboard.Json

open Outcome

variable {α β κ : Type}

/-- Containers may nest `n` levels deeper. -/
def Room (n : Nat) : Depth → Prop
  | none => True
  | some d => n < d

/-- Room for some levels is room for fewer. -/
theorem Room.mono {m n : Nat} {depth : Depth} (h : Room n depth) (hmn : m ≤ n) : Room m depth := by
  cases depth with
  | none => trivial
  | some d => exact Nat.lt_of_le_of_lt hmn h

/-- Entering a container takes one level. -/
theorem Room.enter {n : Nat} {depth : Depth} (h : Room (n + 1) depth) :
    ∃ inner, Json.enter depth = .ok inner ∧ Room n inner := by
  cases depth with
  | none => exact ⟨none, rfl, trivial⟩
  | some d =>
    have hd : n + 1 < d := h
    refine ⟨some (d - 1), ?_, Nat.lt_sub_of_add_lt hd⟩
    simp [Json.enter, deeper, show 1 < d by omega]

mutual
theorem isWhole_toDraft (j : Json) : j.toDraft.isWhole = true := by
  cases j with
  | arr items => simp [toDraft, Draft.isWhole, areWhole_toDrafts items]
  | obj members => simp [toDraft, Draft.isWhole, membersAreWhole_toMemberDrafts members]
  | _ => simp [toDraft, Draft.isWhole]

theorem areWhole_toDrafts (items : List Json) : Draft.areWhole (toDrafts items) = true := by
  match items with
  | [] => rfl
  | j :: rest => simp [toDrafts, Draft.areWhole, isWhole_toDraft j, areWhole_toDrafts rest]

theorem membersAreWhole_toMemberDrafts (members : List (String × Json)) :
    Draft.membersAreWhole (toMemberDrafts members) = true := by
  match members with
  | [] => rfl
  | (k, j) :: rest =>
    simp [toMemberDrafts, Draft.membersAreWhole, isWhole_toDraft j,
      membersAreWhole_toMemberDrafts rest]
end

/-- The draft of a member of given name. -/
theorem lookup_toMemberDrafts (name : String) (members : List (String × Json)) :
    (toMemberDrafts members).lookup (some name) = (members.lookup name).map toDraft := by
  induction members with
  | nil => rfl
  | cons m rest ih =>
    rw [toMemberDrafts, Keyed.lookup_cons_eq_ite, Keyed.lookup_cons_eq_ite, ih]
    by_cases h : m.1 = name <;> simp [h]

/-! ## Giving values back -/

/-- The reader gives the value back from the JSON, which has at most `n` levels. -/
def GivesBack (r : Reader α) (n : Nat) (j : Json) (a : α) : Prop :=
  ∀ origin depth, Room n depth → r origin depth j.toDraft = .ok a

theorem givesBack_string (s : String) : GivesBack readString 0 (.str s) s :=
  fun _ _ _ => by rw [toDraft, readString]

theorem givesBack_bool (b : Bool) : GivesBack readBool 0 (.bool b) b :=
  fun _ _ _ => by rw [toDraft, readBool]

theorem GivesBack.mono {r : Reader α} {m n : Nat} {j : Json} {a : α} (h : GivesBack r m j a)
    (hmn : m ≤ n) : GivesBack r n j a :=
  fun origin depth hroom => h origin depth (hroom.mono hmn)

/-- What is given back and passes a check is given back as what the check makes of it. -/
theorem GivesBack.readAs {r : Reader α} {n : Nat} {j : Json} {a : α} {b : β}
    {check : α → Except String β} (h : GivesBack r n j a) (hb : check a = .ok b) :
    GivesBack (Json.readAs r check) n j b :=
  fun origin depth hroom => by simp [Json.readAs, h origin depth hroom, hb]

/-- A natural number is given back if it has no more bits than its field. -/
theorem givesBack_nat {bits n : Nat} (h : n < Nat.pow 2 bits) :
    GivesBack (readNat bits) 0 (ofNat n) n := by
  intro _ _ _
  rw [ofNat, toDraft, readNat, if_pos ⟨Int.natCast_nonneg n, Int.ofNat_lt.2 h⟩, Int.toNat_natCast]

/-- A value other than `null` is read as one that is there. -/
theorem readOption_toDraft {r : Reader α} {j : Json} (hj : j ≠ .null) (origin : Origin)
    (depth : Depth) :
    readOption r origin depth j.toDraft = (r origin depth j.toDraft).map some := by
  cases j with
  | null => exact absurd rfl hj
  | _ => rfl

/-- A value that is there is given back, unless `null` is written for it. -/
theorem GivesBack.option {r : Reader α} {n : Nat} {j : Json} {a : α} (h : GivesBack r n j a)
    (hj : j ≠ .null) : GivesBack (readOption r) n j (some a) :=
  fun origin depth hroom => by rw [readOption_toDraft hj, h origin depth hroom, map_ok]

/-- Items are given back one by one. -/
theorem readAll_toDrafts {r : Reader β} {n : Nat} {f : α → Json} {g : α → β} {l : List α}
    (h : ∀ a ∈ l, GivesBack r n (f a) (g a)) {origin : Origin} {depth : Depth}
    (hroom : Room n depth) : readAll r origin depth (toDrafts (l.map f)) = .ok (l.map g) := by
  induction l with
  | nil => rfl
  | cons a l ih =>
    have ha := h a List.mem_cons_self origin depth hroom
    have hl := ih fun b hb => h b (List.mem_cons_of_mem a hb)
    simp [toDrafts, readAll, ha, hl]

/-- A list is given back at one level more than its items. -/
theorem givesBack_mapList {r : Reader β} {n : Nat} {f : α → Json} {g : α → β} {l : List α}
    (h : ∀ a ∈ l, GivesBack r n (f a) (g a)) :
    GivesBack (readList r) (n + 1) (ofList f l) (l.map g) := by
  intro origin depth hroom
  obtain ⟨inner, henter, hinner⟩ := hroom.enter
  simp [readList, ofList, toDraft, henter, readAll_toDrafts h hinner]

theorem givesBack_list {r : Reader α} {n : Nat} {f : α → Json} {l : List α}
    (h : ∀ a ∈ l, GivesBack r n (f a) a) : GivesBack (readList r) (n + 1) (ofList f l) l := by
  simpa using givesBack_mapList (g := id) h

/-- Members are given back one by one with their keys. -/
theorem readPairs_toMemberDrafts {key : String → Except Fault κ} {r : Reader α} {n : Nat}
    {name : κ → String} {f : α → Json} {l : List (κ × α)}
    (hkey : ∀ p ∈ l, key (name p.1) = .ok p.1) (h : ∀ p ∈ l, GivesBack r n (f p.2) p.2)
    {origin : Origin} {depth : Depth} (hroom : Room n depth) :
    readPairs key r origin depth (toMemberDrafts (l.map fun p => (name p.1, f p.2))) = .ok l := by
  induction l with
  | nil => rfl
  | cons p l ih =>
    have hp := hkey p List.mem_cons_self
    have hvalue := h p List.mem_cons_self origin depth hroom
    have hl := ih (fun q hq => hkey q (List.mem_cons_of_mem p hq))
      fun q hq => h q (List.mem_cons_of_mem p hq)
    simp [toMemberDrafts, readPairs, hp, hvalue, hl]

/-- A map is given back at one level more than its values, if its keys are. -/
theorem givesBack_map {key : String → Except Fault κ} {r : Reader α} {n : Nat}
    {name : κ → String} {f : α → Json} {l : List (κ × α)}
    (hkey : ∀ p ∈ l, key (name p.1) = .ok p.1) (h : ∀ p ∈ l, GivesBack r n (f p.2) p.2) :
    GivesBack (readMap key r) (n + 1) (.obj (l.map fun p => (name p.1, f p.2))) l := by
  intro origin depth hroom
  obtain ⟨inner, henter, hinner⟩ := hroom.enter
  simp [readMap, toDraft, henter, readPairs_toMemberDrafts hkey h hinner]

/-- A variant is given back from its name. -/
theorem givesBack_variant {variants : List (String × α)} {name : String} {a : α}
    (h : variantOfName variants name = .ok a) :
    GivesBack (readVariant variants) 0 (.str name) a := by
  intro origin depth _
  simp [readVariant, toDraft, h]

/-! ## Records -/

/-- The fields pass their checks on the members of an object and give the value back. -/
structure Fields.GivesBack (x : Fields α) (n : Nat) (members : List (String × Json)) (a : α) :
    Prop where
  checks : ∀ origin depth, Room n depth → ∀ m ∈ x.members, ∀ j, (m.1, j) ∈ members →
    m.2 origin depth j.toDraft = .ok ()
  builds : ∀ origin depth, Room n depth →
    x.build (entriesOfMembers origin depth (toMemberDrafts members)) = .ok a

variable {members : List (String × Json)} {n : Nat}

theorem Fields.GivesBack.map {x : Fields α} {a : α} (h : x.GivesBack n members a) (f : α → β) :
    (f <$> x).GivesBack n members (f a) where
  checks := h.checks
  builds origin depth hroom := by
    show (x.build _).map f = _
    rw [h.builds origin depth hroom, map_ok]

/-- Fields are given back together if each is. -/
theorem Fields.GivesBack.seq {f : Fields (α → β)} {x : Fields α} {g : α → β} {a : α}
    (hf : f.GivesBack n members g) (hx : x.GivesBack n members a) :
    (f <*> x).GivesBack n members (g a) where
  checks origin depth hroom m hm := by
    rcases List.mem_append.1 hm with hm | hm
    · exact hf.checks origin depth hroom m hm
    · exact hx.checks origin depth hroom m hm
  builds origin depth hroom := by
    show (do
      let h ← f.build _
      let a ← x.build _
      return h a) = _
    simp [hf.builds origin depth hroom, hx.builds origin depth hroom]

/-- A field that has to be there is given back from its member. -/
theorem givesBack_need {name : String} {r : Reader α} {j : Json} {a : α}
    (hkeys : (members.map (·.1)).Nodup) (h : (name, j) ∈ members) (hr : GivesBack r n j a) :
    (need name r).GivesBack n members a where
  checks origin depth hroom m hm j' hj' := by
    rw [List.mem_singleton.1 hm] at hj' ⊢
    have hj : j' = j := by
      have hfind := Keyed.lookup_of_mem hkeys hj'
      rw [Keyed.lookup_of_mem hkeys h] at hfind
      exact (Option.some.inj hfind).symm
    simp [checkOf, hj, hr origin depth hroom]
  builds origin depth hroom := by
    simp only [need, entriesOfMembers, lookup_toMemberDrafts, Keyed.lookup_of_mem hkeys h,
      Option.map_some, ok_bind]
    exact hr origin depth hroom

/-- A field with a value to fall back on is given back from its member. -/
theorem givesBack_orElse {name : String} {r : Reader α} {j : Json} {a fallback : α}
    (hkeys : (members.map (·.1)).Nodup) (h : (name, j) ∈ members) (hr : GivesBack r n j a) :
    (orElse name fallback r).GivesBack n members a where
  checks := (givesBack_need hkeys h hr).checks
  builds origin depth hroom := by
    simp only [orElse, entriesOfMembers, lookup_toMemberDrafts, Keyed.lookup_of_mem hkeys h,
      Option.map_some, ok_bind]
    exact hr origin depth hroom

/-- A field that is not there has the value to fall back on. -/
theorem givesBack_absent {name : String} {r : Reader α} {fallback : α}
    (h : name ∉ members.map (·.1)) : (orElse name fallback r).GivesBack n members fallback where
  checks origin depth hroom m hm j hj := by
    rw [List.mem_singleton.1 hm] at hj
    exact absurd (List.mem_map_of_mem (f := (·.1)) hj) h
  builds origin depth hroom := by
    simp only [orElse, entriesOfMembers, lookup_toMemberDrafts, Keyed.lookup_eq_none h,
      Option.map_none, ok_bind]

/-- Members with distinct keys pass if each known one passes its own check. -/
theorem checkMembers_toMemberDrafts {known : List (String × Reader Unit)} {origin : Origin}
    {depth : Depth} {seen : List String} (hkeys : (members.map (·.1)).Nodup)
    (hseen : ∀ m ∈ members, m.1 ∉ seen)
    (h : ∀ m ∈ known, ∀ j, (m.1, j) ∈ members → m.2 origin depth j.toDraft = .ok ()) :
    checkMembers known origin depth seen (toMemberDrafts members) = .ok () := by
  induction members generalizing seen with
  | nil => rfl
  | cons p rest ih =>
    obtain ⟨k, j⟩ := p
    obtain ⟨hk, hrest⟩ := List.nodup_cons.1 (List.map_cons ▸ hkeys)
    have hknown : ∀ m ∈ known, ∀ j', (m.1, j') ∈ rest → m.2 origin depth j'.toDraft = .ok () :=
      fun m hm j' hj' => h m hm j' (List.mem_cons_of_mem _ hj')
    rw [toMemberDrafts, checkMembers]
    cases hfind : known.find? fun m => m.1 = k with
    | none =>
      simp only [isWhole_toDraft, if_true]
      exact ih hrest (fun m hm => hseen m (List.mem_cons_of_mem _ hm)) hknown
    | some m =>
      have hname : m.1 = k := by simpa using List.find?_some hfind
      have hcheck : m.2 origin depth j.toDraft = .ok () :=
        h m (List.mem_of_find?_eq_some hfind) j (hname ▸ List.mem_cons_self)
      have hnew : seen.contains k = false := by
        simpa using hseen (k, j) List.mem_cons_self
      simp only [hnew, Bool.false_eq_true, if_false, hcheck, ok_bind]
      refine ih hrest (fun m' hm' => ?_) hknown
      rw [List.mem_cons, not_or]
      refine ⟨fun heq => hk ?_, hseen m' (List.mem_cons_of_mem _ hm')⟩
      exact heq ▸ List.mem_map_of_mem (f := (·.1)) hm'

/-- A record is given back from members with distinct keys. -/
theorem Fields.GivesBack.readMembersAs {x : Fields α} {a : α} (h : x.GivesBack n members a)
    (hkeys : (members.map (·.1)).Nodup) {origin : Origin} {depth : Depth} (hroom : Room n depth) :
    Json.readMembersAs x origin depth (toMemberDrafts members) .closed = .ok a := by
  have hchecks : checkMembers x.members origin depth [] (toMemberDrafts members) = .ok () :=
    checkMembers_toMemberDrafts hkeys (by simp) (h.checks origin depth hroom)
  simp only [Json.readMembersAs, hchecks, ok_bind]
  exact h.builds origin depth hroom

/-- A record is given back from an object that gives its fields back. -/
theorem givesBack_record {x : Fields α} {a : α} (hkeys : (members.map (·.1)).Nodup)
    (h : x.GivesBack n members a) : GivesBack (readRecord x) (n + 1) (.obj members) a := by
  intro origin depth hroom
  obtain ⟨inner, henter, hinner⟩ := hroom.enter
  simp only [readRecord, toDraft, henter, ok_bind, h.readMembersAs hkeys hinner]

/-- What is read from a text with nothing after its value is what is read from the value. -/
theorem decode_of_readText {r : Reader α} {text : String} {d : Draft}
    (h : readText text = (d, true)) : decode r text = r .text (some nestingLimit) d := by
  unfold decode
  rw [h]
  cases hd : r .text (some nestingLimit) d <;> simp [hd]

/-- The text of a value is read as the value is. -/
theorem decode_render {layout : Layout} (hl : layout.IsBlank) (r : Reader α) {j : Json}
    (hj : j.IsExact) :
    decode r (String.ofList (render layout 0 j)) = r .text (some nestingLimit) j.toDraft :=
  decode_of_readText (readText_render hl hj 0)

/-- What a reader gives back from a value it gives back from the text of the value. -/
theorem decode_pretty {r : Reader α} {j : Json} {a : α} (hj : j.IsExact)
    (h : GivesBack r n j a) (hn : n < nestingLimit) : decode r j.pretty = .ok a :=
  (decode_render Layout.isBlank_indented r hj).trans (h .text (some nestingLimit) hn)

/-! ## What was read -/

theorem readAs_eq_ok {r : Reader α} {check : α → Except String β} {origin : Origin}
    {depth : Depth} {d : Draft} {b : β} (h : readAs r check origin depth d = .ok b) :
    ∃ a, r origin depth d = .ok a ∧ check a = .ok b := by
  obtain ⟨a, ha, h⟩ := bind_eq_ok.1 h
  cases hb : check a with
  | error reason => simp [hb] at h
  | ok b' =>
    simp only [hb, Except.ok.injEq] at h
    exact ⟨a, ha, h ▸ hb⟩

/-- Of a list that was read, each item was read from a draft. -/
theorem readAll_eq_ok {r : Reader α} {origin : Origin} {depth : Depth} {ds : List Draft}
    {l : List α} (h : readAll r origin depth ds = .ok l) :
    ∀ a ∈ l, ∃ d, r origin depth d = .ok a := by
  induction ds generalizing l with
  | nil =>
    cases h
    simp
  | cons d rest ih =>
    obtain ⟨a, ha, h⟩ := bind_eq_ok.1 h
    obtain ⟨l', hl', h⟩ := bind_eq_ok.1 h
    cases h
    intro b hb
    rcases List.mem_cons.1 hb with rfl | hb
    · exact ⟨d, ha⟩
    · exact ih hl' b hb

/-- Every item of a list was read. -/
theorem readList_eq_ok {r : Reader α} {origin : Origin} {depth : Depth} {d : Draft} {l : List α}
    (h : readList r origin depth d = .ok l) :
    ∀ a ∈ l, ∃ inner item, r origin inner item = .ok a := by
  cases d with
  | arr items closed =>
    obtain ⟨inner, -, h⟩ := bind_eq_ok.1 h
    obtain ⟨l', hl', h⟩ := bind_eq_ok.1 h
    split at h
    · cases h
      exact fun a ha => ⟨inner, readAll_eq_ok hl' a ha⟩
    · cases h
  | _ => cases h

/-- Of a map that was read, each value was read from a draft. -/
theorem readPairs_eq_ok {key : String → Except Fault κ} {r : Reader α} {origin : Origin}
    {depth : Depth} {ms : List (Option String × Draft)} {l : List (κ × α)}
    (h : readPairs key r origin depth ms = .ok l) :
    ∀ p ∈ l, ∃ d, r origin depth d = .ok p.2 := by
  induction ms generalizing l with
  | nil =>
    cases h
    simp
  | cons m rest ih =>
    obtain ⟨k, d⟩ := m
    cases k with
    | none => cases h
    | some k =>
      obtain ⟨key', -, h⟩ := bind_eq_ok.1 h
      obtain ⟨a, ha, h⟩ := bind_eq_ok.1 h
      obtain ⟨l', hl', h⟩ := bind_eq_ok.1 h
      cases h
      intro p hp
      rcases List.mem_cons.1 hp with rfl | hp
      · exact ⟨d, ha⟩
      · exact ih hl' p hp

/-- Every value of a map was read. -/
theorem readMap_eq_ok {key : String → Except Fault κ} {r : Reader α} {origin : Origin}
    {depth : Depth} {d : Draft} {l : List (κ × α)} (h : readMap key r origin depth d = .ok l) :
    ∀ p ∈ l, ∃ inner item, r origin inner item = .ok p.2 := by
  cases d with
  | obj members ending =>
    obtain ⟨inner, -, h⟩ := bind_eq_ok.1 h
    obtain ⟨l', hl', h⟩ := bind_eq_ok.1 h
    split at h
    · cases h
      exact fun p hp => ⟨inner, readPairs_eq_ok hl' p hp⟩
    · cases h
  | _ => cases h

/-- A record was put together from the fields of an object or an array. -/
theorem readRecord_eq_ok {x : Fields α} {origin : Origin} {depth : Depth} {d : Draft} {a : α}
    (h : readRecord x origin depth d = .ok a) : ∃ e, x.build e = .ok a := by
  cases d with
  | obj members ending =>
    obtain ⟨inner, -, h⟩ := bind_eq_ok.1 h
    obtain ⟨-, -, h⟩ := bind_eq_ok.1 h
    split at h
    · exact ⟨_, h⟩
    · cases h
  | arr items closed =>
    obtain ⟨inner, -, h⟩ := bind_eq_ok.1 h
    obtain ⟨a', ha', h⟩ := bind_eq_ok.1 h
    split at h
    · cases h
    · split at h
      · cases h
        exact ⟨_, ha'⟩
      · cases h
  | _ => cases h

theorem build_map_eq_ok {x : Fields α} {f : α → β} {e : Entries} {b : β}
    (h : (f <$> x).build e = .ok b) : ∃ a, x.build e = .ok a ∧ f a = b :=
  map_eq_ok.1 h

theorem build_seq_eq_ok {f : Fields (α → β)} {x : Fields α} {e : Entries} {b : β}
    (h : (f <*> x).build e = .ok b) : ∃ g a, f.build e = .ok g ∧ x.build e = .ok a ∧ g a = b := by
  obtain ⟨g, hg, h⟩ := bind_eq_ok.1 h
  obtain ⟨a, ha, h⟩ := bind_eq_ok.1 h
  exact ⟨g, a, hg, ha, Except.ok.inj h⟩

theorem build_need_eq_ok {name : String} {r : Reader α} {e : Entries} {a : α}
    (h : (need name r).build e = .ok a) : ∃ d, r e.origin e.depth d = .ok a := by
  obtain ⟨d, -, h⟩ := bind_eq_ok.1 h
  cases d with
  | none => cases h
  | some d => exact ⟨d, h⟩

/-- A field that may be absent was read from a draft or has the value to fall back on. -/
theorem build_orElse_eq_ok {name : String} {r : Reader α} {e : Entries} {a fallback : α}
    (h : (orElse name fallback r).build e = .ok a) :
    a = fallback ∨ ∃ d, r e.origin e.depth d = .ok a := by
  obtain ⟨d, -, h⟩ := bind_eq_ok.1 h
  cases d with
  | none => exact .inl (Except.ok.inj h).symm
  | some d => exact .inr ⟨d, h⟩

/-- What was decoded was read from a draft. -/
theorem decode_eq_ok {r : Reader α} {s : String} {a : α} (h : decode r s = .ok a) :
    ∃ d, r .text (some nestingLimit) d = .ok a := by
  unfold decode at h
  generalize readText s = whole at h
  obtain ⟨d, atEnd⟩ := whole
  obtain ⟨a', ha', h⟩ := bind_eq_ok.1 h
  cases atEnd with
  | true => exact ⟨d, ha'.trans h⟩
  | false => cases h

end Switchboard.Json
