import Switchboard.Proofs.Json.Readers

/-!
# Values inside records

A value whose objects list their members in order is read back as it is wherever its containers may
nest deep enough (`Json.givesBack_json`), and nowhere else (`Json.needsRoom_json`). A reader that
has to read such a value on the way needs the same room, whatever it makes of it (`Json.NeedsRoom`).
-/

namespace Switchboard

namespace Json

open Outcome

variable {α β : Type}

mutual
/-- How deep the containers of a value nest. -/
def nesting : Json → Nat
  | .arr items => itemsNesting items + 1
  | .obj members => membersNesting members + 1
  | _ => 0

/-- The deepest nesting of the items. -/
def itemsNesting : List Json → Nat
  | [] => 0
  | j :: rest => max (nesting j) (itemsNesting rest)

/-- The deepest nesting of the members. -/
def membersNesting : List (String × Json) → Nat
  | [] => 0
  | (_, j) :: rest => max (nesting j) (membersNesting rest)
end

mutual
/-- Every object in the value lists its members by rising keys. -/
def IsOrdered : Json → Prop
  | .arr items => AreOrdered items
  | .obj members => Keyed.Rising members ∧ HasOrderedMembers members
  | _ => True

/-- `IsOrdered` of every item. -/
def AreOrdered : List Json → Prop
  | [] => True
  | j :: rest => IsOrdered j ∧ AreOrdered rest

/-- `IsOrdered` of every member. -/
def HasOrderedMembers : List (String × Json) → Prop
  | [] => True
  | (_, j) :: rest => IsOrdered j ∧ HasOrderedMembers rest
end

theorem nesting_le_itemsNesting {items : List Json} {j : Json} (h : j ∈ items) :
    j.nesting ≤ itemsNesting items := by
  induction h with
  | head rest => exact Nat.le_max_left ..
  | tail j' h ih => exact Nat.le_trans ih (Nat.le_max_right ..)

theorem nesting_le_membersNesting {members : List (String × Json)} {m : String × Json}
    (h : m ∈ members) : m.2.nesting ≤ membersNesting members := by
  induction h with
  | head rest => exact Nat.le_max_left ..
  | tail m' h ih => exact Nat.le_trans ih (Nat.le_max_right ..)

/-! ## Room for values -/

/-- There is room for two numbers of levels if there is for each. -/
theorem room_max {m n : Nat} {depth : Depth} :
    Room (max m n) depth ↔ Room m depth ∧ Room n depth := by
  cases depth with
  | none => simp [Room]
  | some d => simp [Room]

/-- There is room for items exactly if there is for each. -/
theorem room_itemsNesting_iff {items : List Json} {depth : Depth} (h : Room 0 depth) :
    Room (itemsNesting items) depth ↔ ∀ j ∈ items, Room j.nesting depth := by
  induction items with
  | nil => simpa [itemsNesting] using h
  | cons j rest ih => rw [itemsNesting, room_max, ih, List.forall_mem_cons]

/-- There is room for members exactly if there is for each. -/
theorem room_membersNesting_iff {members : List (String × Json)} {depth : Depth}
    (h : Room 0 depth) :
    Room (membersNesting members) depth ↔ ∀ m ∈ members, Room m.2.nesting depth := by
  induction members with
  | nil => simpa [membersNesting] using h
  | cons m rest ih => rw [membersNesting, room_max, ih, List.forall_mem_cons]

/-- There is room inside a container, or for no container at all. -/
theorem deeper_cases {depth : Depth} (h : Room 0 depth) :
    (deeper depth = none ∧ ∀ n, ¬ Room (n + 1) depth) ∨
      ∃ inner, deeper depth = some inner ∧ Room 0 inner ∧
        ∀ n, Room (n + 1) depth ↔ Room n inner := by
  cases depth with
  | none => exact .inr ⟨none, rfl, trivial, fun _ => Iff.rfl⟩
  | some d =>
    by_cases hd : 1 < d
    · refine .inr ⟨some (d - 1), by simp [deeper, hd], ?_, fun n => ?_⟩
      · show 0 < d - 1
        omega
      · show n + 1 < d ↔ n < d - 1
        omega
    · refine .inl ⟨by simp [deeper, hd], fun n hn => ?_⟩
      have hn : n + 1 < d := hn
      omega

mutual
/-- A value can be read where there is room for it. -/
theorem isSome_value?_toDraft (j : Json) {depth : Depth} (h : Room 0 depth) :
    (j.toDraft.value? depth).isSome ↔ Room j.nesting depth := by
  match j with
  | .arr items =>
    rw [toDraft, Draft.value?, nesting]
    rcases deeper_cases h with ⟨hdeeper, hroom⟩ | ⟨inner, hdeeper, hinner, hroom⟩
    · simp [hdeeper, hroom]
    · rw [hroom, ← isSome_values?_toDrafts items hinner]
      cases hvalues : Draft.values? inner (toDrafts items) <;> simp [hdeeper, hvalues]
  | .obj members =>
    rw [toDraft, Draft.value?, nesting]
    rcases deeper_cases h with ⟨hdeeper, hroom⟩ | ⟨inner, hdeeper, hinner, hroom⟩
    · simp [hdeeper, hroom]
    · rw [hroom, ← isSome_memberValues?_toMemberDrafts members hinner]
      cases hvalues : Draft.memberValues? inner (toMemberDrafts members) <;>
        simp [hdeeper, hvalues]
  | .null => simpa [toDraft, Draft.value?, nesting] using h
  | .bool b => simpa [toDraft, Draft.value?, nesting] using h
  | .num n => simpa [toDraft, Draft.value?, nesting] using h
  | .str s => simpa [toDraft, Draft.value?, nesting] using h

theorem isSome_values?_toDrafts (items : List Json) {depth : Depth} (h : Room 0 depth) :
    (Draft.values? depth (toDrafts items)).isSome ↔ Room (itemsNesting items) depth := by
  match items with
  | [] => simpa [toDrafts, Draft.values?, itemsNesting] using h
  | j :: rest =>
    rw [itemsNesting, room_max, ← isSome_value?_toDraft j h, ← isSome_values?_toDrafts rest h,
      toDrafts, Draft.values?]
    cases j.toDraft.value? depth <;> cases Draft.values? depth (toDrafts rest) <;> simp

theorem isSome_memberValues?_toMemberDrafts (members : List (String × Json)) {depth : Depth}
    (h : Room 0 depth) :
    (Draft.memberValues? depth (toMemberDrafts members)).isSome ↔
      Room (membersNesting members) depth := by
  match members with
  | [] => simpa [toMemberDrafts, Draft.memberValues?, membersNesting] using h
  | (k, j) :: rest =>
    rw [membersNesting, room_max, ← isSome_value?_toDraft j h,
      ← isSome_memberValues?_toMemberDrafts rest h, toMemberDrafts, Draft.memberValues?]
    cases j.toDraft.value? depth <;>
      cases Draft.memberValues? depth (toMemberDrafts rest) <;> simp
end

mutual
/-- Only the value itself can be read. -/
theorem eq_of_value?_toDraft {j j' : Json} {depth : Depth} (hj : j.IsOrdered)
    (h : j.toDraft.value? depth = some j') : j' = j := by
  match j with
  | .arr items =>
    simp only [toDraft, Draft.value?, Option.bind_eq_bind, Option.bind_eq_some_iff] at h
    obtain ⟨inner, -, l, hl, h⟩ := h
    rw [if_pos trivial, Option.some.injEq] at h
    rw [← h, eq_of_values?_toDrafts hj hl]
  | .obj members =>
    obtain ⟨hrising, hmembers⟩ : Keyed.Rising members ∧ HasOrderedMembers members := hj
    simp only [toDraft, Draft.value?, Option.bind_eq_bind, Option.bind_eq_some_iff] at h
    obtain ⟨inner, -, l, hl, h⟩ := h
    rw [Option.some.injEq] at h
    obtain rfl := eq_of_memberValues?_toMemberDrafts hmembers hl
    rw [← h, ofMembers]
    exact congrArg obj (Keyed.insertAll_of_rising (l := l) hrising)
  | .null => simpa [toDraft, Draft.value?, eq_comm] using h
  | .bool b => simpa [toDraft, Draft.value?, eq_comm] using h
  | .num n => simpa [toDraft, Draft.value?, eq_comm] using h
  | .str s => simpa [toDraft, Draft.value?, eq_comm] using h

theorem eq_of_values?_toDrafts {items l : List Json} {depth : Depth} (h : AreOrdered items)
    (hl : Draft.values? depth (toDrafts items) = some l) : l = items := by
  match items with
  | [] => simpa [toDrafts, Draft.values?, eq_comm] using hl
  | j :: rest =>
    obtain ⟨hj, hrest⟩ : IsOrdered j ∧ AreOrdered rest := h
    simp only [toDrafts, Draft.values?, Option.bind_eq_bind, Option.bind_eq_some_iff] at hl
    obtain ⟨j', hj', l', hl', hl⟩ := hl
    rw [eq_of_value?_toDraft hj hj', eq_of_values?_toDrafts hrest hl'] at hl
    exact (Option.some.inj hl).symm

theorem eq_of_memberValues?_toMemberDrafts {members l : List (String × Json)} {depth : Depth}
    (h : HasOrderedMembers members)
    (hl : Draft.memberValues? depth (toMemberDrafts members) = some l) : l = members := by
  match members with
  | [] => simpa [toMemberDrafts, Draft.memberValues?, eq_comm] using hl
  | (k, j) :: rest =>
    obtain ⟨hj, hrest⟩ : IsOrdered j ∧ HasOrderedMembers rest := h
    simp only [toMemberDrafts, Draft.memberValues?, Option.bind_eq_bind,
      Option.bind_eq_some_iff] at hl
    obtain ⟨k', hk', j', hj', l', hl', hl⟩ := hl
    rw [eq_of_value?_toDraft hj hj', eq_of_memberValues?_toMemberDrafts hrest hl',
      ← Option.some.inj hk'] at hl
    exact (Option.some.inj hl).symm
end

/-- A value is read back where there is room for it. -/
theorem givesBack_json {j : Json} (hj : j.IsOrdered) : GivesBack readJson j.nesting j j := by
  intro origin depth hroom
  have hsome := (isSome_value?_toDraft j (hroom.mono (Nat.zero_le _))).2 hroom
  obtain ⟨j', hj'⟩ := Option.isSome_iff_exists.1 hsome
  rw [readJson, hj', eq_of_value?_toDraft hj hj']

/-- Whatever the reader makes of the value, it needs room for the whole of it. -/
def NeedsRoom (r : Reader α) (j : Json) : Prop :=
  ∀ origin depth a, Room 0 depth → r origin depth j.toDraft = .ok a → Room j.nesting depth

/-- A value without levels needs no room. -/
theorem needsRoom_of_nesting_eq_zero {r : Reader α} {j : Json} (h : j.nesting = 0) :
    NeedsRoom r j :=
  fun _ _ _ hroom _ => h ▸ hroom

/-- A value of any kind is read exactly if there is room for its levels. -/
theorem exists_readJson_eq_ok_iff {j : Json} {origin : Origin} {depth : Depth} (h : Room 0 depth) :
    (∃ j', readJson origin depth j.toDraft = .ok j') ↔ Room j.nesting depth := by
  rw [← isSome_value?_toDraft j h, readJson]
  cases j.toDraft.value? depth <;> simp

theorem needsRoom_json (j : Json) : NeedsRoom readJson j :=
  fun _ _ j' hroom h => (exists_readJson_eq_ok_iff hroom).1 ⟨j', h⟩

/-- An optional value needs the room of the value that is there. -/
theorem NeedsRoom.option {r : Reader α} {j : Json} (h : NeedsRoom r j) :
    NeedsRoom (readOption r) j := by
  intro origin depth a hroom hread
  by_cases hj : j = .null
  · exact hj ▸ hroom
  · rw [readOption_toDraft hj] at hread
    obtain ⟨b, hb, -⟩ := map_eq_ok.1 hread
    exact h origin depth b hroom hb

theorem NeedsRoom.checkOf {r : Reader α} {j : Json} (h : NeedsRoom r j) :
    NeedsRoom (checkOf r) j := by
  intro origin depth a hroom hread
  obtain ⟨b, hb, -⟩ := map_eq_ok.1 hread
  exact h origin depth b hroom hb

/-- In a container there is room for one level less. -/
theorem room_of_enter {depth inner : Depth} (h : Room 0 depth) (henter : enter depth = .ok inner) :
    Room 0 inner ∧ ∀ n, Room (n + 1) depth ↔ Room n inner := by
  rcases deeper_cases h with ⟨hdeeper, -⟩ | ⟨inner', hdeeper, hroom⟩
  · simp [enter, hdeeper] at henter
  · obtain rfl : inner' = inner := by simpa [enter, hdeeper] using henter
    exact hroom

theorem readAll_toDrafts_eq_ok {r : Reader α} {items : List Json} {origin : Origin} {depth : Depth}
    {l : List α} (h : readAll r origin depth (toDrafts items) = .ok l) :
    ∀ j ∈ items, ∃ a, r origin depth j.toDraft = .ok a := by
  induction items generalizing l with
  | nil => simp
  | cons j rest ih =>
    obtain ⟨a, ha, h⟩ := bind_eq_ok.1 h
    obtain ⟨l', hl', -⟩ := bind_eq_ok.1 h
    exact List.forall_mem_cons.2 ⟨⟨a, ha⟩, ih hl'⟩

/-- A list needs the room of each of its items. -/
theorem NeedsRoom.list {r : Reader α} {items : List Json} (h : ∀ j ∈ items, NeedsRoom r j) :
    NeedsRoom (readList r) (.arr items) := by
  intro origin depth l hroom hread
  obtain ⟨inner, henter, hread⟩ := bind_eq_ok.1 hread
  obtain ⟨l', hl', -⟩ := bind_eq_ok.1 hread
  obtain ⟨hinner, hiff⟩ := room_of_enter hroom henter
  refine (hiff _).2 ((room_itemsNesting_iff hinner).2 fun j hj => ?_)
  obtain ⟨a, ha⟩ := readAll_toDrafts_eq_ok hl' j hj
  exact h j hj origin inner a hinner ha

/-- If members pass, each known one passes its own check. -/
theorem check_of_checkMembers {known : List (String × Reader Unit)} {origin : Origin}
    {depth : Depth} {members : List (String × Json)} {seen : List String} {name : String}
    {check : Reader Unit} {j : Json}
    (h : checkMembers known origin depth seen (toMemberDrafts members) = .ok ())
    (hknown : known.find? (fun m => m.1 = name) = some (name, check)) (hj : (name, j) ∈ members) :
    check origin depth j.toDraft = .ok () := by
  induction members generalizing seen with
  | nil => cases hj
  | cons m rest ih =>
    obtain ⟨k, j'⟩ := m
    rw [toMemberDrafts, checkMembers] at h
    rcases List.mem_cons.1 hj with heq | hj
    · cases heq
      simp only [hknown] at h
      split at h
      · cases h
      · obtain ⟨⟨⟩, hcheck, -⟩ := bind_eq_ok.1 h
        exact hcheck
    · split at h
      · split at h
        · cases h
        · obtain ⟨-, -, h⟩ := bind_eq_ok.1 h
          exact ih h hj
      · split at h
        · exact ih h hj
        · cases h

/-- Members that a record does not know are passed over without being read. -/
theorem NeedsRoom.record {x : Fields α} {members : List (String × Json)}
    (h : ∀ m ∈ members, ∃ check, x.members.find? (fun k => k.1 = m.1) = some (m.1, check) ∧
      NeedsRoom check m.2) : NeedsRoom (readRecord x) (.obj members) := by
  intro origin depth a hroom hread
  obtain ⟨inner, henter, hread⟩ := bind_eq_ok.1 hread
  obtain ⟨⟨⟩, hchecks, -⟩ := bind_eq_ok.1 hread
  obtain ⟨hinner, hiff⟩ := room_of_enter hroom henter
  refine (hiff _).2 ((room_membersNesting_iff hinner).2 fun m hm => ?_)
  obtain ⟨check, hknown, hneeds⟩ := h m hm
  exact hneeds origin inner () hinner (check_of_checkMembers hchecks hknown hm)

/-! ## Fields of records -/

@[simp] theorem mem_optionalMember {name : String} {f : α → Json} {o : Option α}
    {m : String × Json} : m ∈ optionalMember name f o ↔ ∃ a, o = some a ∧ m = (name, f a) := by
  cases o <;> simp [optionalMember]

section

variable {members : List (String × Json)} (hkeys : (members.map (·.1)).Nodup)
include hkeys

/-- A field without levels is given back from its member. -/
theorem givesBack_scalar {name : String} {r : Reader α} {j : Json} {a : α}
    (h : (name, j) ∈ members) (hr : GivesBack r 0 j a) :
    (need name r).GivesBack (membersNesting members) members a :=
  givesBack_need hkeys h (hr.mono (Nat.zero_le _))

/-- A field is given back from its member at the levels that has. -/
theorem givesBack_member {name : String} {r : Reader α} {j : Json} {a : α}
    (h : (name, j) ∈ members) (hr : GivesBack r j.nesting j a) :
    (need name r).GivesBack (membersNesting members) members a :=
  givesBack_need hkeys h (hr.mono (nesting_le_membersNesting h))

/-- A field that was left out if there was no value is given back from what was written. -/
theorem givesBack_optionalMember {name : String} {r : Reader β} {f : α → Json} {o : Option α}
    {b : Option β} (hwritten : ∀ j, (name, j) ∈ members ↔ (name, j) ∈ optionalMember name f o)
    (hr : ∀ a, o = some a → GivesBack (readOption r) (f a).nesting (f a) b)
    (hnone : o = none → b = none) :
    (mayHave name r).GivesBack (membersNesting members) members b := by
  cases o with
  | none =>
    rw [hnone rfl]
    refine givesBack_absent fun hname => ?_
    obtain ⟨⟨name, j⟩, hm, rfl⟩ := List.mem_map.1 hname
    exact absurd ((hwritten j).1 hm) List.not_mem_nil
  | some a =>
    have hmem : (name, f a) ∈ members := (hwritten (f a)).2 (by simp)
    exact givesBack_orElse hkeys hmem ((hr a rfl).mono (nesting_le_membersNesting hmem))

/-- An optional field is given back from its member, and from no member if it is absent. -/
theorem givesBack_optional {name : String} {r : Reader α} {f : α → Json} {o : Option α}
    (hwritten : ∀ j, (name, j) ∈ members ↔ (name, j) ∈ optionalMember name f o)
    (hr : ∀ a, o = some a → GivesBack r (f a).nesting (f a) a ∧ f a ≠ .null) :
    (mayHave name r).GivesBack (membersNesting members) members o :=
  givesBack_optionalMember hkeys hwritten (fun a ha => ha ▸ (hr a ha).1.option (hr a ha).2) id

theorem givesBack_optionalString {name : String} {o : Option String}
    (hwritten : ∀ j, (name, j) ∈ members ↔ (name, j) ∈ optionalMember name .str o) :
    (mayHave name readString).GivesBack (membersNesting members) members o :=
  givesBack_optional hkeys hwritten fun s _ => ⟨givesBack_string s, by simp⟩

end

/-- Whether the value is null. -/
def isNull : Json → Bool
  | .null => true
  | _ => false

theorem isNull_iff {j : Json} : j.isNull = true ↔ j = .null := by
  cases j <;> simp [isNull]

/-- A value that may be absent is given back unless it is null. -/
theorem givesBack_optional_json {o : Option Json} {j : Json} (ho : o = some j)
    (hj : j.IsOrdered) :
    GivesBack (readOption readJson) j.nesting j (o.filter fun j => !j.isNull) := by
  subst ho
  by_cases hnull : j = .null
  · subst hnull
    exact fun _ _ _ => rfl
  · have hkept : (some j).filter (fun j => !j.isNull) = some j := by
      simp [← Bool.not_eq_true, isNull_iff, hnull]
    rw [hkept]
    exact (givesBack_json hj).option hnull

/-- What is read from the text of a value that a reader gives back in no more room than it needs. -/
theorem decode_compact_eq_ok_iff {r : Reader α} {j : Json} {a b : α} (hj : j.IsExact)
    (hgives : GivesBack r j.nesting j a) (hneeds : NeedsRoom r j) :
    decode r j.compact = .ok b ↔ j.nesting < nestingLimit ∧ b = a := by
  rw [compact, decode_render Layout.isBlank_compact r hj]
  constructor
  · intro h
    have hroom : Room j.nesting (some nestingLimit) :=
      hneeds .text _ b (by decide : 0 < nestingLimit) h
    exact ⟨hroom, Except.ok.inj (h.symm.trans (hgives .text _ hroom))⟩
  · rintro ⟨hroom, rfl⟩
    exact hgives .text _ hroom

/-- The texts that a value is written as: on one line or on many. -/
def texts (j : Json) : List String :=
  [j.compact, j.pretty]

/-- Both texts of an exact value are read as its draft. -/
theorem readText_of_mem_texts {j : Json} {text : String} (htext : text ∈ j.texts)
    (hj : j.IsExact) : readText text = (j.toDraft, true) := by
  rcases List.mem_cons.1 htext with rfl | htext
  · exact readText_render Layout.isBlank_compact hj 0
  · rw [List.mem_singleton.1 htext]
    exact readText_render Layout.isBlank_indented hj 0

/-- What a reader gives back from a value it gives back from both of its texts. -/
theorem decode_of_mem_texts {r : Reader α} {j : Json} {a : α} {text : String}
    (htext : text ∈ j.texts) (hj : j.IsExact) (h : GivesBack r j.nesting j a)
    (hn : j.nesting < nestingLimit) : decode r text = .ok a :=
  (decode_of_readText (readText_of_mem_texts htext hj)).trans (h .text (some nestingLimit) hn)

end Json

end Switchboard
