import Switchboard.Events.Event
import Switchboard.Proofs.Json.Values

/-!
# Reading events

An event is written as one object that carries its name beside its fields. The members beside the
name are read as values and kept until the name is known, so an event is given back wherever there
is room for the values of its fields (`Event.givesBack_tagged`).
-/

namespace Switchboard

open Json

namespace Event

variable {members : List (String × Json)} {depth : Depth}

/-- The members beside the name are kept if there is room for them. -/
theorem readTagged_toMemberDrafts (tag : Option (Fields Event)) (origin : Origin)
    (hname : "type" ∉ members.map (·.1)) (hroom : Room (membersNesting members) depth) :
    readTagged origin depth tag (toMemberDrafts members) = .ok (tag, toMemberDrafts members) := by
  induction members with
  | nil => rfl
  | cons m rest ih =>
    obtain ⟨k, j⟩ := m
    obtain ⟨hk, hrest⟩ : k ≠ "type" ∧ "type" ∉ rest.map (·.1) := by
      simpa [eq_comm, not_or] using hname
    obtain ⟨hj, hmembers⟩ := room_max.1 hroom
    obtain ⟨j', hj'⟩ : ∃ j', readJson origin depth j.toDraft = .ok j' :=
      (exists_readJson_eq_ok_iff (hj.mono (Nat.zero_le _))).2 hj
    simp [toMemberDrafts, readTagged, hk, hj', ih hrest hmembers]

/-- An event is given back from its name and members that give its fields back. -/
theorem givesBack_tagged {name : String} {fields : Fields Event} {n : Nat} {e : Event}
    (hname : variantOfName variants name = .ok fields) (hkeys : (members.map (·.1)).Nodup)
    (hnew : "type" ∉ members.map (·.1)) (hfields : fields.GivesBack n members e) :
    GivesBack Event.read (obj (("type", .str name) :: members)).nesting
      (.obj (("type", .str name) :: members)) e := by
  intro origin depth hroom
  have hnesting : (obj (("type", .str name) :: members)).nesting = membersNesting members + 1 := by
    simp [nesting, membersNesting]
  rw [hnesting] at hroom
  obtain ⟨inner, henter, hinner⟩ := hroom.enter
  have hothers := readTagged_toMemberDrafts (some fields) origin hnew hinner
  -- What was kept is read without a limit.
  have hevent : readMembersAs fields .buffered none (toMemberDrafts members) .closed = .ok e :=
    hfields.readMembersAs hkeys trivial
  simp [Event.read, toDraft, toMemberDrafts, henter, readTagged, readTag, readString, hname,
    hothers, hevent]

end Event

end Switchboard
