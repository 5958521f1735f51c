import Switchboard.Proofs.Events.Tagged
import Switchboard.Proofs.Memory.Format
import Switchboard.Proofs.Tool.Records

/-!
# Tool records in transport

A record of a tool is written by itself, inside the response to a request, and inside the event
that publishes the response. From each of the three texts it is read back as it was, unless its
result is the null value: a record without a result is written without the member, and a member
that is null is read as one that is not there (`ToolRecord.asRead`). A reader gives up on texts
that nest too deep, which depends on the value and on what it stands in (`Response.survival`).
-/

namespace Switchboard

open Json

namespace ToolRecord

/-- The record of a run that took a time of 64 bits and failed, or gave a value that is free of
floating point numbers. -/
inductive IsWritable : ToolRecord → Prop where
  | success {tool : String} {j : Json} {millis : Nat} (exact : j.IsExact) (ordered : j.IsOrdered)
    (inRange : millis < Nat.pow 2 wordBits) : IsWritable (.success tool j millis)
  | failure {tool error : String} {millis : Nat} (inRange : millis < Nat.pow 2 wordBits) :
    IsWritable (.failure tool error millis)

theorem IsWritable.durationMillis_lt {t : ToolRecord} (h : t.IsWritable) :
    t.durationMillis < Nat.pow 2 wordBits := by
  cases h <;> assumption

theorem IsWritable.of_result {t : ToolRecord} {j : Json} (h : t.IsWritable)
    (hj : t.result = some j) : j.IsExact ∧ j.IsOrdered := by
  cases h with
  | success exact ordered _ => exact Option.some.inj hj ▸ ⟨exact, ordered⟩
  | failure _ => cases hj

/-- The record of an outcome can be written if its result can. -/
theorem isWritable_ofOutcome {tool : String} {outcome : Except ToolFailure Json} {millis : Nat}
    (h : ∀ j, outcome = .ok j → j.IsExact ∧ j.IsOrdered) (hmillis : millis < Nat.pow 2 wordBits) :
    IsWritable (.ofOutcome tool outcome millis) := by
  cases outcome with
  | ok j => exact .success (h j rfl).1 (h j rfl).2 hmillis
  | error f => exact .failure hmillis

/-- The record without its result if that is null. -/
def asRead (t : ToolRecord) : ToolRecord :=
  { t with result := t.result.filter fun j => !j.isNull }

/-- A record is read back as it is exactly if its result is not null. -/
theorem asRead_eq_self_iff {t : ToolRecord} : t.asRead = t ↔ t.result ≠ some .null := by
  obtain ⟨tool, result, error, millis⟩ := t
  cases result with
  | none => simp [asRead]
  | some j => simp [asRead, isNull_iff, ← Bool.not_eq_true]

/-- Of a record with the null result neither result nor error is read back, and the summary changes.
-/
theorem asRead_of_null {t : ToolRecord} (ht : t.IsWritable) (h : t.result = some .null) :
    t.asRead.result = none ∧ t.asRead.error = none ∧ t.asRead.summary ≠ t.summary := by
  cases ht with
  | failure _ => cases h
  | @success tool j millis _ _ _ =>
    obtain rfl := Option.some.inj h
    refine ⟨rfl, rfl, fun heq => ?_⟩
    have htexts : "- " ++ tool ++ ": no output" = "- " ++ tool ++ ": " ++ Json.null.compact := heq
    simpa [compact, render] using congrArg String.toList htexts

/-- The members that a record is written as. -/
def members (t : ToolRecord) : List (String × Json) :=
  [("tool_name", .str t.toolName)] ++ optionalMember "result" id t.result ++
    optionalMember "error" .str t.error ++ [("duration_millis", Json.ofNat t.durationMillis)]

theorem nodup_members (t : ToolRecord) : (t.members.map (·.1)).Nodup := by
  obtain ⟨tool, _ | j, _ | e, millis⟩ := t <;> simp [members, optionalMember]

/-- A record is given back as it is read. -/
theorem givesBack {t : ToolRecord} (h : t.IsWritable) :
    GivesBack ToolRecord.read t.toJson.nesting t.toJson t.asRead := by
  have hkeys := t.nodup_members
  have hresult : (mayHave "result" readJson).GivesBack (membersNesting t.members) t.members
      t.asRead.result := by
    refine givesBack_optionalMember (f := id) (o := t.result) hkeys (by simp [members])
      (fun j hj => givesBack_optional_json hj (h.of_result hj).2) fun hnone => ?_
    rw [asRead, hnone, Option.filter_none]
  have herror : (mayHave "error" readString).GivesBack (membersNesting t.members) t.members
      t.error := givesBack_optionalString hkeys (by simp [members])
  exact givesBack_record hkeys
    (((((givesBack_scalar hkeys (by simp [members]) (givesBack_string t.toolName)).map
      ToolRecord.mk).seq hresult).seq herror).seq
    (givesBack_scalar hkeys (by simp [members]) (givesBack_nat h.durationMillis_lt)))

theorem needsRoom (t : ToolRecord) : NeedsRoom ToolRecord.read t.toJson := by
  refine NeedsRoom.record fun m hm => ?_
  simp only [List.mem_append, List.mem_singleton, mem_optionalMember] at hm
  obtain ((rfl | ⟨j, -, rfl⟩) | ⟨e, -, rfl⟩) | rfl := hm
  · exact ⟨_, rfl, needsRoom_of_nesting_eq_zero rfl⟩
  · exact ⟨_, rfl, (needsRoom_json j).option.checkOf⟩
  · exact ⟨_, rfl, needsRoom_of_nesting_eq_zero rfl⟩
  · exact ⟨_, rfl, needsRoom_of_nesting_eq_zero rfl⟩

/-- The result may stand inside that many containers. -/
def Fits (t : ToolRecord) (containers : Nat) : Prop :=
  ∀ j, t.result = some j → j.nesting + containers < nestingLimit

theorem nesting_toJson (t : ToolRecord) : t.toJson.nesting = t.result.elim 0 nesting + 1 := by
  obtain ⟨tool, _ | j, _ | e, millis⟩ := t <;>
    simp [toJson, optionalMember, ofNat, nesting, membersNesting]

/-- A record fits the text exactly if its result does, one level further in. -/
theorem nesting_toJson_add_lt_iff {t : ToolRecord} {n : Nat} (hn : n + 1 < nestingLimit) :
    t.toJson.nesting + n < nestingLimit ↔ t.Fits (n + 1) := by
  have hadd : ∀ m, m + 1 + n = m + (n + 1) := fun m => by omega
  rw [nesting_toJson, Fits, hadd]
  cases t.result with
  | none => simpa using hn
  | some j => simp

theorem isExact {t : ToolRecord} (h : t.IsWritable) : t.toJson.IsExact := by
  refine hasExactMembers_iff.2 fun m hm => ?_
  simp only [List.mem_append, List.mem_singleton, mem_optionalMember] at hm
  obtain ((rfl | ⟨j, hj, rfl⟩) | ⟨e, -, rfl⟩) | rfl := hm
  · trivial
  · exact (h.of_result hj).1
  · trivial
  · exact isExact_ofNat h.durationMillis_lt

end ToolRecord

/-- The records of tools that are run in a row can be written if the limit is a time of 64 bits and
the tools answer with values that can be. -/
theorem ToolRegistry.isWritable_of_mem_dispatchAll {r : ToolRegistry} {fs : FileSystem}
    {ctx : ToolContext} {kind : RequestKind} {args : Json}
    (hctx : ctx.timeoutMillis < Nat.pow 2 wordBits)
    (hrun : ∀ t ∈ r.eligible kind, ∀ j, t.run fs ctx args = .value j → j.IsExact ∧ j.IsOrdered) :
    ∀ t ∈ r.dispatchAll fs ctx kind args, t.IsWritable := by
  rw [dispatchAll_eq, List.forall_mem_map]
  intro t ht
  rw [Tool.record, Tool.invoke_eq]
  refine ToolRecord.isWritable_ofOutcome (fun j hj => hrun t ht j ?_)
    (Nat.lt_of_le_of_lt (Nat.min_le_right _ _) hctx)
  dsimp only at hj
  split at hj
  · cases hreaction : t.run fs ctx args <;> simp_all [ToolReaction.outcome]
  · cases hj

/-! ## Responses -/

namespace ResponseMetadata

/-- The counts are numbers of 64 bits. -/
structure IsWritable (m : ResponseMetadata) : Prop where
  tokenCount : m.tokenCount < Nat.pow 2 wordBits
  durationMillis : m.durationMillis < Nat.pow 2 wordBits

/-- The members that metadata are written as. -/
def members (m : ResponseMetadata) : List (String × Json) :=
  optionalMember "model_name" .str m.modelName ++
    optionalMember "provider_name" .str m.providerName ++
    [("token_count", Json.ofNat m.tokenCount), ("duration_millis", Json.ofNat m.durationMillis)]

theorem nodup_members (m : ResponseMetadata) : (m.members.map (·.1)).Nodup := by
  obtain ⟨_ | model, _ | provider, tokens, millis⟩ := m <;> simp [members, optionalMember]

/-- Metadata are given back. -/
theorem givesBack {m : ResponseMetadata} (h : m.IsWritable) :
    GivesBack ResponseMetadata.read m.toJson.nesting m.toJson m := by
  have hkeys := m.nodup_members
  have hmodel : (mayHave "model_name" readString).GivesBack (membersNesting m.members) m.members
      m.modelName := givesBack_optionalString hkeys (by simp [members])
  have hprovider : (mayHave "provider_name" readString).GivesBack (membersNesting m.members)
      m.members m.providerName := givesBack_optionalString hkeys (by simp [members])
  exact givesBack_record hkeys ((((hmodel.map ResponseMetadata.mk).seq hprovider).seq
    (givesBack_scalar hkeys (by simp [members]) (givesBack_nat h.tokenCount))).seq
    (givesBack_scalar hkeys (by simp [members]) (givesBack_nat h.durationMillis)))

theorem nesting_toJson (m : ResponseMetadata) : m.toJson.nesting = 1 := by
  obtain ⟨_ | model, _ | provider, tokens, millis⟩ := m <;>
    simp [toJson, optionalMember, ofNat, nesting, membersNesting]

theorem needsRoom (m : ResponseMetadata) : NeedsRoom ResponseMetadata.read m.toJson := by
  refine NeedsRoom.record fun n hn => ?_
  simp only [List.mem_append, List.mem_cons, List.not_mem_nil, or_false,
    mem_optionalMember] at hn
  obtain (⟨s, -, rfl⟩ | ⟨s, -, rfl⟩) | rfl | rfl := hn <;>
    exact ⟨_, rfl, needsRoom_of_nesting_eq_zero rfl⟩

theorem isExact {m : ResponseMetadata} (h : m.IsWritable) : m.toJson.IsExact := by
  refine hasExactMembers_iff.2 fun n hn => ?_
  simp only [List.mem_append, List.mem_cons, List.not_mem_nil, or_false, mem_optionalMember] at hn
  obtain (⟨s, -, rfl⟩ | ⟨s, -, rfl⟩) | rfl | rfl := hn
  · trivial
  · trivial
  · exact isExact_ofNat h.tokenCount
  · exact isExact_ofNat h.durationMillis

end ResponseMetadata

namespace Response

/-- The records are those of runs, and the counts are numbers of 64 bits. -/
structure IsWritable (r : Response) : Prop where
  records : ∀ t ∈ r.records, t.IsWritable
  metadata : r.metadata.IsWritable

/-- The response without the results that are null. -/
def asRead (r : Response) : Response :=
  { r with toolResults := r.toolResults.map (·.map ToolRecord.asRead) }

/-- A response is read back as it is exactly if no result of its records is null. -/
theorem asRead_eq_self_iff {r : Response} :
    r.asRead = r ↔ ∀ t ∈ r.records, t.result ≠ some .null := by
  obtain ⟨id, content, toolResults, error, metadata⟩ := r
  cases toolResults with
  | none => simp [asRead, records]
  | some l =>
    have hmap : l.map ToolRecord.asRead = l ↔ ∀ t ∈ l, t.asRead = t := by
      simpa using List.map_eq_map_iff (f := ToolRecord.asRead) (g := fun t => t) (l := l)
    simp [asRead, records, hmap, ToolRecord.asRead_eq_self_iff]

/-- The members that a response is written as. -/
def members (r : Response) : List (String × Json) :=
  [("request_id", r.requestId.toJson), ("content", .str r.content)] ++
    optionalMember "tool_results" (ofList ToolRecord.toJson) r.toolResults ++
    optionalMember "error" .str r.error ++ [("metadata", r.metadata.toJson)]

theorem nodup_members (r : Response) : (r.members.map (·.1)).Nodup := by
  obtain ⟨id, content, _ | l, _ | e, metadata⟩ := r <;> simp [members, optionalMember]

theorem givesBack_records {l : List ToolRecord} (h : ∀ t ∈ l, t.IsWritable) :
    GivesBack (readList ToolRecord.read) (ofList ToolRecord.toJson l).nesting
      (ofList ToolRecord.toJson l) (l.map ToolRecord.asRead) :=
  givesBack_mapList fun t ht =>
    (ToolRecord.givesBack (h t ht)).mono (nesting_le_itemsNesting (List.mem_map_of_mem ht))

/-- A response is given back as it is read. -/
theorem givesBack {r : Response} (h : r.IsWritable) :
    GivesBack Response.read r.toJson.nesting r.toJson r.asRead := by
  have hkeys := r.nodup_members
  have hrecords : (mayHave "tool_results" (readList ToolRecord.read)).GivesBack
      (membersNesting r.members) r.members r.asRead.toolResults := by
    refine givesBack_optionalMember (f := ofList ToolRecord.toJson) (o := r.toolResults) hkeys
      (by simp [members]) (fun l hl => ?_) fun hnone => ?_
    · have hl' : ∀ t ∈ l, t.IsWritable := by simpa [records, hl] using h.records
      rw [asRead, hl]
      exact (givesBack_records hl').option (by simp [ofList])
    · rw [asRead, hnone, Option.map_none]
  have herror : (mayHave "error" readString).GivesBack (membersNesting r.members) r.members
      r.error := givesBack_optionalString hkeys (by simp [members])
  exact givesBack_record hkeys
    ((((((givesBack_scalar hkeys (by simp [members]) r.requestId.givesBack).map Response.mk).seq
    (givesBack_scalar hkeys (by simp [members]) (givesBack_string r.content))).seq hrecords).seq
    herror).seq (givesBack_member hkeys (by simp [members])
      (ResponseMetadata.givesBack h.metadata)))

theorem needsRoom (r : Response) : NeedsRoom Response.read r.toJson := by
  refine NeedsRoom.record fun m hm => ?_
  simp only [List.mem_append, List.mem_cons, List.not_mem_nil, or_false,
    mem_optionalMember] at hm
  obtain (((rfl | rfl) | ⟨l, -, rfl⟩) | ⟨e, -, rfl⟩) | rfl := hm
  · exact ⟨_, rfl, needsRoom_of_nesting_eq_zero rfl⟩
  · exact ⟨_, rfl, needsRoom_of_nesting_eq_zero rfl⟩
  · refine ⟨_, rfl, (NeedsRoom.list fun j hj => ?_).option.checkOf⟩
    obtain ⟨t, -, rfl⟩ := List.mem_map.1 hj
    exact t.needsRoom
  · exact ⟨_, rfl, needsRoom_of_nesting_eq_zero rfl⟩
  · exact ⟨_, rfl, r.metadata.needsRoom.checkOf⟩

theorem nesting_toJson (r : Response) :
    r.toJson.nesting = itemsNesting (r.records.map ToolRecord.toJson) + 2 := by
  obtain ⟨id, content, _ | l, _ | e, metadata⟩ := r <;>
    simp [toJson, records, optionalMember, ofList, RequestId.toJson, nesting, membersNesting,
      itemsNesting, ResponseMetadata.nesting_toJson]

/-- A response fits the text exactly if the results of its records do. -/
theorem nesting_toJson_add_lt_iff {r : Response} {n : Nat} (hn : n + 3 < nestingLimit) :
    r.toJson.nesting + n < nestingLimit ↔ ∀ t ∈ r.records, t.Fits (n + 3) := by
  have hroom : Room 0 (some (nestingLimit - (n + 2))) := Nat.sub_pos_of_lt (by omega)
  have hlevels : ∀ m, m < nestingLimit - (n + 2) ↔ m + (n + 2) < nestingLimit := fun m => by omega
  have hitems : itemsNesting (r.records.map ToolRecord.toJson) < nestingLimit - (n + 2) ↔
      ∀ j ∈ r.records.map ToolRecord.toJson, j.nesting < nestingLimit - (n + 2) :=
    room_itemsNesting_iff hroom
  rw [nesting_toJson, Nat.add_assoc, Nat.add_comm 2, ← hlevels, hitems, List.forall_mem_map]
  exact forall₂_congr fun t _ => (hlevels _).trans (ToolRecord.nesting_toJson_add_lt_iff hn)

theorem isExact {r : Response} (h : r.IsWritable) : r.toJson.IsExact := by
  refine hasExactMembers_iff.2 fun m hm => ?_
  simp only [List.mem_append, List.mem_cons, List.not_mem_nil, or_false, mem_optionalMember] at hm
  obtain (((rfl | rfl) | ⟨l, hl, rfl⟩) | ⟨e, -, rfl⟩) | rfl := hm
  · trivial
  · trivial
  · have hl' : ∀ t ∈ l, t.IsWritable := by simpa [records, hl] using h.records
    exact areExact_iff.2 (List.forall_mem_map.2 fun t ht => ToolRecord.isExact (hl' t ht))
  · trivial
  · exact ResponseMetadata.isExact h.metadata

end Response

namespace Event

/-- The response of an event is read as any value is before its fields are. -/
theorem read_responseReceived (r : Response) (origin : Origin) (depth : Depth) :
    Event.read origin depth (responseReceived r).toJson.toDraft = (do
      let inner ← enter depth
      let _ ← readJson origin inner r.toJson.toDraft
      readMembersAs (responseReceived <$> need "response" Response.read) .buffered none
        (toMemberDrafts [("response", r.toJson)]) .closed) := by
  cases henter : enter depth with
  | error f => simp [Event.read, Event.toJson, toDraft, henter]
  | ok inner =>
    cases hvalue : readJson origin inner r.toJson.toDraft <;>
      simp [Event.read, Event.toJson, toDraft, toMemberDrafts, henter, hvalue, readTagged, readTag,
        readString, variantOfName, variants]

theorem nesting_responseReceived (r : Response) :
    (responseReceived r).toJson.nesting = r.toJson.nesting + 1 := by
  simp [toJson, nesting, membersNesting]

/-- The event of a response is given back with the response as it is read. -/
theorem givesBack_responseReceived {r : Response} (h : r.IsWritable) :
    GivesBack Event.read (responseReceived r).toJson.nesting (responseReceived r).toJson
      (responseReceived r.asRead) :=
  givesBack_tagged rfl (by simp) (by simp)
    ((givesBack_need (by simp) (by simp) (Response.givesBack h)).map responseReceived)

theorem needsRoom_responseReceived (r : Response) :
    NeedsRoom Event.read (responseReceived r).toJson := by
  intro origin depth e hroom hread
  rw [read_responseReceived] at hread
  obtain ⟨inner, henter, hread⟩ := Outcome.bind_eq_ok.1 hread
  obtain ⟨j, hj, -⟩ := Outcome.bind_eq_ok.1 hread
  obtain ⟨hinner, hiff⟩ := room_of_enter hroom henter
  rw [nesting_responseReceived, hiff]
  exact needsRoom_json r.toJson origin inner j hinner hj

theorem isExact_responseReceived {r : Response} (h : r.IsWritable) :
    (responseReceived r).toJson.IsExact :=
  ⟨trivial, Response.isExact h, trivial⟩

end Event

/-! ## What survives -/

/-- Of a response with records of runs, each record, the whole response and the event that publishes
it are read from their texts exactly if every result may stand inside the containers it is written
in, and then as they were but for results that are null. A record of such a result comes back
with neither a result nor an error and is summed up in other words; any other comes back as it
was. -/
theorem Response.survival {r : Response} (hr : r.IsWritable) :
    (∀ t ∈ r.records, ∀ t',
      decode ToolRecord.read t.toJson.compact = .ok t' ↔ t.Fits 1 ∧ t' = t.asRead) ∧
    (∀ r', decode Response.read r.toJson.compact = .ok r' ↔
      (∀ t ∈ r.records, t.Fits 3) ∧ r' = r.asRead) ∧
    (∀ e, decode Event.read (Event.responseReceived r).toJson.compact = .ok e ↔
      (∀ t ∈ r.records, t.Fits 4) ∧ e = .responseReceived r.asRead) ∧
    (r.asRead = r ↔ ∀ t ∈ r.records, t.result ≠ some .null) ∧
    ∀ t ∈ r.records,
      (t.result ≠ some .null → t.asRead = t ∧ t.result.isSome = !t.error.isSome) ∧
      (t.result = some .null →
        t.asRead.result = none ∧ t.asRead.error = none ∧ t.asRead.summary ≠ t.summary) := by
  refine ⟨fun t ht t' => ?_, fun r' => ?_, fun e => ?_, asRead_eq_self_iff, fun t ht => ⟨?_, ?_⟩⟩
  · have ht := hr.records t ht
    rw [decode_compact_eq_ok_iff (ToolRecord.isExact ht) (ToolRecord.givesBack ht) t.needsRoom]
    exact and_congr_left' (ToolRecord.nesting_toJson_add_lt_iff (n := 0) (by decide))
  · rw [decode_compact_eq_ok_iff (isExact hr) (givesBack hr) r.needsRoom]
    exact and_congr_left' (nesting_toJson_add_lt_iff (n := 0) (by decide))
  · rw [decode_compact_eq_ok_iff (Event.isExact_responseReceived hr)
      (Event.givesBack_responseReceived hr) (Event.needsRoom_responseReceived r),
      Event.nesting_responseReceived]
    exact and_congr_left' (nesting_toJson_add_lt_iff (n := 1) (by decide))
  · intro hnull
    refine ⟨ToolRecord.asRead_eq_self_iff.2 hnull, ?_⟩
    cases hr.records t ht <;> rfl
  · exact ToolRecord.asRead_of_null (hr.records t ht)

namespace NullAnswer

/-- The tool. -/
def tool : ToolScript :=
  { name := "probe", fallback := some (.ok .null) }

/-- The context of its run. -/
def context : ToolContext where
  requestId := ⟨"silent-probe", by decide +kernel⟩
  workingDirectory := "/"

/-- The response to a request for which no other tool is run. -/
def response : Response where
  requestId := context.requestId
  content := ""
  toolResults := some <|
    ToolRegistry.dispatchAll { tools := [tool.toTool] } .empty context .chat .null
  metadata := {}

theorem records_response : response.records = [.success "probe" .null 0] :=
  rfl

theorem isWritable_response : response.IsWritable where
  records := by
    refine ToolRegistry.isWritable_of_mem_dispatchAll (by decide) fun t ht j hj => ?_
    obtain rfl : t = tool.toTool := List.mem_singleton.1 (List.mem_of_mem_filter ht)
    obtain rfl : .null = j := ToolReaction.value.inj hj
    exact ⟨trivial, trivial⟩
  metadata := ⟨by decide, by decide⟩

/-- The record comes back without its result, and so the response is not the one that was
written. -/
theorem lost :
    decode Response.read response.toJson.compact = .ok response.asRead ∧
      response.asRead.records = [⟨"probe", none, none, 0⟩] ∧ response.asRead ≠ response := by
  obtain ⟨-, hresponse, -, hself, -⟩ := Response.survival isWritable_response
  rw [records_response] at hresponse hself
  have hfits : ∀ t ∈ [ToolRecord.success "probe" .null 0], t.Fits 3 := by
    rintro t ht j hj
    obtain rfl := List.mem_singleton.1 ht
    obtain rfl := Option.some.inj hj
    decide
  exact ⟨(hresponse _).2 ⟨hfits, rfl⟩, rfl, fun heq => hself.1 heq _ List.mem_cons_self rfl⟩

end NullAnswer

end Switchboard
