import Switchboard.Model.Basic
import Switchboard.Proofs.Events.Tagged
import Switchboard.Proofs.Memory.Format

/-!
# Requests in transport

A request, the events that it has started and that it has ended, and the output of a model are read
back from their texts as they were (`Request.fidelity`). Members of a request that are absent are
left out, and those that are there are written even if they are empty, so no two requests are
written alike.
-/

namespace Switchboard

open Json

theorem RequestKind.givesBack (k : RequestKind) : GivesBack RequestKind.read 0 (.str k.name) k :=
  givesBack_variant (by cases k <;> rfl)

theorem RequestState.givesBack (s : RequestState) :
    GivesBack RequestState.read 0 (.str s.name) s :=
  givesBack_variant (by cases s <;> rfl)

namespace RequestContext

theorem nodup_members (c : RequestContext) : (c.members.map (·.1)).Nodup := by
  obtain ⟨_ | path, _ | selection, _ | root, _ | language⟩ := c <;>
    simp [members, optionalMember]

theorem givesBack (c : RequestContext) :
    GivesBack RequestContext.read c.toJson.nesting c.toJson c := by
  have hkeys := c.nodup_members
  have hpath : (mayHave "file_path" readString).GivesBack (membersNesting c.members) c.members
      c.filePath := givesBack_optionalString hkeys (by simp [members])
  have hselection : (mayHave "selection_text" readString).GivesBack (membersNesting c.members)
      c.members c.selectionText := givesBack_optionalString hkeys (by simp [members])
  have hroot : (mayHave "workspace_root" readString).GivesBack (membersNesting c.members)
      c.members c.workspaceRoot := givesBack_optionalString hkeys (by simp [members])
  have hlanguage : (mayHave "language" readString).GivesBack (membersNesting c.members) c.members
      c.language := givesBack_optionalString hkeys (by simp [members])
  exact givesBack_record hkeys
    ((((hpath.map RequestContext.mk).seq hselection).seq hroot).seq hlanguage)

theorem nesting_toJson (c : RequestContext) : c.toJson.nesting = 1 := by
  obtain ⟨_ | path, _ | selection, _ | root, _ | language⟩ := c <;>
    simp [toJson, members, optionalMember, nesting, membersNesting]

theorem isExact (c : RequestContext) : c.toJson.IsExact := by
  refine hasExactMembers_iff.2 fun m hm => ?_
  simp only [members, List.mem_append, mem_optionalMember] at hm
  obtain ((⟨s, -, rfl⟩ | ⟨s, -, rfl⟩) | ⟨s, -, rfl⟩) | ⟨s, -, rfl⟩ := hm <;> trivial

end RequestContext

namespace RequestOptions

/-- The time that is allowed is a number of 64 bits. -/
def IsWritable (o : RequestOptions) : Prop :=
  ∀ millis, o.timeoutMillis = some millis → millis < Nat.pow 2 wordBits

/-- The members that options are written as. -/
def members (o : RequestOptions) : List (String × Json) :=
  optionalMember "preferred_model" .str o.preferredModel ++
    optionalMember "preferred_provider" .str o.preferredProvider ++
    [("streaming", .bool o.streaming)] ++
    optionalMember "timeout_millis" Json.ofNat o.timeoutMillis

theorem nodup_members (o : RequestOptions) : (o.members.map (·.1)).Nodup := by
  obtain ⟨_ | model, _ | provider, streaming, _ | millis⟩ := o <;>
    simp [members, optionalMember]

/-- Options are given back if their numbers have 64 bits. -/
theorem givesBack {o : RequestOptions} (h : o.IsWritable) :
    GivesBack RequestOptions.read o.toJson.nesting o.toJson o := by
  have hkeys := o.nodup_members
  have hmodel : (mayHave "preferred_model" readString).GivesBack (membersNesting o.members)
      o.members o.preferredModel := givesBack_optionalString hkeys (by simp [members])
  have hprovider : (mayHave "preferred_provider" readString).GivesBack (membersNesting o.members)
      o.members o.preferredProvider := givesBack_optionalString hkeys (by simp [members])
  have hstreaming : (orElse "streaming" false readBool).GivesBack (membersNesting o.members)
      o.members o.streaming :=
    givesBack_orElse hkeys (by simp [members]) ((givesBack_bool _).mono (Nat.zero_le _))
  have htimeout : (mayHave "timeout_millis" (readNat wordBits)).GivesBack
      (membersNesting o.members) o.members o.timeoutMillis :=
    givesBack_optional (f := Json.ofNat) hkeys (by simp [members])
      fun millis hmillis => ⟨givesBack_nat (h millis hmillis), by simp [ofNat]⟩
  exact givesBack_record hkeys
    ((((hmodel.map RequestOptions.mk).seq hprovider).seq hstreaming).seq htimeout)

theorem nesting_toJson (o : RequestOptions) : o.toJson.nesting = 1 := by
  obtain ⟨_ | model, _ | provider, streaming, _ | millis⟩ := o <;>
    simp [toJson, optionalMember, ofNat, nesting, membersNesting]

theorem isExact {o : RequestOptions} (h : o.IsWritable) : o.toJson.IsExact := by
  refine hasExactMembers_iff.2 fun m hm => ?_
  simp only [List.mem_append, List.mem_singleton, mem_optionalMember] at hm
  obtain ((⟨s, -, rfl⟩ | ⟨s, -, rfl⟩) | rfl) | ⟨millis, hmillis, rfl⟩ := hm
  · trivial
  · trivial
  · trivial
  · exact isExact_ofNat (h millis hmillis)

end RequestOptions

namespace Request

/-- The options can be written, if there are any. -/
def IsWritable (r : Request) : Prop :=
  ∀ o, r.options = some o → o.IsWritable

/-- The members that a request is written as. -/
def members (r : Request) : List (String × Json) :=
  [("id", r.id.toJson), ("kind", .str r.kind.name), ("content", .str r.content)] ++
    optionalMember "context" RequestContext.toJson r.context ++
    optionalMember "options" RequestOptions.toJson r.options

theorem nodup_members (r : Request) : (r.members.map (·.1)).Nodup := by
  obtain ⟨id, kind, content, _ | context, _ | options⟩ := r <;> simp [members, optionalMember]

/-- A request is given back if its numbers have 64 bits. -/
theorem givesBack {r : Request} (h : r.IsWritable) :
    GivesBack Request.read r.toJson.nesting r.toJson r := by
  have hkeys := r.nodup_members
  have hcontext : (mayHave "context" RequestContext.read).GivesBack (membersNesting r.members)
      r.members r.context :=
    givesBack_optional (f := RequestContext.toJson) hkeys (by simp [members])
      fun c _ => ⟨c.givesBack, by simp [RequestContext.toJson]⟩
  have hoptions : (mayHave "options" RequestOptions.read).GivesBack (membersNesting r.members)
      r.members r.options :=
    givesBack_optional (f := RequestOptions.toJson) hkeys (by simp [members])
      fun o ho => ⟨RequestOptions.givesBack (h o ho), by simp [RequestOptions.toJson]⟩
  exact givesBack_record hkeys
    ((((((givesBack_scalar hkeys (by simp [members]) r.id.givesBack).map Request.mk).seq
    (givesBack_scalar hkeys (by simp [members]) r.kind.givesBack)).seq
    (givesBack_scalar hkeys (by simp [members]) (givesBack_string r.content))).seq hcontext).seq
    hoptions)

/-- A request has two levels at most. -/
theorem nesting_toJson_le (r : Request) : r.toJson.nesting ≤ 2 := by
  obtain ⟨id, kind, content, _ | context, _ | options⟩ := r <;>
    simp [toJson, RequestId.toJson, optionalMember, nesting, membersNesting,
      RequestContext.nesting_toJson, RequestOptions.nesting_toJson]

theorem isExact {r : Request} (h : r.IsWritable) : r.toJson.IsExact := by
  refine hasExactMembers_iff.2 fun m hm => ?_
  simp only [List.mem_append, List.mem_cons, List.not_mem_nil, or_false, mem_optionalMember] at hm
  obtain ((rfl | rfl | rfl) | ⟨c, -, rfl⟩) | ⟨o, ho, rfl⟩ := hm
  · trivial
  · trivial
  · trivial
  · exact c.isExact
  · exact RequestOptions.isExact (h o ho)

end Request

namespace Event

/-- The event that a request has started is given back with the request. -/
theorem givesBack_requestStarted {r : Request} (h : r.IsWritable) :
    GivesBack Event.read (requestStarted r).toJson.nesting (requestStarted r).toJson
      (requestStarted r) :=
  givesBack_tagged rfl (by simp) (by simp)
    ((givesBack_need (by simp) (by simp) (Request.givesBack h)).map requestStarted)

theorem nesting_requestStarted (r : Request) :
    (requestStarted r).toJson.nesting = r.toJson.nesting + 1 := by
  simp [toJson, nesting, membersNesting]

theorem isExact_requestStarted {r : Request} (h : r.IsWritable) :
    (requestStarted r).toJson.IsExact :=
  ⟨trivial, Request.isExact h, trivial⟩

/-- The event that a request has ended is given back. -/
theorem givesBack_requestEnded (id : RequestId) (state : RequestState) :
    GivesBack Event.read (requestEnded id state).toJson.nesting (requestEnded id state).toJson
      (requestEnded id state) :=
  givesBack_tagged rfl (by simp) (by simp)
    (((givesBack_need (by simp) (by simp) id.givesBack).map requestEnded).seq
      (givesBack_need (by simp) (by simp) state.givesBack))

theorem nesting_requestEnded (id : RequestId) (state : RequestState) :
    (requestEnded id state).toJson.nesting = 1 :=
  rfl

theorem isExact_requestEnded (id : RequestId) (state : RequestState) :
    (requestEnded id state).toJson.IsExact :=
  ⟨trivial, trivial, trivial, trivial⟩

end Event

namespace ModelOutput

/-- The reported number of tokens is one of 64 bits. -/
def IsWritable (o : ModelOutput) : Prop :=
  ∀ tokens, o.tokenCount = some tokens → tokens < Nat.pow 2 64

/-- The members that an output is written as. -/
def members (o : ModelOutput) : List (String × Json) :=
  [("content", .str o.content)] ++ optionalMember "token_count" Json.ofNat o.tokenCount

theorem nodup_members (o : ModelOutput) : (o.members.map (·.1)).Nodup := by
  obtain ⟨content, _ | tokens⟩ := o <;> simp [members, optionalMember]

/-- The output of a model is given back if its counts have 64 bits. -/
theorem givesBack {o : ModelOutput} (h : o.IsWritable) :
    GivesBack ModelOutput.read o.toJson.nesting o.toJson o := by
  have hkeys := o.nodup_members
  have htokens : (mayHave "token_count" (readNat 64)).GivesBack (membersNesting o.members)
      o.members o.tokenCount :=
    givesBack_optional (f := Json.ofNat) hkeys (by simp [members])
      fun tokens ho => ⟨givesBack_nat (h tokens ho), by simp [ofNat]⟩
  exact givesBack_record hkeys
    (((givesBack_scalar hkeys (by simp [members]) (givesBack_string o.content)).map
      ModelOutput.mk).seq htokens)

theorem nesting_toJson (o : ModelOutput) : o.toJson.nesting = 1 := by
  obtain ⟨content, _ | tokens⟩ := o <;>
    simp [toJson, optionalMember, ofNat, nesting, membersNesting]

theorem isExact {o : ModelOutput} (h : o.IsWritable) : o.toJson.IsExact := by
  refine hasExactMembers_iff.2 fun m hm => ?_
  simp only [List.mem_append, List.mem_singleton, mem_optionalMember] at hm
  obtain rfl | ⟨tokens, ho, rfl⟩ := hm
  · trivial
  · exact isExact_ofNat (h tokens ho)

end ModelOutput

/-! ## What comes back -/

namespace Request

/-- A request is read back from both of its texts. -/
theorem decode_toJson {r : Request} (h : r.IsWritable) {text : String}
    (htext : text ∈ r.toJson.texts) : decode Request.read text = .ok r :=
  decode_of_mem_texts htext (isExact h) (givesBack h)
    (Nat.lt_of_le_of_lt r.nesting_toJson_le (by decide))

/-- Two requests are written alike only if they are the same. -/
theorem eq_of_mem_texts {r r' : Request} (h : r.IsWritable) (h' : r'.IsWritable) {text : String}
    (htext : text ∈ r.toJson.texts) (htext' : text ∈ r'.toJson.texts) : r = r' :=
  Except.ok.inj ((decode_toJson h htext).symm.trans (decode_toJson h' htext'))

/-- Requests with a time limit of 64 bits, the events that such a request has started or has ended,
and outputs of models are read back from their texts as they were. No two requests have a text in
common, in particular none whose context or options are absent and one where they are there without
anything in them. -/
theorem fidelity :
    (∀ r : Request, r.IsWritable →
      (∀ text ∈ r.toJson.texts, decode Request.read text = .ok r) ∧
      (∀ text ∈ (Event.requestStarted r).toJson.texts,
        decode Event.read text = .ok (.requestStarted r)) ∧
      ∀ state, ∀ text ∈ (Event.requestEnded r.id state).toJson.texts,
        decode Event.read text = .ok (.requestEnded r.id state)) ∧
    (∀ o : ModelOutput, o.IsWritable → ∀ text ∈ o.toJson.texts,
      decode ModelOutput.read text = .ok o) ∧
    (∀ r r' : Request, r.IsWritable → r'.IsWritable → r ≠ r' →
      r.toJson.texts.Disjoint r'.toJson.texts) ∧
    ∀ r : Request, r.IsWritable →
      List.Disjoint { r with context := none }.toJson.texts
        { r with context := some {} }.toJson.texts ∧
      List.Disjoint { r with options := none }.toJson.texts
        { r with options := some {} }.toJson.texts := by
  have hdisjoint : ∀ r r' : Request, r.IsWritable → r'.IsWritable → r ≠ r' →
      r.toJson.texts.Disjoint r'.toJson.texts :=
    fun r r' h h' hne text htext htext' => hne (eq_of_mem_texts h h' htext htext')
  refine ⟨fun r h => ⟨fun text htext => decode_toJson h htext, fun text htext => ?_,
    fun state text htext => ?_⟩, fun o h text htext => ?_, hdisjoint, fun r h => ⟨?_, ?_⟩⟩
  · refine decode_of_mem_texts htext (Event.isExact_requestStarted h)
      (Event.givesBack_requestStarted h) ?_
    rw [Event.nesting_requestStarted]
    exact Nat.lt_of_le_of_lt (Nat.succ_le_succ r.nesting_toJson_le) (by decide)
  · exact decode_of_mem_texts htext (Event.isExact_requestEnded r.id state)
      (Event.givesBack_requestEnded r.id state) (Event.nesting_requestEnded r.id state ▸ by decide)
  · exact decode_of_mem_texts htext (ModelOutput.isExact h) (ModelOutput.givesBack h)
      (o.nesting_toJson ▸ by decide)
  · exact hdisjoint _ _ h h (by simp)
  · exact hdisjoint _ _ (by simp [IsWritable]) (by simp [IsWritable, RequestOptions.IsWritable])
      (by simp)

end Request

end Switchboard
