import Switchboard.Proofs.Json.Values
import Switchboard.Proofs.Memory.Format
import Switchboard.Proofs.Words

/-!
# Identifiers and their faults

The six checks of a text leave a grammar of three clauses (`fault?_eq_none_iff`): since no letter or
digit is white space or a slash, the checks for white space and for parts of paths are implied by
the one for characters. They only decide which fault is reported, and that is the fault of the first
check that the text violates (`fault?_eq_some_iff`). Every route to an identifier takes and refuses
the same texts for the same reasons (`grammar`).
-/

namespace Switchboard

namespace RequestId

variable {s : String} {f : Fault} {c : Char}

/-- The code points of white space. -/
def blankPoints : List Nat :=
  List.range' 9 5 ++ [0x20, 0x85, 0xa0, 0x1680] ++ List.range' 0x2000 11 ++
    [0x2028, 0x2029, 0x202f, 0x205f, 0x3000]

/-- White space is found among the listed code points. -/
theorem mem_blankPoints_of_isBlank (h : Text.isBlank c = true) : c.toNat ∈ blankPoints := by
  simp only [Text.isBlank, Bool.or_eq_true, Bool.and_eq_true, decide_eq_true_eq] at h
  simp only [blankPoints, List.mem_append, List.mem_range'_1, List.mem_cons, List.not_mem_nil,
    or_false]
  omega

theorem isBlank_of_isIdChar (h : isIdChar c = true) : Text.isBlank c = false := by
  have hnone : ∀ n ∈ blankPoints, isIdChar (Char.ofNat n) = false := by
    decide +kernel
  by_contra hblank
  have hc := hnone c.toNat (mem_blankPoints_of_isBlank (Bool.eq_true_of_not_eq_false hblank))
  rw [Char.ofNat_toNat, h] at hc
  cases hc

theorem ne_slash_of_isIdChar (h : isIdChar c = true) : c ≠ '/' := by
  rintro rfl
  revert h
  decide

/-! ## Faults -/

/-- The text violates the check that reports a fault. -/
def Violates (s : String) : Fault → Prop
  | .empty => s = ""
  | .whitespaceOnly => ∀ c ∈ s.toList, Text.isBlank c = true
  | .outerWhitespace => ∃ c, (s.toList.head? = some c ∨ s.toList.getLast? = some c) ∧
      Text.isBlank c = true
  | .tooLong n => n = s.utf8ByteSize ∧ 128 < s.utf8ByteSize
  | .pathTraversal => "../".toList <:+: s.toList ∨ "./".toList <:+: s.toList
  | .invalidCharacters => ∃ c ∈ s.toList, isIdChar c = false

/-- The checks of a text in their order, by the faults they report. -/
def checks (s : String) : List Fault :=
  [.empty, .whitespaceOnly, .outerWhitespace, .tooLong s.utf8ByteSize, .pathTraversal,
    .invalidCharacters]

/-- A rule that is violated is checked. -/
theorem mem_checks_of_violates (h : Violates s f) : f ∈ checks s := by
  cases f with
  | tooLong n => simp [checks, h.1]
  | _ => simp [checks]

/-- Trimming changes an identifier exactly if it has white space at an end. -/
theorem violates_outerWhitespace_iff :
    (Text.trim s.toList != s.toList) = true ↔ Violates s .outerWhitespace := by
  rw [bne_iff_ne, Text.trim, Ne, Text.strip_eq_self_iff, not_and_or, Bool.not_eq_false,
    Bool.not_eq_false, Option.any_eq_true, Option.any_eq_true, ← exists_or]
  simp only [Violates, or_and_right]

theorem violates_pathTraversal_iff :
    Text.occursIn ['.', '/'] s.toList = true ↔ Violates s .pathTraversal := by
  rw [Text.occursIn_iff]
  constructor
  · exact .inr
  · rintro (h | h)
    · exact List.IsInfix.trans ⟨['.'], [], rfl⟩ h
    · exact h

/-- The fault is the first rule that is violated. -/
theorem fault?_eq_find? [DecidablePred (Violates s)] :
    fault? s = (checks s).find? fun f => decide (Violates s f) := by
  have hempty : s.toList.isEmpty = true ↔ Violates s .empty := by
    simp [Violates]
  have hblank : (Text.trim s.toList).isEmpty = true ↔ Violates s .whitespaceOnly :=
    List.isEmpty_iff.trans Text.strip_eq_nil_iff
  have hlong : maxLength < s.utf8ByteSize ↔ Violates s (.tooLong s.utf8ByteSize) :=
    (and_iff_right rfl).symm
  have hchars : (!s.toList.all isIdChar) = true ↔ Violates s .invalidCharacters := by
    simp [Violates]
  simp only [fault?, hempty, hblank, violates_outerWhitespace_iff, hlong,
    violates_pathTraversal_iff, hchars]
  split_ifs <;> simp [checks, *]

/-- The fault of a text is the one that is reported by the first check it violates. -/
theorem fault?_eq_some_iff : fault? s = some f ↔ Violates s f ∧
    ∃ earlier later, checks s = earlier ++ f :: later ∧ ∀ f' ∈ earlier, ¬Violates s f' := by
  classical
  rw [fault?_eq_find?, List.find?_eq_some_iff_append]
  simp only [decide_eq_true_eq, Bool.not_eq_true', decide_eq_false_iff_not]

example : fault? " ../a b" = some .outerWhitespace := by
  decide

/-- The checks for white space and for parts of paths follow from the one for characters. -/
theorem not_violates (hne : s ≠ "") (hlength : s.utf8ByteSize ≤ 128)
    (hchars : ∀ c ∈ s.toList, isIdChar c = true) : ¬Violates s f := by
  intro hf
  have hclear : ∀ c ∈ s.toList, ¬Text.isBlank c = true := fun c hc =>
    Bool.not_eq_true _ ▸ isBlank_of_isIdChar (hchars c hc)
  cases f with
  | empty => exact hne hf
  | whitespaceOnly =>
    have hnil : s.toList ≠ [] := by simpa using hne
    obtain ⟨c, hc⟩ := List.exists_mem_of_ne_nil _ hnil
    exact hclear c hc (hf c hc)
  | outerWhitespace =>
    obtain ⟨c, hc | hc, hblank⟩ := hf
    · exact hclear c (List.mem_of_mem_head? hc) hblank
    · exact hclear c (List.mem_of_mem_getLast? hc) hblank
  | tooLong n => exact absurd hf.2 (not_lt.mpr hlength)
  | pathTraversal =>
    have hslash : '/' ∈ s.toList := by
      rcases hf with hf | hf <;> exact hf.subset (by decide)
    exact ne_slash_of_isIdChar (hchars _ hslash) rfl
  | invalidCharacters =>
    obtain ⟨c, hc, hother⟩ := hf
    exact Bool.false_ne_true (hother.symm.trans (hchars c hc))

/-- A text without faults is not empty, not too long, and has no other characters. -/
theorem fault?_eq_none_iff : fault? s = none ↔
    s ≠ "" ∧ s.utf8ByteSize ≤ 128 ∧ ∀ c ∈ s.toList, isIdChar c = true := by
  classical
  rw [fault?_eq_find?, List.find?_eq_none]
  simp only [decide_eq_true_eq]
  constructor
  · intro h
    have hnone : ∀ f, ¬Violates s f := fun f hf => h f (mem_checks_of_violates hf) hf
    refine ⟨hnone .empty, ?_, fun c hc => ?_⟩
    · exact not_lt.mp fun hlong => hnone (.tooLong s.utf8ByteSize) ⟨rfl, hlong⟩
    · exact Bool.eq_true_of_not_eq_false fun hother => hnone .invalidCharacters ⟨c, hc, hother⟩
  · rintro ⟨hne, hlength, hchars⟩ f -
    exact not_violates hne hlength hchars

/-- An identifier is read from its own text and from no other. -/
theorem parse_eq_ok_iff {id : RequestId} : parse s = .ok id ↔ id.text = s := by
  constructor
  · intro h
    unfold parse at h
    split at h
    · exact Except.ok.inj h ▸ rfl
    · cases h
  · rintro rfl
    exact id.parse_text

/-- A text is refused with its fault. -/
theorem parse_eq_error_iff : parse s = .error f ↔ fault? s = some f := by
  unfold parse
  split
  · next h => simp [h]
  · next h => simp [h]

/-- What comes of a text where a value of JSON is read. -/
def parseJson (s : String) : Except Json.Fault RequestId :=
  (parse s).mapError fun f => .refused f.message

theorem read_str (origin : Json.Origin) (depth : Json.Depth) :
    read origin depth (Json.str s).toDraft = parseJson s := by
  simp only [read, Json.readAs, Json.toDraft, Json.readString, Outcome.ok_bind, check, parseJson]
  cases parse s <;> rfl

/-- As a key a text is read as it is as a value. -/
theorem ofKey_eq : ofKey s = parseJson s := by
  rw [ofKey, check, parseJson]
  cases parse s <;> rfl

/-- A text is taken for an identifier exactly if it is not empty, has at most 128 bytes and consists
of letters, digits, hyphens, underscores and dots. The identifier then is this text, also when it is
written, and has neither white space nor slashes. Any other text is refused for the first check it
violates, and values of JSON and keys are taken or refused in the same way. -/
theorem grammar (s : String) :
    ((∃ id, parse s = .ok id) ↔ s ≠ "" ∧ s.utf8ByteSize ≤ 128 ∧
      ∀ c ∈ s.toList, Unicode.isAlphanumeric c = true ∨ c = '-' ∨ c = '_' ∨ c = '.') ∧
    (∀ id, parse s = .ok id → id.text = s ∧
      (∀ text ∈ id.toJson.texts, Json.decode Json.readString text = .ok s) ∧
      ∀ c ∈ id.text.toList, Text.isBlank c = false ∧ c ≠ '/') ∧
    (∀ f, parse s = .error f ↔ Violates s f ∧
      ∃ earlier later, checks s = earlier ++ f :: later ∧ ∀ f' ∈ earlier, ¬Violates s f') ∧
    ofKey s = parseJson s ∧
    (∀ origin depth, read origin depth (Json.str s).toDraft = parseJson s) ∧
    (∀ text ∈ (Json.str s).texts, Json.readText text = ((Json.str s).toDraft, true)) ∧
    ∀ text, Json.readText text = ((Json.str s).toDraft, true) →
      Json.decode read text = parseJson s := by
  refine ⟨?_, fun id hid => ?_, fun f => parse_eq_error_iff.trans fault?_eq_some_iff, ofKey_eq,
    read_str, fun text htext => Json.readText_of_mem_texts htext trivial,
    fun text htext => (Json.decode_of_readText htext).trans (read_str _ _)⟩
  · have hvalid : (∃ id, parse s = .ok id) ↔ fault? s = none := by
      simp only [parse_eq_ok_iff]
      exact ⟨fun ⟨id, h⟩ => h ▸ id.valid, fun h => ⟨⟨s, h⟩, rfl⟩⟩
    rw [hvalid, fault?_eq_none_iff]
    simp only [isIdChar, Bool.or_eq_true, decide_eq_true_eq, or_assoc]
  · obtain rfl := parse_eq_ok_iff.mp hid
    obtain ⟨-, -, hchars⟩ := fault?_eq_none_iff.mp id.valid
    refine ⟨rfl, fun text htext => ?_, fun c hc => ?_⟩
    · rw [Json.decode_of_readText (Json.readText_of_mem_texts htext trivial), toJson,
        Json.toDraft, Json.readString]
    · exact ⟨isBlank_of_isIdChar (hchars c hc), ne_slash_of_isIdChar (hchars c hc)⟩

end RequestId

end Switchboard
