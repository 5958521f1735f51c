import Switchboard.Proofs.Json.Scalars

/-!
# JSON texts of values

A value whose numbers are integers of 64 bits is read back from its text in any layout that
puts nothing but white space between tokens. Members keep their order, and a key may repeat.
-/

namespace Switchboard.Json

mutual
/-- Every number in the value is an integer of 64 bits. -/
def IsExact : Json → Prop
  | .num (.int i) => IsInt64 i
  | .num _ => False
  | .arr items => AreExact items
  | .obj members => HasExactMembers members
  | _ => True

/-- `IsExact` of every item. -/
def AreExact : List Json → Prop
  | [] => True
  | j :: rest => IsExact j ∧ AreExact rest

/-- `IsExact` of every member. -/
def HasExactMembers : List (String × Json) → Prop
  | [] => True
  | (_, j) :: rest => IsExact j ∧ HasExactMembers rest
end

theorem areExact_iff {items : List Json} : AreExact items ↔ ∀ j ∈ items, IsExact j := by
  induction items with
  | nil => simp [AreExact]
  | cons j rest ih => simp [AreExact, ih]

theorem hasExactMembers_iff {members : List (String × Json)} :
    HasExactMembers members ↔ ∀ m ∈ members, IsExact m.2 := by
  induction members with
  | nil => simp [HasExactMembers]
  | cons m rest ih => simp [HasExactMembers, ih]

/-- A natural number of 64 bits is written exactly. -/
theorem isExact_ofNat {n : Nat} (h : n < Nat.pow 2 64) : (ofNat n).IsExact := by
  have hlow : -(Nat.pow 2 63 : Int) ≤ (n : Int) := by omega
  exact ⟨hlow, Int.ofNat_lt.2 h⟩

/-- Nothing but white space. -/
def IsSpace (s : List Char) : Prop :=
  ∀ c ∈ s, isSpace c

/-- White space is skipped as a whole. -/
theorem skipSpace_append {w s : List Char} (hw : IsSpace w) :
    skipSpace (w ++ s) = skipSpace s :=
  List.dropWhile_append_of_pos hw

theorem skipSpace_cons {c : Char} {s : List Char} (h : isSpace c = false) :
    skipSpace (c :: s) = c :: s := by
  simp [skipSpace, h]

/-- White space before a value is skipped. -/
theorem readValue_skip {w : List Char} (hw : IsSpace w) (fuel : Nat) (s : List Char) :
    readValue fuel (w ++ s) = readValue fuel s := by
  cases fuel with
  | zero => rw [readValue, readValue]
  | succ fuel => rw [readValue, readValue, skipSpace_append hw]

theorem readItems_skip {w : List Char} (hw : IsSpace w) (fuel : Nat) (s : List Char) :
    readItems fuel (w ++ s) = readItems fuel s := by
  cases fuel with
  | zero => rw [readItems, readItems]
  | succ fuel => rw [readItems, readItems, readValue_skip hw]

theorem readMembers_skip {w : List Char} (hw : IsSpace w) (fuel : Nat) (s : List Char) :
    readMembers fuel (w ++ s) = readMembers fuel s := by
  cases fuel with
  | zero => rw [readMembers, readMembers]
  | succ fuel => rw [readMembers, readMembers, skipSpace_append hw]

/-- Between tokens the layout has white space only. -/
structure Layout.IsBlank (layout : Layout) : Prop where
  line : ∀ depth, IsSpace (layout.line depth)
  colon : ∃ w, layout.colon = ':' :: w ∧ IsSpace w

theorem Layout.isBlank_indented : Layout.indented.IsBlank := by
  refine ⟨fun depth c hc => ?_, [' '], rfl, by simp [IsSpace, isSpace]⟩
  rcases List.mem_cons.1 hc with rfl | hc
  · rfl
  · rw [List.eq_of_mem_replicate hc]
    rfl

theorem Layout.isBlank_compact : Layout.compact.IsBlank :=
  ⟨fun _ _ hc => absurd hc List.not_mem_nil, [], rfl, fun _ hc => absurd hc List.not_mem_nil⟩

/-! ## The head of a text -/

/-- White space does not let a numeral go on. -/
theorem EndsNumeral.of_space {w s : List Char} (hw : IsSpace w) (hs : EndsNumeral s) :
    EndsNumeral (w ++ s) := by
  cases w with
  | nil => exact hs
  | cons c w =>
    have hc : isSpace c := hw c List.mem_cons_self
    simp only [isSpace, Bool.or_eq_true, decide_eq_true_eq] at hc
    rw [List.cons_append, endsNumeral_cons]
    rcases hc with ((rfl | rfl) | rfl) | rfl <;> decide

/-- Behind an item of an array no numeral goes on. -/
theorem endsNumeral_renderItems (layout : Layout) (depth : Nat) (items : List Json)
    {s : List Char} (hs : EndsNumeral s) : EndsNumeral (renderItems layout depth items ++ s) := by
  cases items with
  | nil => simpa [renderItems] using hs
  | cons j rest => simp [renderItems]

/-- Behind a member of an object no numeral goes on. -/
theorem endsNumeral_renderMembers (layout : Layout) (depth : Nat)
    (members : List (String × Json)) {s : List Char} (hs : EndsNumeral s) :
    EndsNumeral (renderMembers layout depth members ++ s) := by
  cases members with
  | nil => simpa [renderMembers] using hs
  | cons m rest => simp [renderMembers]

/-- The text of an integer begins with a sign or a digit. -/
theorem exists_renderInt_eq_cons (i : Int) :
    ∃ c s, renderInt i = c :: s ∧ (c = '-' ∨ c.isDigit) := by
  cases i with
  | negSucc n => exact ⟨'-', _, rfl, .inl rfl⟩
  | ofNat n =>
    cases hds : Decimal.natDigits n with
    | nil => exact absurd hds (Decimal.natDigits_ne_nil n)
    | cons d ds =>
      exact ⟨d, ds, hds, .inr (Decimal.isDigit_of_mem_natDigits (hds ▸ List.mem_cons_self))⟩

theorem ne_of_sign_or_digit {c d : Char} (hc : c = '-' ∨ c.isDigit) (hd : d.isDigit = false)
    (hsign : d ≠ '-') : c ≠ d := by
  rintro rfl
  rcases hc with hc | hc
  · exact hsign hc
  · rw [hd] at hc
    cases hc

theorem isSpace_of_sign_or_digit {c : Char} (hc : c = '-' ∨ c.isDigit) : isSpace c = false := by
  simp only [isSpace, Bool.or_eq_false_iff, decide_eq_false_iff_not]
  refine ⟨⟨⟨?_, ?_⟩, ?_⟩, ?_⟩ <;> exact ne_of_sign_or_digit hc rfl (by decide)

/-- The text of a value begins with a character that is neither white space nor a bracket that
closes an array. -/
theorem exists_render_eq_cons (layout : Layout) (depth : Nat) {j : Json} (hj : j.IsExact) :
    ∃ c s, render layout depth j = c :: s ∧ isSpace c = false ∧ c ≠ ']' := by
  cases j with
  | null => exact ⟨'n', _, by rw [render]; rfl, by decide, by decide⟩
  | bool b => cases b <;> exact ⟨_, _, by rw [render]; rfl, by decide, by decide⟩
  | str s => exact ⟨'"', _, by rw [render, renderString, List.cons_append], by decide, by decide⟩
  | arr items =>
    cases items with
    | nil => exact ⟨'[', _, by rw [render], by decide, by decide⟩
    | cons j rest =>
      exact ⟨'[', _, by simp only [render, List.cons_append]; rfl, by decide, by decide⟩
  | obj members =>
    cases members with
    | nil => exact ⟨'{', _, by rw [render], by decide, by decide⟩
    | cons m rest =>
      exact ⟨'{', _, by simp only [render, List.cons_append]; rfl, by decide, by decide⟩
  | num n =>
    cases n with
    | float x => exact absurd hj (by simp [IsExact])
    | single x => exact absurd hj (by simp [IsExact])
    | int i =>
      obtain ⟨c, s, hs, hc⟩ := exists_renderInt_eq_cons i
      exact ⟨c, s, by rw [render, renderNumber, hs], isSpace_of_sign_or_digit hc,
        ne_of_sign_or_digit hc rfl (by decide)⟩

/-! ## Reading a text back -/

variable {layout : Layout}

/-- A string is read back with the text after it. -/
theorem readValue_renderString (fuel : Nat) (s : String) (r : List Char) :
    readValue (fuel + 1) (renderString s ++ r) = (.str (some s), some r) := by
  rw [renderString_eq, readValue, skipSpace_cons (by decide)]
  simp only [readUnits_escaped, decodeUnits_toNat, Option.map_some, String.ofList_toList]

/-- An integer of 64 bits is read back with the text after it. -/
theorem readValue_renderInt (fuel : Nat) {i : Int} (hi : IsInt64 i) {r : List Char}
    (hr : EndsNumeral r) :
    readValue (fuel + 1) (renderInt i ++ r) = (.num (.number (.int i)), some r) := by
  have hread := readNumeral_renderInt i hr
  have hvalue := value_natDigits hi
  obtain ⟨c, s, hs, hc⟩ := exists_renderInt_eq_cons i
  have hother : ∀ d, d.isDigit = false → d ≠ '-' → c ≠ d := fun _ => ne_of_sign_or_digit hc
  -- the head is none of the characters that open a string or a container
  have hquote := hother '"' rfl (by decide)
  have hbracket := hother '[' rfl (by decide)
  have hbrace := hother '{' rfl (by decide)
  rw [hs, List.cons_append] at hread ⊢
  rw [readValue, skipSpace_cons (isSpace_of_sign_or_digit hc)]
  simp only [hother 't' rfl (by decide), hother 'f' rfl (by decide), hother 'n' rfl (by decide),
    if_false, hread, hvalue]

/-- An array with an item. -/
theorem readValue_array (fuel : Nat) {w t : List Char} (hw : IsSpace w)
    (ht : ∃ c s, t = c :: s ∧ isSpace c = false ∧ c ≠ ']') :
    readValue (fuel + 1) ('[' :: (w ++ t)) =
      (.arr (readItems fuel t).1 (readItems fuel t).2.isSome, (readItems fuel t).2) := by
  obtain ⟨c, s, rfl, hc, hbracket⟩ := ht
  rw [readValue, skipSpace_cons (by decide)]
  simp only [skipSpace_append hw, skipSpace_cons hc]
  split
  · next heq => exact absurd (List.cons.inj heq).1 hbracket
  · rfl

/-- An object with a member. -/
theorem readValue_object (fuel : Nat) {w t : List Char} (hw : IsSpace w) :
    readValue (fuel + 1) ('{' :: (w ++ '"' :: t)) =
      (.obj (readMembers fuel ('"' :: t)).1 (readMembers fuel ('"' :: t)).2.1,
        (readMembers fuel ('"' :: t)).2.2) := by
  rw [readValue, skipSpace_cons (by decide)]
  simp only [skipSpace_append hw, skipSpace_cons (by decide : isSpace '"' = false)]
  rfl

mutual
/-- In a blank layout every exact value is read back with the text after it. -/
theorem readValue_render (hl : layout.IsBlank) (j : Json) (depth fuel : Nat) (r : List Char)
    (hj : j.IsExact) (hfuel : 2 * (render layout depth j).length ≤ fuel)
    (hr : EndsNumeral r) :
    readValue fuel (render layout depth j ++ r) = (j.toDraft, some r) := by
  obtain ⟨fuel, rfl⟩ : ∃ n, fuel = n + 1 := by
    obtain ⟨c, s, hs, -⟩ := exists_render_eq_cons layout depth hj
    rw [hs, List.length_cons] at hfuel
    exact ⟨fuel - 1, by omega⟩
  match j with
  | .null => simp [render, readValue, skipSpace, isSpace, readWord, afterWord, toDraft]
  | .bool true => simp [render, readValue, skipSpace, isSpace, readWord, afterWord, toDraft]
  | .bool false => simp [render, readValue, skipSpace, isSpace, readWord, afterWord, toDraft]
  | .str s => rw [render, readValue_renderString, toDraft]
  | .num (.int i) => rw [render, renderNumber, readValue_renderInt fuel hj hr, toDraft]
  | .num (.float x) => exact absurd hj (by simp [IsExact])
  | .num (.single x) => exact absurd hj (by simp [IsExact])
  | .arr [] => simp [render, readValue, skipSpace, isSpace, toDraft, toDrafts]
  | .arr (j :: rest) =>
    obtain ⟨hj, hrest⟩ : j.IsExact ∧ AreExact rest := hj
    simp only [render, List.length_cons, List.length_append] at hfuel
    have hitems := readItems_render hl j rest (depth + 1) fuel (layout.line depth) r hj hrest
      (by omega) (hl.line depth)
    obtain ⟨c, s, hs, hc⟩ := exists_render_eq_cons layout (depth + 1) hj
    simp only [render, List.cons_append, List.append_assoc, List.nil_append]
    rw [readValue_array fuel (hl.line (depth + 1)) ⟨c, _, by rw [hs, List.cons_append], hc⟩, hitems]
    simp [toDraft, toDrafts]
  | .obj [] => simp [render, readValue, skipSpace, isSpace, toDraft, toMemberDrafts]
  | .obj ((k, j) :: rest) =>
    obtain ⟨hj, hrest⟩ : j.IsExact ∧ HasExactMembers rest := hj
    simp only [render, List.length_cons, List.length_append] at hfuel
    have hmembers := readMembers_render hl k j rest (depth + 1) fuel (layout.line depth) r hj hrest
      (by omega) (hl.line depth)
    simp only [render, List.cons_append, List.append_assoc, List.nil_append, renderString_eq]
      at hmembers ⊢
    rw [readValue_object fuel (hl.line (depth + 1)), hmembers]
    simp [toDraft, toMemberDrafts]
termination_by fuel

/-- The items of an array are read back up to its bracket. -/
theorem readItems_render (hl : layout.IsBlank) (j : Json) (rest : List Json) (depth fuel : Nat)
    (w r : List Char) (hj : j.IsExact) (hrest : AreExact rest)
    (hfuel : 2 * ((render layout depth j).length + (renderItems layout depth rest).length) + 1
      ≤ fuel) (hw : IsSpace w) :
    readItems fuel (render layout depth j ++ (renderItems layout depth rest ++ (w ++ ']' :: r)))
      = (j.toDraft :: toDrafts rest, some r) := by
  obtain ⟨fuel, rfl⟩ : ∃ n, fuel = n + 1 := ⟨fuel - 1, by omega⟩
  have hend : EndsNumeral (w ++ ']' :: r) := .of_space hw (by simp)
  have hvalue := readValue_render hl j depth fuel
    (renderItems layout depth rest ++ (w ++ ']' :: r)) hj (by omega)
    (endsNumeral_renderItems layout depth rest hend)
  rw [readItems, hvalue]
  match rest with
  | [] =>
    simp only [renderItems, List.nil_append, skipSpace_append hw,
      skipSpace_cons (by decide : isSpace ']' = false), toDrafts]
  | k :: rest =>
    obtain ⟨hk, hrest⟩ : k.IsExact ∧ AreExact rest := hrest
    simp only [renderItems, List.length_cons, List.length_append] at hfuel
    have hitems := readItems_render hl k rest depth fuel w r hk hrest (by omega) hw
    simp only [renderItems, List.cons_append, List.append_assoc,
      skipSpace_cons (by decide : isSpace ',' = false), readItems_skip (hl.line depth), hitems,
      toDrafts]
termination_by fuel

/-- The members of an object are read back up to its brace. -/
theorem readMembers_render (hl : layout.IsBlank) (k : String) (j : Json)
    (rest : List (String × Json)) (depth fuel : Nat) (w r : List Char) (hj : j.IsExact)
    (hrest : HasExactMembers rest)
    (hfuel : 2 * ((render layout depth j).length + (renderMembers layout depth rest).length) + 1
      ≤ fuel) (hw : IsSpace w) :
    readMembers fuel (renderString k ++ (layout.colon ++ (render layout depth j ++
        (renderMembers layout depth rest ++ (w ++ '}' :: r)))))
      = ((some k, j.toDraft) :: toMemberDrafts rest, .closed, some r) := by
  obtain ⟨fuel, rfl⟩ : ∃ n, fuel = n + 1 := ⟨fuel - 1, by omega⟩
  obtain ⟨v, hcolon, hv⟩ := hl.colon
  have hend : EndsNumeral (w ++ '}' :: r) := .of_space hw (by simp)
  have hvalue := readValue_render hl j depth fuel
    (renderMembers layout depth rest ++ (w ++ '}' :: r)) hj (by omega)
    (endsNumeral_renderMembers layout depth rest hend)
  rw [readMembers, renderString_eq, skipSpace_cons (by decide), hcolon]
  simp only [readUnits_escaped, decodeUnits_toNat, Option.map_some, String.ofList_toList,
    List.cons_append, skipSpace_cons (by decide : isSpace ':' = false), readValue_skip hv, hvalue]
  match rest with
  | [] =>
    simp only [renderMembers, List.nil_append, skipSpace_append hw,
      skipSpace_cons (by decide : isSpace '}' = false), toMemberDrafts]
  | (k', j') :: rest =>
    obtain ⟨hj', hrest⟩ : j'.IsExact ∧ HasExactMembers rest := hrest
    simp only [renderMembers, List.length_cons, List.length_append] at hfuel
    have hmembers := readMembers_render hl k' j' rest depth fuel w r hj' hrest (by omega) hw
    simp only [renderMembers, List.cons_append, List.append_assoc,
      skipSpace_cons (by decide : isSpace ',' = false), readMembers_skip (hl.line depth), hmembers,
      toMemberDrafts]
termination_by fuel
end

/-- A value is read back from its text, and nothing follows it. -/
theorem readText_render (hl : layout.IsBlank) {j : Json} (hj : j.IsExact) (depth : Nat) :
    readText (String.ofList (render layout depth j)) = (j.toDraft, true) := by
  have hread := readValue_render hl j depth (2 * (render layout depth j).length + 2) [] hj
    (by omega) endsNumeral_nil
  rw [List.append_nil] at hread
  simp [readText, hread, skipSpace]

end Switchboard.Json
