import Switchboard.Json.Printer
import Switchboard.Proofs.Decimal.Digits

/-!
# Texts without control characters

A value on one line has no control characters at all (`Json.isPrintable_compact`): nothing stands
between its tokens, and what a string has of them is escaped.
-/

namespace Switchboard

/-- No control characters, which are those before the blank. -/
def IsPrintable (s : List Char) : Prop :=
  ∀ c ∈ s, 32 ≤ c.toNat

@[simp] theorem isPrintable_nil : IsPrintable [] := by
  simp [IsPrintable]

@[simp] theorem isPrintable_cons {c : Char} {s : List Char} :
    IsPrintable (c :: s) ↔ 32 ≤ c.toNat ∧ IsPrintable s :=
  List.forall_mem_cons

@[simp] theorem isPrintable_append {s t : List Char} :
    IsPrintable (s ++ t) ↔ IsPrintable s ∧ IsPrintable t :=
  List.forall_mem_append

theorem IsPrintable.subset {s t : List Char} (h : IsPrintable t) (hst : s ⊆ t) : IsPrintable s :=
  fun c hc => h c (hst hc)

/-- A printable text has no control character. -/
theorem IsPrintable.not_mem {s : List Char} (h : IsPrintable s) {c : Char} (hc : c.toNat < 32) :
    c ∉ s :=
  fun hmem => absurd (h c hmem) (Nat.not_le.2 hc)

namespace Decimal

theorem isPrintable_natDigits (n : Nat) : IsPrintable (natDigits n) := by
  intro c hc
  have hdigit := toNat_of_isDigit (isDigit_of_mem_natDigits hc)
  omega

theorem isPrintable_toString (n : Nat) : IsPrintable (toString n).toList := by
  rw [toList_toString]
  exact isPrintable_natDigits n

theorem isPrintable_replicate {n : Nat} : IsPrintable (List.replicate n '0') := by
  intro c hc
  rw [List.eq_of_mem_replicate hc]
  decide

/-- The digits of a numeral, with a point behind the first one. -/
theorem isPrintable_render (d : Decimal) : IsPrintable d.render := by
  have hdigits := isPrintable_natDigits d.digits
  unfold render
  dsimp only
  generalize natDigits d.digits = ds at hdigits ⊢
  split
  · simp
  · split
    · split
      · simp [hdigits, isPrintable_replicate]
      · split
        · simp [hdigits.subset (List.take_subset _ _), hdigits.subset (List.drop_subset _ _)]
        · simp [hdigits, isPrintable_replicate]
    · have hsign : 32 ≤ (if (ds.length : Int) + d.exponent - 1 < 0 then '-' else '+').toNat := by
        split <;> decide
      rw [isPrintable_append, isPrintable_cons, isPrintable_cons]
      refine ⟨?_, by decide, hsign, isPrintable_natDigits _⟩
      rcases ds with - | ⟨c, - | ⟨c', rest⟩⟩
      · simp
      · simpa using hdigits
      · simpa using hdigits

/-- A finite number is written in printable characters. -/
theorem BinaryFormat.isPrintable_render {f : BinaryFormat} {bits : Nat} {s : List Char}
    (h : f.render bits = some s) : IsPrintable s := by
  obtain ⟨x, -, rfl⟩ := Option.map_eq_some_iff.1 h
  rw [isPrintable_append]
  refine ⟨?_, Decimal.isPrintable_render _⟩
  split <;> simp

end Decimal

namespace Json

theorem isPrintable_renderInt (n : Int) : IsPrintable (renderInt n) := by
  cases n with
  | ofNat n => exact Decimal.isPrintable_natDigits n
  | negSucc n => simp [renderInt, Decimal.isPrintable_natDigits]

/-- Every number of JSON is written in printable characters. -/
theorem isPrintable_renderNumber (n : JsonNumber) : IsPrintable (renderNumber n) := by
  have hgetD : ∀ {f : Decimal.BinaryFormat} {bits : Nat},
      IsPrintable ((f.render bits).getD "null".toList) := by
    intro f bits
    cases h : f.render bits with
    | none => simp
    | some s => exact Decimal.BinaryFormat.isPrintable_render h
  cases n with
  | int n => exact isPrintable_renderInt n
  | float x => exact hgetD
  | single x => exact hgetD

theorem isPrintable_digitChar {n : Nat} (h : n < 16) : 32 ≤ n.digitChar.toNat := by
  decide +revert

/-- An escaped character leaves no control character. -/
theorem isPrintable_escapeChar (c : Char) : IsPrintable (escapeChar c) := by
  unfold escapeChar
  split
  · simp
  split
  · simp
  split
  · simp
  split
  · simp
  split
  · simp
  split
  · simp
  split
  · simp
  split
  · simp [isPrintable_digitChar (show c.toNat / 16 < 16 by omega),
      isPrintable_digitChar (show c.toNat % 16 < 16 by omega)]
  · next hcontrol => simpa using hcontrol

/-- A string is written in printable characters, whatever it holds. -/
theorem isPrintable_renderString (s : String) : IsPrintable (renderString s) := by
  have hescaped : IsPrintable (s.toList.flatMap escapeChar) := by
    intro c hc
    obtain ⟨d, -, hd⟩ := List.mem_flatMap.1 hc
    exact isPrintable_escapeChar d c hd
  simp [renderString, hescaped]

/-! ## Values -/

/-- A layout without line breaks. -/
structure Layout.IsPrintable (layout : Layout) : Prop where
  line : ∀ depth, Switchboard.IsPrintable (layout.line depth)
  colon : Switchboard.IsPrintable layout.colon

theorem Layout.isPrintable_compact : Layout.compact.IsPrintable :=
  ⟨fun _ => isPrintable_nil, by simp [compact]⟩

section Values

variable {layout : Layout} (h : layout.IsPrintable)
include h

mutual
/-- In a printable layout every value is written in printable characters. -/
theorem isPrintable_render (depth : Nat) : ∀ j : Json, IsPrintable (render layout depth j)
  | .null => by simp [render]
  | .bool true => by simp [render]
  | .bool false => by simp [render]
  | .num n => by
    rw [render]
    exact isPrintable_renderNumber n
  | .str s => by
    rw [render]
    exact isPrintable_renderString s
  | .arr [] => by simp [render]
  | .arr (j :: rest) => by
    simp [render, h.line, isPrintable_render (depth + 1) j,
      isPrintable_renderItems (depth + 1) rest]
  | .obj [] => by simp [render]
  | .obj ((k, j) :: rest) => by
    simp [render, h.line, h.colon, isPrintable_renderString, isPrintable_render (depth + 1) j,
      isPrintable_renderMembers (depth + 1) rest]

theorem isPrintable_renderItems (depth : Nat) :
    ∀ items : List Json, IsPrintable (renderItems layout depth items)
  | [] => by simp [renderItems]
  | j :: rest => by
    simp [renderItems, h.line, isPrintable_render depth j, isPrintable_renderItems depth rest]

theorem isPrintable_renderMembers (depth : Nat) :
    ∀ members : List (String × Json), IsPrintable (renderMembers layout depth members)
  | [] => by simp [renderMembers]
  | (k, j) :: rest => by
    simp [renderMembers, h.line, h.colon, isPrintable_renderString, isPrintable_render depth j,
      isPrintable_renderMembers depth rest]
end

end Values

/-- A value on one line has no control characters, whatever its strings have. -/
theorem isPrintable_compact (j : Json) : IsPrintable j.compact.toList := by
  rw [compact, String.toList_ofList]
  exact isPrintable_render Layout.isPrintable_compact 0 j

end Json

end Switchboard
