import Mathlib.Data.List.TakeDrop
import Switchboard.Json.Draft
import Switchboard.Json.Printer
import Switchboard.Proofs.Decimal.Digits

/-!
# Strings and integers in JSON

A string is read back from its quoted form, whatever characters it has, and an integer of 64
bits from its numeral.
-/

namespace Switchboard.Json

theorem hexValue_digitChar : ∀ n < 16, hexValue (Nat.digitChar n) = some n := by
  decide

/-- A control character is read back from its four hexadecimal digits. -/
theorem hexUnit_control {n : Nat} (h : n < 32) :
    hexUnit '0' '0' (Nat.digitChar (n / 16)) (Nat.digitChar (n % 16)) = some n := by
  have h0 : hexValue '0' = some 0 := by decide
  simp only [hexUnit, h0, hexValue_digitChar (n / 16) (by omega),
    hexValue_digitChar (n % 16) (by omega), Option.bind_eq_bind, Option.bind_some,
    Option.pure_def, Option.some.injEq]
  omega

/-- A character that needs no escape stands for itself. -/
theorem readUnits_plain {c : Char} (hq : c ≠ '"') (hb : c ≠ '\\') (h : ¬c.toNat < 32)
    (s : List Char) :
    readUnits (c :: s) = (readUnits s).map fun r => (c.toNat :: r.1, r.2) := by
  rw [readUnits.eq_def]
  split
  case h_5 c' rest _ _ heq =>
    cases heq
    rw [if_neg (by simp [h, hb])]
  all_goals simp_all

/-- A character is one code unit, however it is escaped. -/
theorem readUnits_escapeChar (c : Char) (s : List Char) :
    readUnits (escapeChar c ++ s) = (readUnits s).map fun r => (c.toNat :: r.1, r.2) := by
  unfold escapeChar
  split
  · subst_vars; rfl
  split
  · subst_vars; rfl
  split
  · subst_vars; rfl
  split
  · subst_vars; rfl
  split
  · subst_vars; rfl
  split
  · next h => rw [h]; rfl
  split
  · next h => rw [h]; rfl
  split
  · next h =>
    simp only [List.cons_append, List.nil_append, readUnits, hexUnit_control h]
  · next hq hb _ _ _ _ _ h => exact readUnits_plain hq hb h s

/-- An escaped text is read up to the closing quote. -/
theorem readUnits_escaped (cs s : List Char) :
    readUnits (cs.flatMap escapeChar ++ '"' :: s) = some (cs.map Char.toNat, s) := by
  induction cs with
  | nil => simp [readUnits]
  | cons c cs ih =>
    rw [List.flatMap_cons, List.append_assoc, readUnits_escapeChar, ih]
    rfl

/-- No character is a surrogate. -/
theorem decodeUnits_toNat (cs : List Char) : decodeUnits (cs.map Char.toNat) = some cs := by
  induction cs with
  | nil => rfl
  | cons c cs ih =>
    have hvalid : c.toNat < 0xd800 ∨ 0xdfff < c.toNat := by
      rcases c.valid with h | h
      · exact .inl h
      · exact .inr h.1
    rw [List.map_cons, decodeUnits.eq_def]
    dsimp only
    rw [if_neg (by omega), if_neg (by omega), ih]
    simp [Char.ofNat_toNat]

theorem renderString_eq (s : String) (r : List Char) :
    renderString s ++ r = '"' :: (s.toList.flatMap escapeChar ++ '"' :: r) := by
  simp [renderString]

/-! ## Integers -/

open Decimal

/-- The text does not go on with a numeral. -/
def EndsNumeral (s : List Char) : Prop :=
  ∀ c ∈ s.head?, c.isDigit = false ∧ c ≠ '.' ∧ c ≠ 'e' ∧ c ≠ 'E'

@[simp] theorem endsNumeral_nil : EndsNumeral [] := by
  simp [EndsNumeral]

@[simp] theorem endsNumeral_cons {c : Char} {s : List Char} :
    EndsNumeral (c :: s) ↔ c.isDigit = false ∧ c ≠ '.' ∧ c ≠ 'e' ∧ c ≠ 'E' := by
  simp [EndsNumeral]

theorem EndsNumeral.endsNumber {s : List Char} (h : EndsNumeral s) : EndsNumber s :=
  fun c hc => (h c hc).1

/-- The digits of a number are taken up to where they end. -/
theorem span_natDigits (n : Nat) {r : List Char} (hr : EndsNumber r) :
    (natDigits n ++ r).span Char.isDigit = (natDigits n, r) := by
  simp [List.span_eq_takeWhile_dropWhile, takeWhile_digits (fun _ => isDigit_of_mem_natDigits) hr,
    dropWhile_digits (fun _ => isDigit_of_mem_natDigits) hr]

/-- Where a numeral ends there is no exponent. -/
theorem readExponent_none {r : List Char} (hr : EndsNumeral r) :
    readExponent r = some (none, r) := by
  cases r with
  | nil => rfl
  | cons c r =>
    obtain ⟨-, -, he, hE⟩ := endsNumeral_cons.1 hr
    simp [readExponent, he, hE]

/-- The digits of a number are a numeral without fraction and exponent. -/
theorem readNumeral_renderInt (i : Int) {r : List Char} (hr : EndsNumeral r) :
    readNumeral (renderInt i ++ r) = some (⟨i < 0, natDigits i.natAbs, none, none⟩, r) := by
  have hzero : ∀ n, ((natDigits n).head? = some '0' && (natDigits n).length != 1) = false := by
    intro n
    by_cases h0 : (natDigits n).head? = some '0'
    · rw [head?_natDigits h0]
      rfl
    · simp [h0]
  have hpoint : ∀ s, r ≠ '.' :: s := by
    rintro s rfl
    exact absurd rfl (endsNumeral_cons.1 hr).2.1
  cases i with
  | ofNat n =>
    cases hds : natDigits n with
    | nil => exact absurd hds (natDigits_ne_nil n)
    | cons d ds =>
      have hminus : d ≠ '-' := by
        rintro rfl
        exact absurd (isDigit_of_mem_natDigits (n := n) (hds ▸ List.mem_cons_self)) (by decide)
      have hread := span_natDigits n hr.endsNumber
      have h0 := hzero n
      rw [hds, List.cons_append] at hread
      rw [hds] at h0
      simp only [renderInt, hds, readNumeral, List.cons_append]
      split
      · next heq => exact absurd (List.cons.inj heq).1 hminus
      · simp only [hread, h0, List.isEmpty_cons, Bool.false_or, Bool.false_eq_true, if_false]
        simp [readExponent_none hr, hds]
  | negSucc n =>
    have hread := span_natDigits (n + 1) hr.endsNumber
    simp only [renderInt, readNumeral, List.cons_append, hread, hzero, Bool.or_false]
    simp [readExponent_none hr, Int.negSucc_lt_zero]

theorem le_ofDigitChars (ds : List Char) (n : Nat) : n ≤ Nat.ofDigitChars 10 ds n := by
  induction ds generalizing n with
  | nil => simp
  | cons c ds ih =>
    have h := ih (10 * n + (c.toNat - '0'.toNat))
    rw [Nat.ofDigitChars_cons]
    omega

/-- The digits of a number of 64 bits are all taken in. -/
theorem accumulate_eq {ds : List Char} {n : Nat}
    (h : Nat.ofDigitChars 10 ds n < Nat.pow 2 64) :
    accumulate n ds = (Nat.ofDigitChars 10 ds n, []) := by
  induction ds generalizing n with
  | nil => simp [accumulate]
  | cons c ds ih =>
    have hle := le_ofDigitChars ds (10 * n + (c.toNat - '0'.toNat))
    rw [Nat.ofDigitChars_cons] at h ⊢
    rw [Nat.mul_comm 10 n, show '0'.toNat = 48 from rfl] at h hle ⊢
    rw [accumulate, if_pos (Nat.lt_of_le_of_lt hle h)]
    exact ih h

/-- An integer of 64 bits, with or without sign. -/
def IsInt64 (i : Int) : Prop :=
  -(Nat.pow 2 63 : Int) ≤ i ∧ i < Nat.pow 2 64

/-- The digits of an integer of 64 bits stand for that integer. -/
theorem value_natDigits {i : Int} (h : IsInt64 i) :
    NumeralText.value ⟨i < 0, natDigits i.natAbs, none, none⟩ = .number (.int i) := by
  obtain ⟨hlo, hhi⟩ := h
  have h63 : Nat.pow 2 63 = 9223372036854775808 := rfl
  have h64 : Nat.pow 2 64 = 18446744073709551616 := rfl
  have hacc : accumulate 0 (natDigits i.natAbs) = (i.natAbs, []) := by
    have hlt : Nat.ofDigitChars 10 (natDigits i.natAbs) 0 < Nat.pow 2 64 := by
      rw [ofDigitChars_natDigits]
      omega
    rw [accumulate_eq hlt, ofDigitChars_natDigits]
  have hnil : accumulate i.natAbs [] = (i.natAbs, []) := rfl
  simp only [NumeralText.value, hacc, Option.getD_none, hnil]
  by_cases hneg : i < 0
  · have hrange : (i.natAbs = 0 || Nat.pow 2 63 < i.natAbs) = false := by
      simp only [Bool.or_eq_false_iff, decide_eq_false_iff_not]
      omega
    have habs : -(i.natAbs : Int) = i := by omega
    simp only [hneg, hrange]
    exact congrArg (fun n => Numeral.number (.int n)) habs
  · have habs : (i.natAbs : Int) = i := by omega
    simp only [hneg]
    exact congrArg (fun n => Numeral.number (.int n)) habs

end Switchboard.Json
