import Switchboard.Decimal.Shortest

/-!
# Decimal digits

The digits of a natural number are digits, there is at least one of them, and the number they
stand for is that number. A run of digits ends at the first character that is none.
-/

namespace Switchboard.Decimal

@[simp] theorem natDigits_ne_nil (n : Nat) : natDigits n ≠ [] :=
  Nat.toDigits_ne_nil

theorem isDigit_of_mem_natDigits {n : Nat} {c : Char} (h : c ∈ natDigits n) : c.isDigit :=
  Nat.isDigit_of_mem_toDigits (by decide) (by decide) h

theorem toList_toString (n : Nat) : (toString n).toList = natDigits n :=
  Nat.toList_repr

/-- An integer is written with its sign if it is negative. -/
theorem toList_toString_int (i : Int) :
    (toString i).toList = (if i < 0 then ['-'] else []) ++ natDigits i.natAbs := by
  cases i with
  | ofNat n => exact toList_toString n
  | negSucc n =>
    have htext : toString (Int.negSucc n) = "-" ++ toString (n + 1) := rfl
    rw [htext, String.toList_append, toList_toString, if_pos (Int.negSucc_lt_zero n),
      Int.natAbs_negSucc]
    rfl

/-- A number is read back from its digits. -/
@[simp] theorem ofDigitChars_natDigits (n : Nat) : Nat.ofDigitChars 10 (natDigits n) 0 = n :=
  Nat.ofDigitChars_ten_toDigits

/-- A number below a power of ten has no more digits than the exponent says. -/
theorem length_natDigits_le {n k : Nat} (hk : 0 < k) (h : n < Nat.pow 10 k) :
    (natDigits n).length ≤ k :=
  (Nat.length_toDigits_le_iff (by decide) hk).2 h

/-- The last digit, after the digits of the number without it. -/
theorem natDigits_of_ten_le {n : Nat} (h : 10 ≤ n) :
    natDigits n = natDigits (n / 10) ++ [(n % 10).digitChar] :=
  Nat.toDigits_of_base_le (by decide) h

theorem natDigits_of_lt_ten {n : Nat} (h : n < 10) : natDigits n = [n.digitChar] :=
  Nat.toDigits_of_lt_base h

/-- Only zero begins with a zero. -/
theorem head?_natDigits {n : Nat} (h : (natDigits n).head? = some '0') : n = 0 := by
  induction n using Nat.strongRecOn with
  | ind n ih =>
    by_cases hn : n < 10
    · simpa [natDigits_of_lt_ten hn] using h
    · have hq : n / 10 = 0 := by
        refine ih (n / 10) (by omega) ?_
        rw [natDigits_of_ten_le (by omega)] at h
        cases hds : natDigits (n / 10) with
        | nil => exact absurd hds (natDigits_ne_nil _)
        | cons d ds => simpa [hds] using h
      omega

theorem toNat_of_isDigit {c : Char} (h : c.isDigit) : 48 ≤ c.toNat ∧ c.toNat ≤ 57 := by
  simpa [Char.isDigit, Char.le_def, UInt32.le_iff_toNat_le] using h

/-- Each digit put after a number multiplies the bound on it by ten. -/
theorem ofDigitChars_lt {ds : List Char} (h : ∀ c ∈ ds, c.isDigit) (n : Nat) :
    Nat.ofDigitChars 10 ds n < (n + 1) * Nat.pow 10 ds.length := by
  rw [Nat.pow_eq]
  induction ds generalizing n with
  | nil => simp
  | cons c ds ih =>
    have hc := toNat_of_isDigit (h c List.mem_cons_self)
    have hlt := ih (fun d hd => h d (List.mem_cons_of_mem _ hd)) (10 * n + (c.toNat - 48))
    have hle : (10 * n + (c.toNat - 48) + 1) * 10 ^ ds.length ≤ 10 * (n + 1) * 10 ^ ds.length :=
      Nat.mul_le_mul_right _ (by omega)
    simp only [Nat.ofDigitChars_cons, List.length_cons, Nat.pow_succ]
    have hchar : '0'.toNat = 48 := rfl
    rw [hchar]
    calc _ < _ := hlt
      _ ≤ _ := hle
      _ = _ := by ac_rfl

/-- No digit stands at the head of the text. -/
def EndsNumber (s : List Char) : Prop :=
  ∀ c ∈ s.head?, c.isDigit = false

@[simp] theorem endsNumber_nil : EndsNumber [] := by
  simp [EndsNumber]

@[simp] theorem endsNumber_cons {c : Char} {s : List Char} :
    EndsNumber (c :: s) ↔ c.isDigit = false := by
  simp [EndsNumber]

/-- The digits at the head of a text are taken up to where they end. -/
theorem takeWhile_digits {ds r : List Char} (hd : ∀ c ∈ ds, c.isDigit) (hr : EndsNumber r) :
    (ds ++ r).takeWhile Char.isDigit = ds := by
  rw [List.takeWhile_append_of_pos hd]
  cases r with
  | nil => simp
  | cons c r => simp [endsNumber_cons.1 hr]

theorem dropWhile_digits {ds r : List Char} (hd : ∀ c ∈ ds, c.isDigit) (hr : EndsNumber r) :
    (ds ++ r).dropWhile Char.isDigit = r := by
  rw [List.dropWhile_append_of_pos hd]
  cases r with
  | nil => simp
  | cons c r => simp [endsNumber_cons.1 hr]

end Switchboard.Decimal
