import Mathlib

/-!
# A number divided by itself

Whatever has at least 53 bits is rounded to a number with exactly as many that has the same
magnitude, or the next one (`exists_unpack_pack_round`). So a natural number is converted to a
finite number (`exists_unpack_ofNat`), and its quotient by itself is one (`ofNat_div_self`).
-/

namespace Switchboard.Decimal

open Float.Model Float.Model.UnpackedFloat

variable {m n : ℕ} {e : ℤ} {s : Sign} {a : Accuracy}

/-- A shift to the left moves the leading bit up. -/
theorem log2_shiftLeft (hm : m ≠ 0) (n : ℕ) : (m <<< n).log2 = m.log2 + n := by
  induction n with
  | zero => rfl
  | succ n ih => rw [Nat.shiftLeft_succ, Nat.log2_two_mul (by simpa [Nat.shiftLeft_eq]), ih]; rfl

/-- Division by a power of two moves the leading bit down. -/
theorem log2_div_two_pow (m n : ℕ) : (m / 2 ^ n).log2 = m.log2 - n := by
  rw [Nat.log2_eq_log_two, Nat.log2_eq_log_two, Nat.log_div_base_pow]

theorem mantissa_shiftRight (em : ExtendedMantissa) (n : ℕ) :
    (em >>> n).mantissa = em.mantissa / 2 ^ n := by
  induction n with
  | zero => simp [HShiftRight.hShiftRight, Nat.repeat]
  | succ n ih =>
    change (em >>> n).mantissa / 2 = _
    rw [ih, Nat.div_div_eq_div_mul, pow_succ]

theorem mantissa_ofMantissaAndAccuracy (m : ℕ) (a : Accuracy) :
    (ExtendedMantissa.ofMantissaAndAccuracy m a).mantissa = m := by
  rcases a with _ | ⟨_ | _ | _⟩ <;> rfl

/-- Rounding leaves a mantissa as it is or adds one. -/
theorem roundedMantissa_bounds (em : ExtendedMantissa) :
    em.mantissa ≤ em.roundedMantissa ∧ em.roundedMantissa ≤ em.mantissa + 1 := by
  rcases em with ⟨m, _ | _, _ | _⟩ <;>
    simp [ExtendedMantissa.roundedMantissa, ExtendedMantissa.accuracy, Accuracy.roundToNearestEven]
  omega

/-- A mantissa of at least 53 bits is cut to the first 53. -/
theorem shiftToTargetExponent_eq (hm : 52 ≤ m.log2) (he : -1022 ≤ e + m.log2) (a : Accuracy) :
    (shiftToTargetExponent .binary64 m e a).1.mantissa = m / 2 ^ (m.log2 - 52) ∧
      (shiftToTargetExponent .binary64 m e a).2 = e + (m.log2 - 52 : ℕ) := by
  have htarget : Format.binary64.targetExponent (totalExponent m e) = e + (m.log2 - 52 : ℕ) := by
    simp only [Format.targetExponent, totalExponent, Format.mantissaBits, Format.minExponent]
    omega
  simp [shiftToTargetExponent, shiftToExponent, htarget, mantissa_shiftRight,
    mantissa_ofMantissaAndAccuracy]

/-- A number of at least 53 bits in the normal range is rounded to one of 53 bits, with a leading
bit at most one place higher. -/
theorem exists_roundWithAccuracy (hm : 52 ≤ m.log2) (he : -1022 ≤ e + m.log2) :
    ∃ m' e' hm', roundWithAccuracy .binary64 s m e a = .finite s m' e' hm' ∧ m'.log2 = 52 ∧
      e + m.log2 ≤ e' + 52 ∧ e' + 52 ≤ e + m.log2 + 1 := by
  obtain ⟨hmantissa, hexponent⟩ := shiftToTargetExponent_eq hm he a
  obtain ⟨hlow, hhigh⟩ := roundedMantissa_bounds (shiftToTargetExponent .binary64 m e a).1
  unfold roundWithAccuracy
  generalize shiftToTargetExponent .binary64 m e a = first at *
  obtain ⟨em, e₁⟩ := first
  dsimp only at *
  have hlog : em.mantissa.log2 = 52 := by rw [hmantissa, log2_div_two_pow]; omega
  have hpos : em.mantissa ≠ 0 := by
    intro h
    simp [h] at hlog
  obtain ⟨hge, hlt⟩ := (Nat.log2_eq_iff hpos).mp hlog
  -- Rounding up may carry into a further bit, which is then cut as well.
  have hlog' : 52 ≤ em.roundedMantissa.log2 ∧ em.roundedMantissa.log2 < 54 :=
    ⟨(Nat.le_log2 (by omega)).mpr (by omega), (Nat.log2_lt (by omega)).mpr (by omega)⟩
  obtain ⟨hmantissa', hexponent'⟩ :=
    shiftToTargetExponent_eq hlog'.1 (e := e₁) (by omega) .exact
  have hlog'' : (em.roundedMantissa / 2 ^ (em.roundedMantissa.log2 - 52)).log2 = 52 := by
    rw [log2_div_two_pow]
    omega
  rw [← hmantissa'] at hlog''
  have hpos' : (shiftToTargetExponent .binary64 em.roundedMantissa e₁ .exact).1.mantissa ≠ 0 := by
    intro h
    simp [h] at hlog''
  refine ⟨_, _, Nat.pos_of_ne_zero hpos', dif_neg hpos', hlog'', ?_, ?_⟩ <;> omega

/-- The sign is unpacked as it was packed. -/
theorem sign_packComponents (s : Sign) (exponent : BitVec 11) (mantissa : BitVec 52) :
    Sign.ofBitVec (unpackSign (packComponents .binary64 s exponent mantissa)) = s := by
  simp only [unpackSign, packComponents, BitVec.extractLsb]
  rw [BitVec.extractLsb'_append_eq_of_le (by simp), BitVec.extractLsb'_append_eq_of_le (by simp)]
  cases s <;> rfl

/-- The first bit of a mantissa is not written down. -/
theorem toNat_implicit (hlog : m.log2 = 52) : (1#1 ++ BitVec.ofNat 52 m).toNat = m := by
  obtain ⟨hge, hlt⟩ := (Nat.log2_eq_iff (by rintro rfl; simp at hlog)).mp hlog
  have hmod : m % 2 ^ 52 < 2 ^ 52 := Nat.mod_lt _ (by simp)
  rw [BitVec.toNat_append, BitVec.toNat_ofNat, BitVec.toNat_ofNat,
    ← Nat.shiftLeft_add_eq_or_of_lt hmod]
  omega

/-- What has exactly as many bits as there is room for is packed without loss. -/
theorem unpack_pack (hm : 0 < m) (hlog : m.log2 = 52) (he : -1074 ≤ e) (he' : e ≤ 971) :
    (Float.Model.pack (.finite s m e hm)).unpack = .finite s m e hm := by
  have hbiased : (e + Format.binary64.exponentBias + (52 : ℕ)).toNat = (e + 1075).toNat := by
    simp [Format.exponentBias, add_assoc]
  have hexponent : (BitVec.ofNat 11 (e + 1075).toNat).toNat = (e + 1075).toNat := by
    rw [BitVec.toNat_ofNat, Nat.mod_eq_of_lt (by omega)]
  have hvalue {b : BitVec 11} (h : BitVec.ofNat 11 (e + 1075).toNat = b) :
      (e + 1075).toNat = b.toNat := by rw [← h, hexponent]
  have hones : BitVec.ofNat 11 (e + 1075).toNat ≠ -1#11 := fun h => by
    have hmax : (e + 1075).toNat = 2047 := hvalue h
    omega
  have hzero : BitVec.ofNat 11 (e + 1075).toNat ≠ 0#11 := fun h => by
    have hmin : (e + 1075).toNat = 0 := hvalue h
    omega
  change UnpackedFloat.unpack .binary64 (UnpackedFloat.pack .binary64 _) = _
  rw [UnpackedFloat.pack]
  simp only [hlog, hbiased]
  rw [if_neg (by omega), if_pos (by rfl), UnpackedFloat.unpack]
  simp only [unpackMantissa_packComponents, unpackExponent_packComponents, sign_packComponents]
  rw [if_neg hones, if_neg hzero]
  congr 1
  · exact toNat_implicit hlog
  · rw [hexponent]
    simp [Format.exponentBias]
    omega

/-! ## Finite numbers -/

/-- Rounded, packed and unpacked again, a number in the normal range is finite and has 53 bits. -/
theorem exists_unpack_pack_round (hm : 52 ≤ m.log2) (he : -1022 ≤ e + m.log2)
    (he' : e + m.log2 ≤ 1022) :
    ∃ m' e' hm', (Float.Model.pack (roundWithAccuracy .binary64 s m e a)).unpack =
      .finite s m' e' hm' ∧ m'.log2 = 52 ∧ e + m.log2 ≤ e' + 52 ∧ e' + 52 ≤ e + m.log2 + 1 := by
  obtain ⟨m', e', hm', hround, hlog, hle, hge⟩ := exists_roundWithAccuracy hm he
  rw [hround]
  exact ⟨m', e', hm', unpack_pack hm' hlog (by omega) (by omega), hlog, hle, hge⟩

/-- The quotient of a finite number by itself is one. -/
theorem div_self_of_unpack {x : Float} {hm : 0 < m} (h : x.toModel.unpack = .finite s m e hm) :
    x / x = 1 := by
  change Float.ofModel (.pack (UnpackedFloat.div .binary64 x.toModel.unpack x.toModel.unpack)) = 1
  rw [h]
  have hcore : divCore .binary64 m e m e = (2 ^ 53, -53, .exact) := by
    have htarget : Format.binary64.targetExponent 0 = -53 := by decide
    simp [divCore, htarget, Nat.shiftLeft_eq, accuracyOfFraction, hm]
  have hsign : s / s = .positive := by cases s <;> rfl
  simp only [UnpackedFloat.div, hcore, hsign]
  rfl

/-- A positive number below `2 ^ 53` becomes a finite one of 53 bits. -/
theorem exists_unpack_toFloat (hn : 0 < n) (hlt : n < 2 ^ 53) :
    ∃ m e hm, n.toUInt64.toFloat.toModel.unpack = .finite .positive m e hm ∧ m.log2 = 52 ∧
      0 ≤ e + 52 ∧ e + 52 ≤ 53 := by
  have hlog : n.log2 < 53 := (Nat.log2_lt hn.ne').mpr hlt
  have htoNat : n.toUInt64.toNat = n := by simp; omega
  have htarget : Format.binary64.targetExponent (totalExponent n 0) = n.log2 - 52 := by
    simp only [Format.targetExponent, totalExponent, Format.mantissaBits, Format.minExponent]
    omega
  have hshift : (0 - ((n.log2 : ℤ) - 52)).toNat = 52 - n.log2 := by omega
  have hlog' : (n <<< (52 - n.log2)).log2 = 52 := by
    rw [log2_shiftLeft hn.ne']
    omega
  have hround : n.toUInt64.toFloat.toModel = .pack (roundWithAccuracy .binary64 .positive
      (n <<< (52 - n.log2)) (0 - (52 - n.log2 : ℕ)) .exact) := by
    change Float.Model.pack (normalize .binary64 n.toUInt64.toNat 0 .positive) = _
    rw [htoNat, UnpackedFloat.normalize, Int.compare_eq_gt.mpr (by omega)]
    simp only [Int.toNat_natCast, UnpackedFloat.round, htarget, decreaseExponent, hshift]
  rw [hround]
  obtain ⟨m, e, hm, hunpack, hm', hle, hge⟩ :=
    exists_unpack_pack_round (e := 0 - (52 - n.log2 : ℕ)) (s := .positive) (a := .exact)
      hlog'.ge (by omega) (by omega)
  exact ⟨m, e, hm, hunpack, hm', by omega, by omega⟩

/-- A natural number is converted to a finite number. -/
theorem exists_unpack_ofNat (hn : 0 < n) (hlt : n < 2 ^ 64) :
    ∃ m e hm, (Float.ofNat n).toModel.unpack = .finite .positive m e hm := by
  have hlog : n.log2 < 64 := (Nat.log2_lt hn.ne').mpr hlt
  change ∃ m e hm, (Float.ofScientific n false 0).toModel.unpack = .finite .positive m e hm
  unfold Float.ofScientific
  split
  case isTrue h =>
    obtain ⟨m, e, hm, hunpack, hbits, hle, hge⟩ := exists_unpack_toFloat hn h.1
    have hone : (1 : Float).toModel.unpack = .finite .positive (2 ^ 52) (-52) (by simp) := rfl
    have hlog' : (m * 2 ^ 52).log2 = 104 := by
      rw [← Nat.shiftLeft_eq, log2_shiftLeft hm.ne', hbits]
    obtain ⟨m', e', hm', hunpack', -⟩ := exists_unpack_pack_round (m := m * 2 ^ 52)
      (e := e + -52) (s := .positive) (a := .exact) (by omega) (by omega) (by omega)
    refine ⟨m', e', hm', Eq.trans ?_ hunpack'⟩
    change (Float.Model.pack (UnpackedFloat.mul .binary64 n.toUInt64.toFloat.toModel.unpack
      (1 : Float).toModel.unpack)).unpack = _
    rw [hunpack, hone]
    rfl
  case isFalse h =>
    have hlog' : ((n <<< 53) * 1).log2 = n.log2 + 53 := by
      rw [mul_one, log2_shiftLeft hn.ne']
    obtain ⟨m', e', hm', hunpack', -⟩ := exists_unpack_pack_round (m := (n <<< 53) * 1)
      (e := -53 + 0) (s := .positive) (a := .exact) (by omega) (by omega) (by omega)
    refine ⟨m', e', hm', Eq.trans ?_ hunpack'⟩
    change (Float.Model.pack (UnpackedFloat.ofScientific .binary64 n 0)).unpack = _
    rw [UnpackedFloat.ofScientific, dif_neg hn.ne', if_neg (by simp), if_neg (by simp),
      if_pos le_rfl]
    rfl

/-- As floating point numbers, a positive number of 64 bits divided by itself is one. -/
theorem ofNat_div_self (hn : 0 < n) (hlt : n < 2 ^ 64) : Float.ofNat n / Float.ofNat n = 1 := by
  obtain ⟨m, e, hm, hunpack⟩ := exists_unpack_ofNat hn hlt
  exact div_self_of_unpack hunpack

end Switchboard.Decimal
