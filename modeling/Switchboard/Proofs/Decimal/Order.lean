import Mathlib

/-!
# Floating point numbers in order

A floating point number has a place among the numbers (`magnitude`), unless it is none. One is
at most another exactly if both have places and these are in order, so the comparison is
transitive although not every number is at most itself.
-/

namespace Switchboard.Decimal

open Float.Model

/-- The place of a number: on which side of zero and how far it lies. -/
def magnitude : UnpackedFloat → Option (ℤ ×ₗ ℤ ×ₗ ℤ)
  | .notANumber => none
  | .infinity s => some (toLex (s.apply 2, toLex (0, 0)))
  | .zero _ => some (toLex (0, toLex (0, 0)))
  | .finite s m e _ => some (toLex (s.apply 1, toLex (s.apply e, s.apply m)))

theorem isLE_compare_iff {e e' : ℤ} {m m' : ℕ} :
    ((compare e e').then (compare m m')).isLE = true ↔ e < e' ∨ e = e' ∧ m ≤ m' := by
  rcases lt_trichotomy e e' with h | rfl | h
  · simp [compare_lt_iff_lt.mpr h, h]
  · simp [Nat.isLE_compare]
  · simp [compare_gt_iff_gt.mpr h, h.not_gt, h.ne']

theorem isGE_compare_iff {e e' : ℤ} {m m' : ℕ} :
    ((compare e e').then (compare m m')).isGE = true ↔ e' < e ∨ e = e' ∧ m' ≤ m := by
  rw [← Ordering.isLE_swap, Ordering.swap_then, Int.compare_swap, Nat.compare_swap,
    isLE_compare_iff, eq_comm]

/-- Unpacked numbers compare as their magnitudes do, and a NaN, which has none, is below no number
and above none. -/
theorem le_iff_magnitude {a b : UnpackedFloat} :
    a.le b = true ↔ ∃ x ∈ magnitude a, ∃ y ∈ magnitude b, x ≤ y := by
  rcases a with ⟨⟨⟩⟩ | _ | _ | ⟨⟨⟩, m, e, hm⟩ <;>
    rcases b with ⟨⟨⟩⟩ | _ | _ | ⟨⟨⟩, m', e', hm'⟩ <;>
    simp [UnpackedFloat.le, UnpackedFloat.compare, magnitude, Prod.Lex.toLex_le_toLex,
      UnpackedFloat.Sign.apply, isLE_compare_iff, isGE_compare_iff] <;> rfl

/-- The order of floating point numbers is that of their magnitudes. -/
theorem le_iff {x y : Float} :
    x ≤ y ↔ ∃ a ∈ magnitude x.toModel.unpack, ∃ b ∈ magnitude y.toModel.unpack, a ≤ b :=
  decide_eq_true_iff.trans le_iff_magnitude

/-- The order of floating point numbers is transitive, although a NaN is not below itself. -/
theorem le_trans {x y z : Float} (hxy : x ≤ y) (hyz : y ≤ z) : x ≤ z := by
  obtain ⟨a, ha, b, hb, hab⟩ := le_iff.mp hxy
  obtain ⟨b', hb', c, hc, hbc⟩ := le_iff.mp hyz
  obtain rfl := Option.mem_unique hb hb'
  exact le_iff.mpr ⟨a, ha, c, hc, hab.trans hbc⟩

end Switchboard.Decimal
