import Mathlib.Data.List.Basic
import Switchboard.Unicode.Alphanumeric
import Switchboard.Unicode.Lowercase

/-!
# Lower case within a text

The lower case of a text does not depend on the case of its ASCII letters (`lower_map_toLower`).
It is put together from the lower cases of its parts where they stand (`lower_append`), and those
depend on the text around them in one thing only: which capital sigmas end a word
(`lowerWithin_eq_iff`).
-/

namespace Switchboard.Unicode

/-- A function that takes each capital ASCII letter and its small one to the same value takes every
character and its lower case in ASCII to the same value. -/
theorem apply_toLower {α : Type} {f : Char → α}
    (h : ∀ n ∈ List.range' 65 26, f (Char.ofNat n).toLower = f (Char.ofNat n)) (c : Char) :
    f c.toLower = f c := by
  by_cases hc : 65 ≤ c.toNat ∧ c.toNat ≤ 90
  · have hletter := h c.toNat (List.mem_range'_1.mpr (by omega))
    rwa [Char.ofNat_toNat] at hletter
  · have hval : ¬ (c.val ≥ 'A'.val ∧ c.val ≤ 'Z'.val) := by
      simpa [UInt32.le_iff_toNat_le] using hc
    have hother : c.toLower = c := dif_neg hval
    rw [hother]

/-- A small letter is as alphanumeric as its capital. -/
theorem isAlphanumeric_toLower (c : Char) : isAlphanumeric c.toLower = isAlphanumeric c :=
  apply_toLower (by decide) c

theorem isCased_toLower (c : Char) : isCased c.toLower = isCased c :=
  apply_toLower (by decide) c

theorem isCaseIgnorable_toLower (c : Char) : isCaseIgnorable c.toLower = isCaseIgnorable c :=
  apply_toLower (by decide) c

/-- A letter and its small form have one lower case. -/
theorem lowerChar_toLower (c : Char) : lowerChar c.toLower = lowerChar c :=
  apply_toLower (by decide) c

theorem toLower_eq_sigma_iff (c : Char) : c.toLower = 'Σ' ↔ c = 'Σ' :=
  (apply_toLower (f := fun c => c = 'Σ') (by decide) c).to_iff

theorem leadsToCased_map_toLower (s : List Char) :
    leadsToCased (s.map Char.toLower) = leadsToCased s := by
  induction s with
  | nil => rfl
  | cons c s ih =>
    rw [List.map_cons, leadsToCased, leadsToCased, isCaseIgnorable_toLower, isCased_toLower, ih]

theorem lowerAfter_map_toLower (before s : List Char) :
    lowerAfter (before.map Char.toLower) (s.map Char.toLower) = lowerAfter before s := by
  induction s generalizing before with
  | nil => rfl
  | cons c s ih =>
    have hrest := ih (c :: before)
    rw [List.map_cons] at hrest
    simp only [List.map_cons, lowerAfter, toLower_eq_sigma_iff, lowerChar_toLower,
      leadsToCased_map_toLower, hrest]

/-- A text has the same lower case in small letters. -/
theorem lower_map_toLower (s : List Char) : lower (s.map Char.toLower) = lower s :=
  lowerAfter_map_toLower [] s

/-! ## Parts of a text -/

/-- Whether a capital sigma between two texts ends a word. -/
def isFinalSigma (before after : List Char) : Bool :=
  leadsToCased before.reverse && !leadsToCased after

/-- The lower case of the part `s` of a text, where it stands between `before` and `after`. -/
def lowerWithin (before : List Char) : (s after : List Char) → List Char
  | [], _ => []
  | c :: rest, after =>
    (if c = 'Σ' then (if isFinalSigma before (rest ++ after) then ['ς'] else ['σ'])
      else lowerChar c) ++ lowerWithin (before ++ [c]) rest after

/-- The lower case of two parts is that of the first within the whole, and then that of the second.
-/
theorem lowerAfter_append (before s after : List Char) :
    lowerAfter before.reverse (s ++ after) =
      lowerWithin before s after ++ lowerAfter (before ++ s).reverse after := by
  -- `lowerAfter` carries the text before in reverse, so a character moves over to its front.
  induction s generalizing before with
  | nil => simp [lowerWithin]
  | cons c s ih =>
    have hrest := ih (before ++ [c])
    rw [List.reverse_append, List.reverse_singleton, List.singleton_append,
      List.append_assoc, List.singleton_append] at hrest
    rw [List.cons_append, lowerAfter, lowerWithin, hrest, List.append_assoc]
    rfl

/-- A text is put into lower case part by part. -/
theorem lower_append (before s after : List Char) :
    lower (before ++ s ++ after) = lowerWithin [] before (s ++ after) ++
      lowerWithin before s after ++ lowerWithin (before ++ s) after [] := by
  have hbefore := lowerAfter_append [] before (s ++ after)
  have hafter := lowerAfter_append (before ++ s) after []
  rw [List.append_nil, lowerAfter, List.append_nil] at hafter
  rw [List.append_assoc, lower, List.append_assoc, ← hafter, ← lowerAfter_append]
  exact hbefore

/-- Within nothing a text has its own lower case. -/
theorem lowerWithin_nil (s : List Char) : lowerWithin [] s [] = lower s := by
  have h := lower_append [] s []
  rwa [List.nil_append, List.append_nil, lowerWithin, lowerWithin, List.nil_append,
    List.append_nil, eq_comm] at h

theorem forall_eq_append_cons_iff {c d : Char} {s : List Char} {p : List Char → List Char → Prop} :
    (∀ t u, c :: s = t ++ d :: u → p t u) ↔
      (c = d → p [] s) ∧ ∀ t u, s = t ++ d :: u → p (c :: t) u := by
  constructor
  · refine fun h => ⟨?_, ?_⟩
    · rintro rfl
      exact h [] s rfl
    · rintro t u rfl
      exact h (c :: t) u rfl
  · rintro ⟨hfirst, hrest⟩ (_ | ⟨c', t⟩) u heq
    · obtain ⟨rfl, rfl⟩ := List.cons.inj heq
      exact hfirst rfl
    · obtain ⟨rfl, rfl⟩ := List.cons.inj heq
      exact hrest t u rfl

/-- A part has the same lower case in two places exactly if each of its capital sigmas ends a word
in both or in none. -/
theorem lowerWithin_eq_iff {before before' s after after' : List Char} :
    lowerWithin before s after = lowerWithin before' s after' ↔
      ∀ t u, s = t ++ 'Σ' :: u →
        isFinalSigma (before ++ t) (u ++ after) = isFinalSigma (before' ++ t) (u ++ after') := by
  induction s generalizing before before' with
  | nil => simp [lowerWithin]
  | cons c s ih =>
    rw [forall_eq_append_cons_iff, lowerWithin, lowerWithin, List.append_nil, List.append_nil]
    have hrest : lowerWithin (before ++ [c]) s after = lowerWithin (before' ++ [c]) s after' ↔ _ :=
      ih
    simp only [List.append_assoc, List.singleton_append] at hrest
    by_cases hc : c = 'Σ'
    · -- Both forms of a small sigma are one character, so the rests begin at the same place.
      rw [if_pos hc, if_pos hc, ← hrest]
      cases isFinalSigma before (s ++ after) <;> cases isFinalSigma before' (s ++ after') <;>
        simp [hc]
    · rw [if_neg hc, if_neg hc, List.append_cancel_left_eq, hrest]
      simp [hc]

theorem lowerChar_ne_nil (c : Char) : lowerChar c ≠ [] := by
  unfold lowerChar
  split_ifs <;> exact List.cons_ne_nil _ _

/-- Only the empty text has an empty lower case. -/
theorem lower_eq_nil_iff {s : List Char} : lower s = [] ↔ s = [] := by
  cases s with
  | nil => simp [lower, lowerAfter]
  | cons c s =>
    simp only [lower, lowerAfter, List.append_eq_nil_iff, reduceCtorEq, iff_false, not_and]
    intro h
    split_ifs at h
    exact absurd h (lowerChar_ne_nil c)

end Switchboard.Unicode
