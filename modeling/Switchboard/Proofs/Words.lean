import Mathlib.Data.List.DropRight
import Mathlib.Data.List.Infix
import Switchboard.Text

/-!
# Words

White space parts a text for good: the words of two texts with white space between them are those of
the first, followed by those of the second (`Text.words_append`). Words and their stripping do not
depend on anything but the classes of their characters, so both commute with a change of characters
that keeps the classes.
-/

namespace Switchboard.Text

variable {c : Char} {s s' w needle : List Char} {f : Char → Char}

/-- White space ends the word that is begun. -/
theorem wordsFrom_append_cons (hc : isBlank c = true) (current : List Char) :
    wordsFrom current (s ++ c :: s') = wordsFrom current s ++ words s' := by
  induction s generalizing current with
  | nil => simp [wordsFrom, words, hc]
  | cons d s ih =>
    rw [List.cons_append, wordsFrom, wordsFrom]
    split
    · rw [ih, List.append_assoc]
    · exact ih _

/-- White space in a text separates its words. -/
theorem words_append_cons (hc : isBlank c = true) : words (s ++ c :: s') = words s ++ words s' :=
  wordsFrom_append_cons hc []

theorem words_append_of_forall_isBlank (hw : ∀ c ∈ w, isBlank c = true) :
    words (w ++ s) = words s := by
  induction w with
  | nil => rfl
  | cons c w ih =>
    obtain ⟨hc, hw⟩ := List.forall_mem_cons.mp hw
    exact (words_append_cons (s := []) hc).trans (ih hw)

/-- White space between two texts separates their words. -/
theorem words_append (hne : w ≠ []) (hw : ∀ c ∈ w, isBlank c = true) :
    words (s ++ (w ++ s')) = words s ++ words s' := by
  obtain ⟨c, w, rfl⟩ := List.exists_cons_of_ne_nil hne
  obtain ⟨hc, hw⟩ := List.forall_mem_cons.mp hw
  rw [List.cons_append, words_append_cons hc, words_append_of_forall_isBlank hw]

theorem wordsFrom_map (hf : ∀ c, isBlank (f c) = isBlank c) (current s : List Char) :
    wordsFrom (current.map f) (s.map f) = (wordsFrom current s).map (List.map f) := by
  induction s generalizing current with
  | nil => cases current <;> simp [wordsFrom]
  | cons c s ih =>
    rw [List.map_cons, wordsFrom, wordsFrom, hf]
    split
    · have hrest := ih []
      rw [List.map_nil] at hrest
      cases current <;> simp [hrest]
    · exact ih (c :: current)

/-- Words are changed character by character if white space stays what it is. -/
theorem words_map (hf : ∀ c, isBlank (f c) = isBlank c) (s : List Char) :
    words (s.map f) = (words s).map (List.map f) :=
  wordsFrom_map hf [] s

/-! ## Stripping -/

theorem strip_eq_rdropWhile (p : Char → Bool) (s : List Char) :
    strip p s = (s.dropWhile p).rdropWhile p :=
  rfl

/-- Nothing is left exactly if every character goes. -/
theorem strip_eq_nil_iff {p : Char → Bool} : strip p s = [] ↔ ∀ c ∈ s, p c = true := by
  rw [strip_eq_rdropWhile, List.rdropWhile_eq_nil_iff]
  constructor
  · intro h
    refine List.dropWhile_eq_nil_iff.mp (List.eq_nil_iff_forall_not_mem.mpr fun c hc => ?_)
    -- Otherwise the rest begins with a character that stops the stripping.
    have hpos : 0 < (s.dropWhile p).length := List.length_pos_of_mem hc
    exact List.dropWhile_get_zero_not p s hpos (h _ (List.get_mem _ _))
  · exact fun h c hc => h c ((List.dropWhile_sublist p).subset hc)

/-- A text is stripped already exactly if neither end has a character that goes. -/
theorem strip_eq_self_iff {p : Char → Bool} :
    strip p s = s ↔ s.head?.any p = false ∧ s.getLast?.any p = false := by
  have hhead : s.dropWhile p = s ↔ s.head?.any p = false := by
    cases s <;> simp [List.dropWhile_eq_self_iff]
  have hlast : s.rdropWhile p = s ↔ s.getLast?.any p = false := by
    rw [List.rdropWhile_eq_self_iff]
    cases hs : s.getLast? with
    | none => simp [List.getLast?_eq_none_iff.mp hs]
    | some c =>
      obtain ⟨s, rfl⟩ := List.getLast?_eq_some_iff.mp hs
      simp
  rw [strip_eq_rdropWhile, ← hhead, ← hlast]
  constructor
  · intro h
    have hlength := (List.rdropWhile_prefix p (s.dropWhile p)).length_le
    rw [h] at hlength
    have hdrop : s.dropWhile p = s :=
      (List.dropWhile_sublist p).eq_of_length_le hlength
    rw [hdrop] at h
    exact ⟨hdrop, h⟩
  · rintro ⟨hdrop, hrdrop⟩
    rw [hdrop, hrdrop]

theorem strip_subset (p : Char → Bool) (s : List Char) : strip p s ⊆ s := by
  rw [strip_eq_rdropWhile]
  exact List.Subset.trans (List.rdropWhile_prefix p _).subset (List.dropWhile_sublist p).subset

/-- Stripping again changes nothing. -/
theorem strip_strip (p : Char → Bool) (s : List Char) : strip p (strip p s) = strip p s := by
  have hfront : (strip p s).dropWhile p = strip p s := by
    -- What is left begins with the character that stopped the stripping at the front.
    have hfirst := List.head?_dropWhile_not p s
    obtain ⟨rest, hrest⟩ := List.rdropWhile_prefix p (s.dropWhile p)
    rw [← strip_eq_rdropWhile] at hrest
    cases hs : strip p s with
    | nil => rfl
    | cons c cs =>
      rw [← hrest, hs] at hfirst
      exact List.dropWhile_cons_of_neg (by simpa using hfirst)
  rw [strip_eq_rdropWhile, hfront, strip_eq_rdropWhile, List.rdropWhile_idempotent]

theorem strip_map {p : Char → Bool} (hf : ∀ c, p (f c) = p c) (s : List Char) :
    strip p (s.map f) = (strip p s).map f := by
  have hp : p ∘ f = p := funext hf
  simp only [strip, List.dropWhile_map, hp, ← List.map_reverse]

/-- A text is found exactly where it stands. -/
theorem occursIn_iff : occursIn needle s = true ↔ needle <:+: s := by
  induction s with
  | nil => simp [occursIn]
  | cons c rest ih => simp [occursIn, ih, List.infix_cons_iff]

end Switchboard.Text
