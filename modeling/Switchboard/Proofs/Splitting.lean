import Switchboard.Text

/-!
# Splitting

What `List.splitOn` and `String.intercalate` do to characters and texts: cut where a separator
stands, the two parts have the pieces of the whole. Lines are the pieces between line breaks.
-/

namespace Switchboard.Text

variable {sep : Char}

/-- A piece has only characters of the text, and not the separator. -/
theorem mem_of_mem_splitOn {s piece : List Char} {c : Char} (hp : piece ∈ s.splitOn sep)
    (hc : c ∈ piece) : c ∈ s ∧ c ≠ sep := by
  induction s generalizing piece with
  | nil =>
    rw [List.splitOn_nil, List.mem_singleton] at hp
    rw [hp] at hc
    cases hc
  | cons d rest ih =>
    rw [List.splitOn_cons_eq_if_modifyHead] at hp
    split at hp
    · rcases List.mem_cons.1 hp with rfl | hp
      · cases hc
      · exact (ih hp hc).imp_left (List.mem_cons_of_mem d)
    · next hd =>
      obtain ⟨first, pieces, hsplit⟩ :=
        List.exists_cons_of_ne_nil (List.splitOn_ne_nil sep rest)
      rw [hsplit] at hp ih
      rcases List.mem_cons.1 hp with rfl | hp
      · rcases List.mem_cons.1 hc with rfl | hc
        · exact ⟨List.mem_cons_self, by simpa using hd⟩
        · exact (ih List.mem_cons_self hc).imp_left (List.mem_cons_of_mem d)
      · exact (ih (List.mem_cons_of_mem first hp) hc).imp_left (List.mem_cons_of_mem d)

/-- What stands in joined pieces stands in a separator or in a piece. -/
theorem mem_intercalate {sep : List Char} {pieces : List (List Char)} {c : Char}
    (h : c ∈ sep.intercalate pieces) : c ∈ sep ∨ ∃ piece ∈ pieces, c ∈ piece := by
  induction pieces with
  | nil => cases h
  | cons piece rest ih =>
    cases rest with
    | nil =>
      rw [List.intercalate_singleton] at h
      exact .inr ⟨piece, List.mem_cons_self, h⟩
    | cons next rest =>
      rw [List.intercalate_cons_cons, List.mem_append, List.mem_append] at h
      rcases h with (h | h) | h
      · exact .inr ⟨piece, List.mem_cons_self, h⟩
      · exact .inl h
      · exact (ih h).imp_right fun ⟨p, hp, hc⟩ => ⟨p, List.mem_cons_of_mem piece hp, hc⟩

/-- Two rows of pieces are joined by a separator between them. -/
theorem intercalate_append {xs ys : List (List Char)} (hxs : xs ≠ []) (hys : ys ≠ []) :
    [sep].intercalate (xs ++ ys) = [sep].intercalate xs ++ sep :: [sep].intercalate ys := by
  induction xs with
  | nil => exact absurd rfl hxs
  | cons x rest ih =>
    rw [List.cons_append, List.intercalate_cons_of_ne_nil (by simp [hys])]
    by_cases hrest : rest = []
    · simp [hrest]
    · rw [ih hrest, List.intercalate_cons_of_ne_nil hrest, List.append_assoc]
      simp

/-- Some first pieces of a text and the others are the pieces of two texts with a separator
between them. -/
theorem exists_of_splitOn_eq_append {s : List Char} {xs ys : List (List Char)} (hxs : xs ≠ [])
    (hys : ys ≠ []) (h : s.splitOn sep = xs ++ ys) :
    ∃ t u, s = t ++ sep :: u ∧ t.splitOn sep = xs := by
  have hs : [sep].intercalate (s.splitOn sep) = s := List.intercalate_splitOn sep
  have hsep : ∀ piece ∈ xs, sep ∉ piece := fun piece hpiece hc =>
    (mem_of_mem_splitOn (h ▸ List.mem_append_left ys hpiece) hc).2 rfl
  refine ⟨[sep].intercalate xs, [sep].intercalate ys, ?_, List.splitOn_intercalate sep hsep hxs⟩
  rw [← intercalate_append hxs hys, ← h, hs]

/-- Only the empty text is one empty piece. -/
theorem splitOn_eq_nil_piece {s : List Char} (h : s.splitOn sep = [[]]) : s = [] := by
  have hs : [sep].intercalate (s.splitOn sep) = s := List.intercalate_splitOn sep
  rw [← hs, h, List.intercalate_singleton]

/-- There is one piece more than there are separators. -/
theorem length_splitOn (s : List Char) : (s.splitOn sep).length = s.count sep + 1 := by
  induction s with
  | nil => rfl
  | cons c rest ih =>
    rw [List.splitOn_cons_eq_if_modifyHead]
    by_cases hc : c = sep
    · simp [hc, ih]
    · simp [hc, ih, List.count_cons_of_ne]

/-- A text that is itself joined of two stands for both. -/
theorem intercalate_append_cons (w : String) (before after : List String) (s t : String) :
    w.intercalate (before ++ (s ++ w ++ t) :: after) =
      w.intercalate (before ++ s :: t :: after) := by
  induction before with
  | nil => cases after <;> simp [String.append_assoc]
  | cons b rest ih =>
    rw [List.cons_append, String.intercalate_cons_of_ne_nil (by simp), ih, List.cons_append,
      String.intercalate_cons_of_ne_nil (by simp)]

section Strings

variable {w : String} (hw : w.toList = [sep])
include hw

/-- Texts with a separator between them have the pieces of both. -/
theorem splitOn_toList_append (s t : String) :
    (s ++ w ++ t).toList.splitOn sep = s.toList.splitOn sep ++ t.toList.splitOn sep := by
  rw [← List.splitOn_append_cons_self]
  simp [hw]

/-- Joined texts have the pieces of all of them. -/
theorem splitOn_intercalate {l : List String} (hl : l ≠ []) :
    (w.intercalate l).toList.splitOn sep = l.flatMap fun s => s.toList.splitOn sep := by
  induction l with
  | nil => exact absurd rfl hl
  | cons s rest ih =>
    by_cases hrest : rest = []
    · simp [hrest]
    · rw [String.intercalate_cons_of_ne_nil hrest, splitOn_toList_append hw, ih hrest,
        List.flatMap_cons]

end Strings

/-- The texts between line breaks. -/
def lines (s : String) : List String :=
  (s.toList.splitOn '\n').map String.ofList

/-- A line break parts the lines before it from those after it. -/
theorem lines_append (s t : String) : lines (s ++ "\n" ++ t) = lines s ++ lines t := by
  rw [lines, splitOn_toList_append rfl, List.map_append, lines, lines]

/-- No line break stands in a line. -/
theorem not_mem_of_mem_lines {s line : String} (h : line ∈ lines s) : '\n' ∉ line.toList := by
  obtain ⟨piece, hpiece, rfl⟩ := List.mem_map.1 h
  rw [String.toList_ofList]
  exact fun hmem => (mem_of_mem_splitOn hpiece hmem).2 rfl

theorem lines_of_not_mem {s : String} (h : '\n' ∉ s.toList) : lines s = [s] := by
  simp [lines, List.splitOn_eq_singleton h]

/-- There is one line more than there are line breaks. -/
theorem length_lines (s : String) : (lines s).length = s.toList.count '\n' + 1 := by
  rw [lines, List.length_map, length_splitOn]

/-- A text is one line exactly if no line break stands in it. -/
theorem length_lines_eq_one_iff {s : String} : (lines s).length = 1 ↔ '\n' ∉ s.toList := by
  rw [length_lines, Nat.add_eq_right, List.count_eq_zero]

/-- Texts joined by line breaks have the lines of all of them. -/
theorem lines_intercalate {l : List String} (hl : l ≠ []) :
    lines ("\n".intercalate l) = l.flatMap lines := by
  rw [lines, splitOn_intercalate rfl hl, List.map_flatMap]
  rfl

end Switchboard.Text
