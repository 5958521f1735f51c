import Switchboard.Proofs.Decimal.Quotient
import Switchboard.Proofs.Words
import Switchboard.Relevance

/-!
# Tokens

White space parts a text for good: the tokens of two texts with white space between them are those
of the first, followed by those of the second (`tokens_append`). A token is matched if it stands in
some token of the text (`isMatched_iff`), so a text that has all tokens of a query has score one
(`scoreTokens_eq_one`).
-/

namespace Switchboard.Relevance

open Text

variable {s s' w : List Char} {q : List Char} {query query' content content' : List (List Char)}

/-- White space between two texts separates their tokens. -/
theorem tokens_append (hne : w ≠ []) (hw : ∀ c ∈ w, isBlank c = true) :
    tokens (s ++ (w ++ s')) = tokens s ++ tokens s' := by
  simp only [tokens, words_append hne hw, List.map_append, List.filter_append]

theorem tokens_subset (h : words s ⊆ words s') : tokens s ⊆ tokens s' := by
  intro t ht
  obtain ⟨hmem, hne⟩ := List.mem_filter.mp ht
  exact List.mem_filter.mpr ⟨List.map_subset _ h hmem, hne⟩

theorem tokens_perm (h : (words s).Perm (words s')) : (tokens s).Perm (tokens s') :=
  (h.map _).filter _

/-- A token is matched exactly if it stands in a token of the content. -/
theorem isMatched_iff : isMatched content q = true ↔ ∃ c ∈ content, q <:+: c := by
  simp only [isMatched, List.any_eq_true, occursIn_iff]

theorem isMatched_of_mem (h : q ∈ content) : isMatched content q = true :=
  isMatched_iff.mpr ⟨q, h, List.infix_rfl⟩

theorem isMatched_of_subset (h : content ⊆ content') (hq : isMatched content q = true) :
    isMatched content' q = true := by
  obtain ⟨c, hc, hqc⟩ := isMatched_iff.mp hq
  exact isMatched_iff.mpr ⟨c, h hc, hqc⟩

/-- Matches are counted token by token. -/
theorem matchCount_append : matchCount (query ++ query') content =
    matchCount query content + matchCount query' content :=
  List.countP_append

theorem matchCount_le_length : matchCount query content ≤ query.length :=
  List.countP_le_length

/-- All tokens are matched exactly if each stands in a token of the content. -/
theorem matchCount_eq_length_iff : matchCount query content = query.length ↔
    ∀ q ∈ query, ∃ c ∈ content, q <:+: c := by
  simp only [matchCount, List.countP_eq_length, isMatched_iff]

/-- Tokens that are among those of the content are all matched. -/
theorem matchCount_of_subset (h : query ⊆ content) : matchCount query content = query.length :=
  List.countP_eq_length.mpr fun _ hq => isMatched_of_mem (h hq)

/-- More content matches no fewer tokens. -/
theorem matchCount_mono (h : content ⊆ content') :
    matchCount query content ≤ matchCount query content' :=
  List.countP_mono_left fun _ _ => isMatched_of_subset h

/-- A score tells nothing but the number of tokens and how many of them are matched. -/
theorem scoreTokens_congr (hlength : query.length = query'.length)
    (hcount : matchCount query content = matchCount query' content') :
    scoreTokens query content = scoreTokens query' content' := by
  simp only [scoreTokens, List.isEmpty_iff_length_eq_zero, hlength, hcount]

/-- The share is exact if all tokens occur, as long as they can be counted in 64 bits. -/
theorem scoreTokens_eq_one (hne : query ≠ []) (hlt : query.length < 2 ^ 64)
    (h : matchCount query content = query.length) : scoreTokens query content = 1 := by
  rw [scoreTokens, if_neg (by simpa using hne), h]
  exact Decimal.ofNat_div_self (List.length_pos_iff.mpr hne) hlt

end Switchboard.Relevance
