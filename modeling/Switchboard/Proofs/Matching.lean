import Switchboard.Proofs.Tokens
import Switchboard.Proofs.Unicode.Lowercase

/-!
# What a query finds

The tokens of a text are those of its words, so what a query finds in a text adds up over the words
of the query and depends on nothing but the set of the words of the text; and it does not depend on
the case of ASCII letters (`word_by_word`).

A token is the lower case of a stripped word. Where a stripped word stands in another, its lower
case stands in that of the other, unless a capital sigma ends the one and not the other. This is
the only way in which a literal occurrence is missed (`literal_occurrences`).
-/

namespace Switchboard.Relevance

open Text Unicode

/-- How many tokens of a query a text has. -/
def found (query content : String) : ℕ :=
  matchCount (tokens query.toList) (tokens content.toList)

/-- The token of a word is the same in small letters. -/
theorem tokenOfWord_map_toLower (w : List Char) :
    tokenOfWord (w.map Char.toLower) = tokenOfWord w := by
  have hclass : ∀ c : Char, (!isAlphanumeric c.toLower) = !isAlphanumeric c := fun c => by
    rw [isAlphanumeric_toLower]
  rw [tokenOfWord, strip_map hclass, lower_map_toLower, tokenOfWord]

theorem isBlank_toLower (c : Char) : isBlank c.toLower = isBlank c :=
  apply_toLower (by decide) c

theorem toList_toLower (text : String) : text.toLower.toList = text.toList.map Char.toLower :=
  String.toList_map

/-- The tokens of a text are the same in small letters. -/
theorem tokens_toLower (text : String) : tokens text.toLower.toList = tokens text.toList := by
  rw [toList_toLower, tokens, words_map isBlank_toLower, List.map_map, tokens]
  congr 2
  exact funext tokenOfWord_map_toLower

theorem tokens_eq_of_toLower {text text' : String} (h : text.toLower = text'.toLower) :
    tokens text.toList = tokens text'.toList := by
  rw [← tokens_toLower, h, tokens_toLower]

/-- White space between two texts separates their tokens. -/
theorem tokens_append_strings {a b w : String} (hne : w ≠ "") (hw : isBlankString w = true) :
    tokens (a ++ w ++ b).toList = tokens a.toList ++ tokens b.toList := by
  rw [String.toList_append, String.toList_append, List.append_assoc]
  exact tokens_append (by simpa using hne) (by simpa [isBlankString] using hw)

/-! ## Word by word -/

/-- White space between two texts parts their tokens. So a query finds in a text what its words
find, at most all of them; it finds no less if words are added to the text, and its score does not
depend on the order of its words, on order and number of those of the text, or on the case of ASCII
letters. A text with tokens finds all of them in itself, which is a score of one as long as they can
be counted in 64 bits. -/
theorem word_by_word :
    (∀ a b w : String, w ≠ "" → isBlankString w = true →
      tokens (a ++ w ++ b).toList = tokens a.toList ++ tokens b.toList ∧
      ∀ content, found (a ++ w ++ b) content = found a content + found b content) ∧
    (∀ query content, found query content ≤ (tokens query.toList).length) ∧
    (∀ query content content' : String, words content.toList ⊆ words content'.toList →
      found query content ≤ found query content') ∧
    (∀ query content content' : String, words content.toList ⊆ words content'.toList →
      words content'.toList ⊆ words content.toList → score query content = score query content') ∧
    (∀ query query' content : String, (words query.toList).Perm (words query'.toList) →
      score query content = score query' content) ∧
    (∀ query query' content content' : String, query.toLower = query'.toLower →
      content.toLower = content'.toLower → score query content = score query' content') ∧
    ∀ text : String, tokens text.toList ≠ [] →
      found text text = (tokens text.toList).length ∧
      ((tokens text.toList).length < 2 ^ 64 → score text text = 1) := by
  refine ⟨fun a b w hne hw => ?_, fun _ _ => matchCount_le_length, fun _ _ _ h => ?_,
    fun _ _ _ h h' => ?_, fun _ _ _ h => ?_, fun _ _ _ _ hquery hcontent => ?_,
    fun text hne => ?_⟩
  · have htokens := tokens_append_strings (a := a) (b := b) hne hw
    refine ⟨htokens, fun content => ?_⟩
    rw [found, htokens, matchCount_append, found, found]
  · exact matchCount_mono (tokens_subset h)
  · exact scoreTokens_congr rfl
      ((matchCount_mono (tokens_subset h)).antisymm (matchCount_mono (tokens_subset h')))
  · have hperm := tokens_perm h
    exact scoreTokens_congr hperm.length_eq (hperm.countP_eq _)
  · rw [score, score, tokens_eq_of_toLower hquery, tokens_eq_of_toLower hcontent]
  · have hself : found text text = (tokens text.toList).length :=
      matchCount_of_subset (List.Subset.refl _)
    exact ⟨hself, fun hlt => scoreTokens_eq_one hne hlt hself⟩

/-- Words in another order, more often and in other letters. -/
theorem found_in_greeting :
    isBlankString "\n " = true ∧
      tokens ("Good" ++ "\n " ++ "luck!").toList = tokens "Good".toList ++ tokens "luck!".toList ∧
      (words "Good luck".toList).Perm (words "luck Good".toList) ∧
      score "Good luck" "Good afternoon" = score "luck Good" "Good afternoon" ∧
      score "good LUCK" "good afternoon" = score "Good luck" "Good afternoon" ∧
      score "Good luck" "Good luck" = 1 := by
  obtain ⟨happend, -, -, -, hperm, hcase, hself⟩ := word_by_word
  have hblank : isBlankString "\n " = true := by decide
  have hwords : (words "Good luck".toList).Perm (words "luck Good".toList) := by decide
  have htokens : tokens "Good luck".toList ≠ [] := by decide
  have hquery : "good LUCK".toLower = "Good luck".toLower :=
    String.toList_inj.mp (by rw [toList_toLower, toList_toLower]; decide)
  have hcontent : "good afternoon".toLower = "Good afternoon".toLower :=
    String.toList_inj.mp (by rw [toList_toLower, toList_toLower]; decide)
  exact ⟨hblank, (happend "Good" "luck!" "\n " (by decide) hblank).1, hwords,
    hperm _ _ _ hwords, hcase _ _ _ _ hquery hcontent, (hself _ htokens).2 (by decide)⟩

/-! ## Literal occurrences -/

/-- The words of a text without what is not a letter or digit at either end, where that leaves
something. -/
def strippedWords (s : List Char) : List (List Char) :=
  ((words s).map (strip fun c => !isAlphanumeric c)).filter (!·.isEmpty)

/-- Tokens are the stripped words in lower case. -/
theorem tokens_eq_map_lower (s : List Char) : tokens s = (strippedWords s).map lower := by
  have hempty : ∀ w, (lower w).isEmpty = w.isEmpty := fun w => by
    rw [Bool.eq_iff_iff, List.isEmpty_iff, List.isEmpty_iff, lower_eq_nil_iff]
  have htoken : tokenOfWord = lower ∘ strip fun c => !isAlphanumeric c := rfl
  rw [tokens, htoken, ← List.map_map, List.filter_map, strippedWords]
  simp only [Function.comp_def, hempty]

/-- The capital sigmas of a text end a word between `before` and `after` exactly if they do in the
text by itself. -/
def SigmasAgree (before s after : List Char) : Prop :=
  ∀ t u, s = t ++ 'Σ' :: u →
    isFinalSigma (before ++ t) (u ++ after) = isFinalSigma t u

/-- A text has its own lower case between two others exactly if its sigmas agree. -/
theorem lowerWithin_eq_lower_iff {before s after : List Char} :
    lowerWithin before s after = lower s ↔ SigmasAgree before s after := by
  rw [← lowerWithin_nil, lowerWithin_eq_iff]
  simp only [SigmasAgree, List.nil_append, List.append_nil]

/-- If the sigmas of a text agree, its lower case stands in that of the whole. -/
theorem SigmasAgree.lower_isInfix {before s after : List Char} (h : SigmasAgree before s after) :
    lower s <:+: lower (before ++ s ++ after) := by
  rw [lower_append, lowerWithin_eq_lower_iff.mpr h]
  exact ⟨_, _, rfl⟩

/-- All tokens of a query are matched if the lower case of each stripped word stands in that of a
stripped word of the text. -/
theorem found_eq_length_iff (query content : String) :
    found query content = (tokens query.toList).length ↔
      ∀ q ∈ strippedWords query.toList, ∃ c ∈ strippedWords content.toList,
        lower q <:+: lower c := by
  rw [found, matchCount_eq_length_iff]
  rw [tokens_eq_map_lower, tokens_eq_map_lower, List.forall_mem_map]
  simp only [List.mem_map, exists_exists_and_eq_and]

/-- Where a stripped word of a query stands in one of a text, its lower case stands in that of the
other exactly if its capital sigmas end a word in both or in none. So if every stripped word of the
query stands somewhere in the text with sigmas that agree, all tokens are matched, and the score is
one as long as they can be counted in 64 bits; and what is matched is what stands in the text in
lower case. -/
theorem literal_occurrences (query content : String) :
    (∀ q ∈ strippedWords query.toList, ∀ before after,
      before ++ q ++ after ∈ strippedWords content.toList →
      lower (before ++ q ++ after) = lowerWithin [] before (q ++ after) ++
        lowerWithin before q after ++ lowerWithin (before ++ q) after [] ∧
      (lowerWithin before q after = lower q ↔ SigmasAgree before q after)) ∧
    (found query content = (tokens query.toList).length ↔
      ∀ q ∈ strippedWords query.toList, ∃ c ∈ strippedWords content.toList,
        lower q <:+: lower c) ∧
    (strippedWords query.toList ≠ [] →
      (∀ q ∈ strippedWords query.toList, ∃ before after,
        before ++ q ++ after ∈ strippedWords content.toList ∧ SigmasAgree before q after) →
      found query content = (tokens query.toList).length ∧
        ((tokens query.toList).length < 2 ^ 64 → score query content = 1)) := by
  refine ⟨fun q _ before after _ => ⟨lower_append before q after, lowerWithin_eq_lower_iff⟩,
    found_eq_length_iff query content, fun hne hoccurs => ?_⟩
  have hfound : found query content = (tokens query.toList).length := by
    refine (found_eq_length_iff query content).mpr fun q hq => ?_
    obtain ⟨before, after, hmem, hagree⟩ := hoccurs q hq
    exact ⟨_, hmem, hagree.lower_isInfix⟩
  have htokens : tokens query.toList ≠ [] := by
    rwa [tokens_eq_map_lower, ne_eq, List.map_eq_nil_iff]
  exact ⟨hfound, fun hlt => scoreTokens_eq_one htokens hlt hfound⟩

/-- A word that ends in a sigma is found where it ends a longer word, and missed where it begins
one. -/
theorem missed_in_longer_word :
    strippedWords "ΦΙΛΟΣ".toList = ["ΦΙΛΟΣ".toList] ∧
      strippedWords "ΘΕΟΦΙΛΟΣ".toList = ["ΘΕΟ".toList ++ "ΦΙΛΟΣ".toList ++ []] ∧
      score "ΦΙΛΟΣ" "ΘΕΟΦΙΛΟΣ" = 1 ∧
      strippedWords "ΦΙΛΟΣΟΦΟΣ".toList = [[] ++ "ΦΙΛΟΣ".toList ++ "ΟΦΟΣ".toList] ∧
      ¬ SigmasAgree [] "ΦΙΛΟΣ".toList "ΟΦΟΣ".toList ∧
      score "ΦΙΛΟΣ" "ΦΙΛΟΣΟΦΟΣ" = 0 := by
  have hquery : strippedWords "ΦΙΛΟΣ".toList = ["ΦΙΛΟΣ".toList] := by decide
  have hfriend : strippedWords "ΘΕΟΦΙΛΟΣ".toList = ["ΘΕΟ".toList ++ "ΦΙΛΟΣ".toList ++ []] := by
    decide
  have hphilosopher : strippedWords "ΦΙΛΟΣΟΦΟΣ".toList =
      [[] ++ "ΦΙΛΟΣ".toList ++ "ΟΦΟΣ".toList] := by decide
  have hagree : SigmasAgree "ΘΕΟ".toList "ΦΙΛΟΣ".toList [] :=
    lowerWithin_eq_lower_iff.mp (by decide)
  have hscore : score "ΦΙΛΟΣ" "ΘΕΟΦΙΛΟΣ" = 1 := by
    refine ((literal_occurrences _ _).2.2 (hquery ▸ List.cons_ne_nil _ _) ?_).2 (by decide)
    rw [hquery, hfriend]
    intro q hq
    obtain rfl := List.mem_singleton.mp hq
    exact ⟨_, _, List.mem_singleton_self _, hagree⟩
  have hdiffer : lowerWithin [] "ΦΙΛΟΣ".toList "ΟΦΟΣ".toList ≠ lower "ΦΙΛΟΣ".toList := by decide
  have hplace := (literal_occurrences "ΦΙΛΟΣ" "ΦΙΛΟΣΟΦΟΣ").1 "ΦΙΛΟΣ".toList
    (hquery ▸ List.mem_singleton_self _) [] "ΟΦΟΣ".toList (hphilosopher ▸ List.mem_singleton_self _)
  exact ⟨hquery, hfriend, hscore, hphilosopher, fun h => hdiffer (hplace.2.mpr h),
    by decide +kernel⟩

end Switchboard.Relevance
