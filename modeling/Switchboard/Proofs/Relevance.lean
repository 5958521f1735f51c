import Switchboard.Proofs.Decimal.Order
import Switchboard.Relevance

/-!
# The best candidates

A ranking holds the candidates that are relevant, each with its score, in strict order: greater
scores before smaller ones, and among equal scores the candidate that comes first. Such a list is
unique (`IsRanking.unique`), and `rank` is the beginning of it (`best_first`). The strictness
carries what needs the stability of the sort: two candidates with equal scores come in the order
of their indices (`pairwise_mergeSort_precedes`).
-/

namespace Switchboard.Relevance

variable {query : String} {candidates : List String} {threshold : Float}
  {l l' : List (Nat × Float)} {a b c : Nat × Float}

/-- Numbers of equal place in the total order are the same. -/
theorem orderKey_inj {x y : Float} (h : orderKey x = orderKey y) : x = y := by
  refine Float.toBits_inj.mp (UInt64.toNat_inj.mp ?_)
  simp only [orderKey] at h
  have hle := x.toBits.toNat_lt
  split at h <;> split at h <;> omega

/-- The candidate `a` comes before `b`: its score is greater, or the scores are equal and `a` has
the smaller index. -/
def Precedes (a b : Nat × Float) : Prop :=
  orderKey b.2 < orderKey a.2 ∨ a.2 = b.2 ∧ a.1 < b.1

theorem Precedes.asymm (h : Precedes a b) : ¬Precedes b a := by
  rintro (hlt | ⟨heq, hlt⟩)
  · rcases h with h | ⟨h, -⟩
    · exact hlt.asymm h
    · exact hlt.ne (h ▸ rfl)
  · rcases h with h | ⟨-, h⟩
    · exact h.ne (heq ▸ rfl)
    · exact hlt.asymm h

/-- The order by which candidates are sorted, in which equal scores tie. -/
def isBefore (a b : Nat × Float) : Bool :=
  decide (orderKey b.2 ≤ orderKey a.2)

theorem isBefore_trans (a b c : Nat × Float) (hab : isBefore a b = true)
    (hbc : isBefore b c = true) : isBefore a c = true := by
  simp only [isBefore, decide_eq_true_eq] at *
  omega

theorem isBefore_total (a b : Nat × Float) : (isBefore a b || isBefore b a) = true := by
  simp only [isBefore, Bool.or_eq_true, decide_eq_true_eq]
  omega

theorem pair_sublist (h : l.Pairwise fun a b => a.1 < b.1) (ha : a ∈ l) (hb : b ∈ l)
    (hlt : a.1 < b.1) : [a, b].Sublist l := by
  induction l with
  | nil => cases ha
  | cons c l ih =>
    obtain ⟨hc, hl⟩ := List.pairwise_cons.mp h
    rcases List.mem_cons.mp ha with rfl | ha'
    · rcases List.mem_cons.mp hb with rfl | hb'
      · exact absurd hlt (Nat.lt_irrefl _)
      · exact (List.singleton_sublist.mpr hb').cons_cons a
    · rcases List.mem_cons.mp hb with rfl | hb'
      · exact absurd hlt (hc a ha').asymm
      · exact (ih hl ha' hb').cons c

/-- In a list without repetitions two elements stand in one order only. -/
theorem not_pair_sublist_swap (h : l.Nodup) (hab : [a, b].Sublist l) : ¬[b, a].Sublist l := by
  induction l with
  | nil => cases hab
  | cons c l ih =>
    obtain ⟨hc, hl⟩ := List.nodup_cons.mp h
    intro hba
    cases hab with
    | cons _ hab =>
      cases hba with
      | cons _ hba => exact ih hl hab hba
      | cons_cons _ hba => exact hc (hab.subset (by simp))
    | cons_cons _ hab =>
      cases hba with
      | cons _ hba => exact hc (hba.subset (by simp))
      | cons_cons _ hba => exact hc (hba.subset (by simp))

/-- Sorting leaves no ties: candidates in the order of their indices are put in strict order. -/
theorem pairwise_mergeSort_precedes (h : l.Pairwise fun a b => a.1 < b.1) :
    (l.mergeSort isBefore).Pairwise Precedes := by
  have hnodup : (l.mergeSort isBefore).Nodup :=
    (List.mergeSort_perm l _).nodup_iff.mpr (h.imp fun hlt heq => hlt.ne (congrArg Prod.fst heq))
  rw [List.pairwise_iff_forall_sublist]
  intro a b hab
  have hle : orderKey b.2 ≤ orderKey a.2 := of_decide_eq_true
    (List.pairwise_iff_forall_sublist.mp
      (List.pairwise_mergeSort isBefore_trans isBefore_total l) hab)
  refine hle.lt_or_eq.imp_right fun heq => ⟨(orderKey_inj heq).symm, ?_⟩
  have ha : a ∈ l := List.mem_mergeSort.mp (hab.subset (by simp))
  have hb : b ∈ l := List.mem_mergeSort.mp (hab.subset (by simp))
  by_contra hlt
  rcases Nat.lt_or_eq_of_le (Nat.le_of_not_lt hlt) with hba | hba
  · -- The sort would keep `b` before `a`.
    exact not_pair_sublist_swap hnodup hab (List.pair_sublist_mergeSort isBefore_trans
      isBefore_total (decide_eq_true heq.ge) (pair_sublist h hb ha hba))
  · have hne : a ≠ b := by simpa using hnodup.sublist hab
    exact hne (Prod.ext hba.symm (orderKey_inj heq).symm)

/-! ## Rankings -/

/-- The list holds the relevant candidates with their scores, the best first. -/
structure IsRanking (query : String) (candidates : List String) (threshold : Float)
    (l : List (Nat × Float)) : Prop where
  mem_iff : ∀ i x, (i, x) ∈ l ↔
    ∃ text, candidates[i]? = some text ∧ x = score query text ∧ 0 < x ∧ threshold ≤ x
  sorted : l.Pairwise Precedes

namespace IsRanking

theorem nodup_indices (h : IsRanking query candidates threshold l) : (l.map (·.1)).Nodup := by
  refine List.pairwise_map.mpr (h.sorted.imp_of_mem fun {a b} ha hb hab heq => ?_)
  -- An index determines its text, and so its score.
  obtain ⟨text, htext, hscore, -⟩ := (h.mem_iff a.1 a.2).mp ha
  obtain ⟨text', htext', hscore', -⟩ := (h.mem_iff b.1 b.2).mp hb
  rw [heq, htext'] at htext
  obtain rfl := Option.some.inj htext
  obtain rfl : a = b := Prod.ext heq (hscore.trans hscore'.symm)
  exact hab.asymm hab

theorem nodup (h : IsRanking query candidates threshold l) : l.Nodup :=
  h.nodup_indices.of_map _

/-- There is one ranking. -/
theorem unique (h : IsRanking query candidates threshold l)
    (h' : IsRanking query candidates threshold l') : l' = l := by
  have hmem : ∀ c, c ∈ l' ↔ c ∈ l := fun c => (h'.mem_iff c.1 c.2).trans (h.mem_iff c.1 c.2).symm
  exact ((List.perm_ext_iff_of_nodup h'.nodup h.nodup).mpr hmem).eq_of_pairwise
    (fun _ _ _ _ hab hba => absurd hba hab.asymm) h'.sorted h.sorted

/-- A higher threshold leaves out the candidates under it and changes nothing else. -/
theorem filter {threshold' : Float} (h : IsRanking query candidates threshold l)
    (hle : threshold ≤ threshold') :
    IsRanking query candidates threshold' (l.filter fun c => threshold' ≤ c.2) where
  mem_iff i x := by
    rw [List.mem_filter, h.mem_iff, decide_eq_true_iff]
    constructor
    · rintro ⟨⟨text, htext, hscore, hpos, -⟩, hx⟩
      exact ⟨text, htext, hscore, hpos, hx⟩
    · rintro ⟨text, htext, hscore, hpos, hx⟩
      exact ⟨⟨text, htext, hscore, hpos, Decimal.le_trans hle hx⟩, hx⟩
  sorted := h.sorted.filter _

/-- What is cut off comes after everything that is kept. -/
theorem precedes_of_notMem_take {limit : ℕ} (h : IsRanking query candidates threshold l)
    (hc : c ∈ l) (hcut : c ∉ l.take limit) :
    (l.take limit).length = limit ∧ ∀ b ∈ l.take limit, Precedes b c := by
  have hsplit := List.take_append_drop limit l
  have hdrop : c ∈ l.drop limit := by
    rw [← hsplit, List.mem_append] at hc
    exact hc.resolve_left hcut
  have hlength : limit < l.length := by
    by_contra hle
    rw [List.drop_eq_nil_of_le (Nat.le_of_not_lt hle)] at hdrop
    cases hdrop
  have hsorted := h.sorted
  rw [← hsplit, List.pairwise_append] at hsorted
  exact ⟨List.length_take_of_le hlength.le, fun b hb => hsorted.2.2 b hb c hdrop⟩

end IsRanking

/-- The candidates that are relevant, in the order of their indices. -/
def relevant (query : String) (candidates : List String) (threshold : Float) :
    List (Nat × Float) :=
  (scored (tokens query.toList) candidates).filter fun c => isRelevant threshold c.2

/-- The rank is a prefix of the sorted candidates. -/
theorem rank_eq (limit : ℕ) : rank query candidates threshold limit =
    ((relevant query candidates threshold).mergeSort isBefore).take limit :=
  rfl

/-- A candidate is relevant exactly if its score is positive and reaches the threshold. -/
theorem mem_relevant_iff {i : ℕ} {x : Float} : (i, x) ∈ relevant query candidates threshold ↔
    ∃ text, candidates[i]? = some text ∧ x = score query text ∧ 0 < x ∧ threshold ≤ x := by
  simp only [relevant, scored, List.mem_filter, List.mem_map, isRelevant, Bool.and_eq_true,
    decide_eq_true_eq]
  constructor
  · rintro ⟨⟨⟨text, j⟩, hmem, heq⟩, hpos, hle⟩
    obtain ⟨rfl, rfl⟩ := Prod.mk.inj heq
    exact ⟨text, List.mem_zipIdx_iff_getElem?.mp hmem, rfl, hpos, hle⟩
  · rintro ⟨text, htext, rfl, hpos, hle⟩
    exact ⟨⟨(text, i), List.mem_zipIdx_iff_getElem?.mpr htext, rfl⟩, hpos, hle⟩

theorem pairwise_relevant :
    (relevant query candidates threshold).Pairwise fun a b => a.1 < b.1 := by
  refine List.Pairwise.filter _ (List.pairwise_map.mpr ?_)
  rw [List.pairwise_iff_getElem]
  intro i j hi hj hij
  simpa using hij

/-- The sorted candidates are a ranking. -/
theorem isRanking_mergeSort :
    IsRanking query candidates threshold
      ((relevant query candidates threshold).mergeSort isBefore) where
  mem_iff _ _ := List.mem_mergeSort.trans mem_relevant_iff
  sorted := pairwise_mergeSort_precedes pairwise_relevant

/-- Nothing that is relevant is left out if as much is asked for as there are candidates. -/
theorem mem_rank_iff {limit i : ℕ} {x : Float} (h : candidates.length ≤ limit) :
    (i, x) ∈ rank query candidates threshold limit ↔
      ∃ text, candidates[i]? = some text ∧ x = score query text ∧ 0 < x ∧ threshold ≤ x := by
  have hlength : (relevant query candidates threshold).length ≤ limit := by
    refine (List.length_filter_le _ _).trans ?_
    simpa [scored] using h
  rw [rank_eq, List.take_of_length_le (by simpa using hlength), List.mem_mergeSort,
    mem_relevant_iff]

/-- The candidates that are relevant have exactly one strict order in which the better come first,
and what is returned is the beginning of it. So no index repeats, what is left out comes after as
many as are asked for, asking for fewer gives a beginning, and a higher threshold leaves out the
candidates under it. -/
theorem best_first (query : String) (candidates : List String) (threshold : Float) (limit : ℕ) :
    ∃ l, IsRanking query candidates threshold l ∧
      (∀ l', IsRanking query candidates threshold l' → l' = l) ∧
      rank query candidates threshold limit = l.take limit ∧
      ((rank query candidates threshold limit).map (·.1)).Nodup ∧
      (∀ c ∈ l, c ∉ rank query candidates threshold limit →
        (rank query candidates threshold limit).length = limit ∧
        ∀ b ∈ rank query candidates threshold limit, Precedes b c) ∧
      (∀ limit' ≤ limit,
        rank query candidates threshold limit' <+: rank query candidates threshold limit) ∧
      ∀ threshold', threshold ≤ threshold' →
        IsRanking query candidates threshold' (l.filter fun c => threshold' ≤ c.2) := by
  have hranking : IsRanking query candidates threshold _ := isRanking_mergeSort
  refine ⟨_, hranking, fun _ => hranking.unique, rank_eq limit, ?_, ?_, ?_, ?_⟩
  · rw [rank_eq]
    exact hranking.nodup_indices.sublist ((List.take_sublist _ _).map _)
  · intro c hc hcut
    exact hranking.precedes_of_notMem_take hc hcut
  · intro limit' hle
    rw [rank_eq, rank_eq]
    exact List.take_prefix_take_left hle
  · exact fun _ => hranking.filter

theorem isRanking_letters :
    IsRanking "a b" ["b", "c a", "b a"] 0.3 [(2, 1), (0, 0.5), (1, 0.5)] where
  mem_iff i x := by
    have h₀ : score "a b" "b" = 0.5 := by decide +kernel
    have h₁ : score "a b" "c a" = 0.5 := by decide +kernel
    have h₂ : score "a b" "b a" = 1 := by decide +kernel
    have hhalf : (0 : Float) < 0.5 ∧ (0.3 : Float) ≤ 0.5 := by decide +kernel
    have hone : (0 : Float) < 1 ∧ (0.3 : Float) ≤ 1 := by decide +kernel
    rcases i with _ | _ | _ | i <;> grind
  sorted := by
    have hlt : orderKey 0.5 < orderKey 1 := by decide +kernel
    simp [Precedes, hlt]

/-- The last candidate has both letters and comes first; of the others the earlier one is kept. -/
theorem best_of_letters : rank "a b" ["b", "c a", "b a"] 0.3 2 = [(2, 1), (0, 0.5)] ∧
    rank "a b" ["b", "c a", "b a"] 0.3 1 <+: [(2, 1), (0, 0.5)] := by
  obtain ⟨l, -, hunique, hrank, -, -, hprefix, -⟩ :=
    best_first "a b" ["b", "c a", "b a"] 0.3 2
  obtain rfl := hunique _ isRanking_letters
  have hfewer := hprefix 1 (by decide)
  rw [hrank] at hfewer
  exact ⟨hrank, hfewer⟩

end Switchboard.Relevance
