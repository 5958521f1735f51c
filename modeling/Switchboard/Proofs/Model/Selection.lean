import Mathlib.Data.Prod.Lex
import Switchboard.Model.Selection
import Switchboard.Proofs.Words

/-!
# The choice of a model as a minimum

A model matches a wanted name in one of four classes (`SelectionPolicy.matchClass`). The models
of a list are ordered by the first wanted name they match, then by the class in which they match
it (`SelectionPolicy.rank`), then by position; those that match no name come last. The searches
of a selection, one inside the other, find the least model of this order (`least_selected`):
they try the levels of the order one by one (`SelectionPolicy.levels`), and a search by levels
finds the first element of the least level (`exists_isFirstLeast_of_findSome?`). A model that is
not selected can be left out without changing the selection.
-/

namespace Switchboard

/-! ## The first element of least rank -/

section FirstLeast

variable {α β γ : Type} [LinearOrder β] [LinearOrder γ] {rank : α → β} {rank' : α → γ}
  {l before after : List α} {i j : ℕ} {a b : α}

/-- The element at position `i` is the first of those of least rank: it has the least pair of
rank and position. -/
def IsFirstLeast (rank : α → β) (l : List α) (i : ℕ) (a : α) : Prop :=
  l[i]? = some a ∧ ∀ j b, l[j]? = some b → toLex (rank a, i) ≤ toLex (rank b, j)

namespace IsFirstLeast

/-- There is one first element of least rank. -/
theorem eq (h : IsFirstLeast rank l i a) (h' : IsFirstLeast rank l j b) : a = b := by
  have hle := le_antisymm (h.2 j b h'.1) (h'.2 i a h.1)
  obtain rfl : i = j := (Prod.mk.inj (toLex.injective hle)).2
  exact Option.some.inj (h.1.symm.trans h'.1)

/-- Only the order of the ranks counts. -/
theorem of_lt_iff (h : IsFirstLeast rank l i a)
    (hlt : ∀ a b, rank a < rank b ↔ rank' a < rank' b) : IsFirstLeast rank' l i a := by
  refine ⟨h.1, fun j b hb => ?_⟩
  have hle := h.2 j b hb
  rw [Prod.Lex.toLex_le_toLex'] at hle ⊢
  refine ⟨not_lt.mp fun hba => not_lt.mpr hle.1 ((hlt b a).mpr hba), fun heq => hle.2 ?_⟩
  exact le_antisymm hle.1 (not_lt.mp fun hab => heq.not_lt ((hlt a b).mp hab))

/-- The first element of least rank is below all before it and not above any after it. -/
theorem append_iff :
    IsFirstLeast rank (before ++ a :: after) before.length a ↔
      (∀ b ∈ before, rank a < rank b) ∧ ∀ b ∈ after, rank a ≤ rank b := by
  unfold IsFirstLeast
  simp only [Prod.Lex.toLex_le_toLex]
  constructor
  · rintro ⟨-, h⟩
    refine ⟨fun b hb => ?_, fun b hb => ?_⟩
    · obtain ⟨j, hj, rfl⟩ := List.getElem_of_mem hb
      rcases h j before[j] (by simp [List.getElem?_append_left hj]) with hlt | ⟨-, hle⟩
      · exact hlt
      · omega
    · obtain ⟨j, hj, rfl⟩ := List.getElem_of_mem hb
      rcases h (before.length + (j + 1)) after[j] (by simp [hj]) with hlt | ⟨heq, -⟩
      · exact hlt.le
      · exact heq.le
  · rintro ⟨hbefore, hafter⟩
    refine ⟨by simp, fun j b hb => ?_⟩
    rcases lt_trichotomy j before.length with hlt | rfl | hgt
    · rw [List.getElem?_append_left hlt] at hb
      exact .inl (hbefore b (List.mem_of_getElem? hb))
    · obtain rfl : a = b := by simpa using hb
      exact .inr ⟨rfl, le_rfl⟩
    · obtain ⟨k, rfl⟩ : ∃ k, j = before.length + (k + 1) := ⟨j - before.length - 1, by omega⟩
      simp only [List.getElem?_append_right (Nat.le_add_right ..), Nat.add_sub_cancel_left,
        List.getElem?_cons_succ] at hb
      exact (hafter b (List.mem_of_getElem? hb)).lt_or_eq.imp_right fun heq => ⟨heq, hgt.le⟩

theorem eq_append (h : IsFirstLeast rank l i a) :
    ∃ before after, l = before ++ a :: after ∧ before.length = i := by
  obtain ⟨hi, rfl⟩ := List.getElem?_eq_some_iff.mp h.1
  exact ⟨l.take i, l.drop (i + 1), by simp, by simp [hi.le]⟩

/-- The element stays the first of least rank when others are left out. -/
theorem sublist {before' after' : List α}
    (h : IsFirstLeast rank (before ++ a :: after) before.length a)
    (hbefore : before'.Sublist before) (hafter : after'.Sublist after) :
    IsFirstLeast rank (before' ++ a :: after') before'.length a := by
  rw [append_iff] at h ⊢
  exact ⟨fun b hb => h.1 b (hbefore.subset hb), fun b hb => h.2 b (hafter.subset hb)⟩

/-- The first element of least rank stays the first if another one is taken out. -/
theorem eraseIdx (h : IsFirstLeast rank l i a) (hj : j ≠ i) :
    ∃ i', IsFirstLeast rank (l.eraseIdx j) i' a := by
  obtain ⟨before, after, rfl, rfl⟩ := h.eq_append
  rcases Nat.lt_or_gt_of_ne hj with hlt | hgt
  · rw [List.eraseIdx_append_of_lt_length hlt]
    exact ⟨_, h.sublist (List.eraseIdx_sublist _ _) (List.Sublist.refl _)⟩
  · obtain ⟨k, rfl⟩ : ∃ k, j = before.length + (k + 1) := ⟨j - before.length - 1, by omega⟩
    rw [List.eraseIdx_append_of_length_le (by omega), Nat.add_sub_cancel_left,
      List.eraseIdx_cons_succ]
    exact ⟨_, h.sublist (List.Sublist.refl _) (List.eraseIdx_sublist _ _)⟩

end IsFirstLeast

end FirstLeast

section Levels

variable {α : Type} {p : α → Bool} {ps : List (α → Bool)} {l : List α} {a : α}

theorem findSome?_cons_eq {β : Type} {f : α → Option β} :
    (a :: l).findSome? f = (f a).or (l.findSome? f) := by
  cases h : f a <;> simp [h]

/-- The position of the first of the properties that `a` has. -/
def levelOf (ps : List (α → Bool)) (a : α) : ℕ :=
  ps.findIdx fun p => p a

@[simp] theorem levelOf_cons : levelOf (p :: ps) a = if p a then 0 else levelOf ps a + 1 := by
  rw [levelOf, List.findIdx_cons, levelOf]
  cases p a <;> rfl

/-- Looking for one property after the other finds the first element of the least level. -/
theorem exists_isFirstLeast_of_findSome? (h : (ps.findSome? fun p => l.find? p) = some a) :
    ∃ i, IsFirstLeast (levelOf ps) l i a := by
  induction ps with
  | nil => simp at h
  | cons p ps ih =>
    rw [List.findSome?_cons] at h
    cases hp : l.find? p with
    | none =>
      obtain ⟨i, hi⟩ := ih (by simpa [hp] using h)
      have hlevel : ∀ j b, l[j]? = some b → levelOf (p :: ps) b = levelOf ps b + 1 :=
        fun j b hb => by
          rw [levelOf_cons, if_neg (List.find?_eq_none.mp hp b (List.mem_of_getElem? hb))]
      refine ⟨i, hi.1, fun j b hb => ?_⟩
      have := hi.2 j b hb
      rw [Prod.Lex.toLex_le_toLex] at this ⊢
      rw [hlevel i a hi.1, hlevel j b hb]
      omega
    | some c =>
      obtain rfl : c = a := by simpa [hp] using h
      obtain ⟨hc, i, hi, rfl, hbefore⟩ := List.find?_eq_some_iff_getElem.mp hp
      refine ⟨i, List.getElem?_eq_getElem hi, fun j b hb => ?_⟩
      obtain ⟨hj, rfl⟩ := List.getElem?_eq_some_iff.mp hb
      rw [Prod.Lex.toLex_le_toLex, levelOf_cons, levelOf_cons, if_pos hc]
      by_cases hlt : j < i
      · simp [Bool.not_eq_true' .. ▸ hbefore j hlt]
      · split <;> omega

end Levels

/-! ## The order of choice -/

namespace SelectionPolicy

variable {names : List String} {provider : Option String} {wanted : String}
  {models : List ModelDescriptor} {m : ModelDescriptor}

/-- The model is of the provider asked for. -/
def IsOf (provider : Option String) (m : ModelDescriptor) : Prop :=
  provider = some m.providerName

instance : DecidablePred (IsOf provider) := fun m =>
  inferInstanceAs (Decidable (provider = some m.providerName))

/-- The lowercased name of the model contains the lowercased wanted name. -/
def Resembles (wanted : String) (m : ModelDescriptor) : Prop :=
  Unicode.lower wanted.toList <:+: Unicode.lower m.name.toList

instance : DecidablePred (Resembles wanted) := fun m =>
  inferInstanceAs (Decidable (_ <:+: Unicode.lower m.name.toList))

/-- The best class in which a model matches a wanted name. -/
def matchClass (provider : Option String) (wanted : String) (m : ModelDescriptor) : Option ℕ :=
  if m.name = wanted ∧ IsOf provider m then some 0
  else if m.name = wanted then some 1
  else if Resembles wanted m ∧ IsOf provider m then some 2
  else if Resembles wanted m then some 3
  else none

/-- The first wanted name that the model matches and the class in which it does. The models
that match none rank after all others, those of the provider asked for before the rest. -/
def rank (names : List String) (provider : Option String) (m : ModelDescriptor) : ℕ ×ₗ ℕ :=
  toLex (names.findIdx fun wanted => (matchClass provider wanted m).isSome,
    (names.findSome? fun wanted => matchClass provider wanted m).getD
      (if IsOf provider m then 0 else 1))

/-- To look for `p` among the models of the provider asked for before all others. -/
def preferring (provider : Option String) (p : ModelDescriptor → Bool) :
    List (ModelDescriptor → Bool) :=
  [fun m => IsOf provider m && p m, p]

/-- What a selection looks for in turn: each wanted name in each class, then any model. -/
def levels (names : List String) (provider : Option String) : List (ModelDescriptor → Bool) :=
  names.flatMap (fun wanted =>
    preferring provider (isExact wanted) ++ preferring provider (isSimilar wanted)) ++
  preferring provider fun _ => true

/-- A search that prefers a provider is one by two properties. -/
theorem findFrom_eq (p : ModelDescriptor → Bool) :
    findFrom models provider p = (preferring provider p).findSome? fun q => models.find? q := by
  rw [findFrom, preferring, findSome?_cons_eq, findSome?_cons_eq, List.findSome?_nil,
    Option.or_none]
  cases provider with
  | none => simp [IsOf, List.find?_eq_none.mpr]
  | some name => simp [IsOf, eq_comm]

/-- To search by levels is to search by each name and then for any model. -/
theorem findSome?_levels :
    ((levels names provider).findSome? fun q => models.find? q) =
      (names.findSome? (findByName models provider)).or
        (findFrom models provider fun _ => true) := by
  have hnames : (names.flatMap fun wanted => preferring provider (isExact wanted) ++
          preferring provider (isSimilar wanted)).findSome? (fun q => models.find? q) =
        names.findSome? (findByName models provider) := by
    induction names with
    | nil => rfl
    | cons wanted names ih =>
      rw [List.flatMap_cons, List.findSome?_append, List.findSome?_append, ih,
        findSome?_cons_eq, findByName, findFrom_eq, findFrom_eq]
  rw [levels, List.findSome?_append, hnames, findFrom_eq]

/-- The level of a model that matches a name is its class. -/
theorem levelOf_matchClass (qs : List (ModelDescriptor → Bool)) :
    levelOf (preferring provider (isExact wanted) ++ preferring provider (isSimilar wanted) ++ qs)
        m = (matchClass provider wanted m).getD (levelOf qs m + 4) := by
  have hexact : isExact wanted m = decide (m.name = wanted) := rfl
  have hsimilar : isSimilar wanted m = decide (Resembles wanted m) :=
    Bool.eq_iff_iff.mpr (Text.occursIn_iff.trans decide_eq_true_iff.symm)
  simp only [preferring, List.cons_append, List.nil_append, levelOf_cons, hexact, hsimilar]
  unfold matchClass
  by_cases hof : IsOf provider m <;> by_cases he : m.name = wanted <;>
    by_cases hr : Resembles wanted m <;> simp [hof, he, hr]

/-- A model is ranked by the first name it matches. -/
theorem rank_cons :
    rank (wanted :: names) provider m = match matchClass provider wanted m with
      | some c => toLex (0, c)
      | none =>
        toLex ((ofLex (rank names provider m)).1 + 1, (ofLex (rank names provider m)).2) := by
  unfold rank
  rw [List.findIdx_cons, List.findSome?_cons]
  cases matchClass provider wanted m <;> simp

/-- Names come before classes: each takes four levels. -/
theorem levelOf_levels :
    levelOf (levels names provider) m =
      4 * (ofLex (rank names provider m)).1 + (ofLex (rank names provider m)).2 := by
  induction names with
  | nil =>
    by_cases h : IsOf provider m <;> simp [levels, rank, h, preferring]
  | cons wanted names ih =>
    have hlevels : levels (wanted :: names) provider =
        preferring provider (isExact wanted) ++ preferring provider (isSimilar wanted) ++
          levels names provider := by
      simp [levels]
    rw [hlevels, levelOf_matchClass, rank_cons, ih]
    cases matchClass provider wanted m with
    | none => simp only [Option.getD_none, ofLex_toLex]; omega
    | some c => simp

theorem lt_four_of_matchClass {c : ℕ} (h : matchClass provider wanted m = some c) : c < 4 := by
  unfold matchClass at h
  split_ifs at h <;> simp at h <;> omega

theorem class_lt_four (names : List String) (provider : Option String) (m : ModelDescriptor) :
    (ofLex (rank names provider m)).2 < 4 := by
  rw [rank, ofLex_toLex]
  cases hc : names.findSome? fun wanted => matchClass provider wanted m with
  | none => simp only [Option.getD_none]; split <;> omega
  | some c =>
    obtain ⟨wanted, -, hw⟩ := List.exists_of_findSome?_eq_some hc
    exact lt_four_of_matchClass hw

/-- The levels of a selection are in the order of the ranks. -/
theorem levelOf_lt_iff {m m' : ModelDescriptor} :
    levelOf (levels names provider) m < levelOf (levels names provider) m' ↔
      rank names provider m < rank names provider m' := by
  have hm := class_lt_four names provider m
  have hm' := class_lt_four names provider m'
  rw [Prod.Lex.lt_iff, levelOf_levels, levelOf_levels]
  omega

section Choice

variable {p : SelectionPolicy} {kind : RequestKind} {model : Option String}

/-- The selection is a search by levels. -/
theorem select_eq :
    p.select models kind model provider =
      match (levels (p.wantedNames kind model) provider).findSome? (fun q => models.find? q) with
      | some m => .ok m
      | none => .error .noModels := by
  rw [findSome?_levels]
  rfl

/-- What is selected is the first model of least rank. -/
theorem exists_isFirstLeast_of_select (h : p.select models kind model provider = .ok m) :
    ∃ i, IsFirstLeast (rank (p.wantedNames kind model) provider) models i m := by
  rw [select_eq] at h
  split at h
  · next m' hm =>
    obtain rfl := Except.ok.inj h
    obtain ⟨i, hi⟩ := exists_isFirstLeast_of_findSome? hm
    exact ⟨i, hi.of_lt_iff fun _ _ => levelOf_lt_iff⟩
  · cases h

/-- The selection fails exactly if there are no models. -/
theorem select_eq_error_iff {f : RequestFailure} :
    p.select models kind model provider = .error f ↔ models = [] ∧ f = .noModels := by
  rw [select_eq]
  constructor
  · intro h
    split at h
    · cases h
    · next hnone =>
      -- The last property looked for is one that every model has.
      have hlast := List.findSome?_eq_none_iff.mp hnone (fun _ => true)
        (by simp [levels, preferring])
      exact ⟨List.eq_nil_iff_forall_not_mem.mpr fun m hm => List.find?_eq_none.mp hlast m hm rfl,
        (Except.error.inj h).symm⟩
  · rintro ⟨rfl, rfl⟩
    have hnone : (levels (p.wantedNames kind model) provider).findSome?
        (fun q => List.find? q []) = none := List.findSome?_eq_none_iff.mpr fun _ _ => rfl
    rw [hnone]

/-- A selection finds the first model of least rank. -/
theorem select_eq_ok_iff :
    p.select models kind model provider = .ok m ↔
      ∃ i, IsFirstLeast (rank (p.wantedNames kind model) provider) models i m := by
  refine ⟨exists_isFirstLeast_of_select, fun ⟨i, hi⟩ => ?_⟩
  cases hs : p.select models kind model provider with
  | error f =>
    obtain ⟨rfl, -⟩ := select_eq_error_iff.mp hs
    simp [IsFirstLeast] at hi
  | ok m' =>
    obtain ⟨i', hi'⟩ := exists_isFirstLeast_of_select hs
    rw [hi.eq hi']

end Choice

end SelectionPolicy

open SelectionPolicy in
/-- A selection fails exactly if there are no models, and otherwise it gives the model with the
least triple of the first wanted name it matches, the class in which it does, and its position.
Leaving out any other model changes nothing. -/
theorem least_selected (p : SelectionPolicy) (models : List ModelDescriptor) (kind : RequestKind)
    (model provider : Option String) :
    let names := model.toList ++ p.preferences kind
    (∀ f, p.select models kind model provider = .error f ↔ models = [] ∧ f = .noModels) ∧
    (∀ m, p.select models kind model provider = .ok m ↔
      ∃ i, IsFirstLeast (rank names provider) models i m) ∧
    ∀ i m, IsFirstLeast (rank names provider) models i m →
      ∀ j, j ≠ i → p.select (models.eraseIdx j) kind model provider = .ok m :=
  ⟨fun _ => select_eq_error_iff, fun _ => select_eq_ok_iff,
    fun _ _ h _ hj => select_eq_ok_iff.mpr (h.eraseIdx hj)⟩

end Switchboard
