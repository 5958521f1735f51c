import Switchboard.Proofs.Model.Selection

/-!
# The provider asked for

Among the models that match a name in one way, by the whole name or by a part of it, those of the
provider asked for win (`providerName_findFrom_iff`). The ways are tried one after the other, so a
model of another provider that bears the whole name wins over all models of the provider asked for
that match a part of it, and this is the only case in which a match of that provider loses
(`preferred_iff`).
-/

namespace Switchboard.SelectionPolicy

variable {models : List ModelDescriptor} {provider wanted : String} {p : ModelDescriptor → Bool}
  {m : ModelDescriptor}

/-- The model bears the wanted name, or its name contains it without regard to case. -/
def Matches (wanted : String) (m : ModelDescriptor) : Prop :=
  m.name = wanted ∨ Resembles wanted m

instance : DecidablePred (Matches wanted) := fun m =>
  inferInstanceAs (Decidable (m.name = wanted ∨ Resembles wanted m))

theorem isSimilar_iff : isSimilar wanted m = true ↔ Resembles wanted m :=
  Text.occursIn_iff

/-- If a model matches, one is found, whatever provider is preferred. -/
theorem exists_findFrom (provider : Option String) (h : ∃ m ∈ models, p m = true) :
    ∃ m, findFrom models provider p = some m := by
  obtain ⟨m, hm⟩ := Option.isSome_iff_exists.mp (List.find?_isSome.mpr h)
  rw [findFrom, hm]
  cases provider.bind fun name => models.find? fun m => m.providerName = name && p m with
  | none => exact ⟨m, rfl⟩
  | some m' => exact ⟨m', rfl⟩

theorem findFrom_eq_none {provider : Option String} (h : ∀ m ∈ models, ¬p m = true) :
    findFrom models provider p = none := by
  rw [findFrom, List.find?_eq_none.mpr h, Option.or_none]
  cases provider with
  | none => rfl
  | some name =>
    refine List.find?_eq_none.mpr fun m hm hp => h m hm ?_
    exact (Bool.and_eq_true_iff.mp hp).2

theorem mem_of_findFrom {provider : Option String} (h : findFrom models provider p = some m) :
    m ∈ models ∧ p m = true := by
  rw [findFrom, Option.or_eq_some_iff] at h
  rcases h with h | ⟨-, h⟩
  · obtain ⟨name, -, hname⟩ := Option.bind_eq_some_iff.mp h
    have hp := List.find?_some hname
    exact ⟨List.mem_of_find?_eq_some hname, (Bool.and_eq_true_iff.mp hp).2⟩
  · exact ⟨List.mem_of_find?_eq_some h, List.find?_some h⟩

/-- What is found is of the provider asked for exactly if that provider has anything to find; if
it has not, it is the first of all that is found. -/
theorem providerName_findFrom_iff (h : findFrom models (some provider) p = some m) :
    (m.providerName = provider ↔ ∃ m' ∈ models, m'.providerName = provider ∧ p m' = true) ∧
      (m.providerName ≠ provider → models.find? p = some m) := by
  obtain ⟨hmem, hp⟩ := mem_of_findFrom h
  rw [findFrom, Option.or_eq_some_iff, Option.bind_some] at h
  rcases h with h | ⟨hnone, h⟩
  · have hfound := List.find?_some h
    have hof : m.providerName = provider :=
      of_decide_eq_true (Bool.and_eq_true_iff.mp hfound).1
    exact ⟨iff_of_true hof ⟨m, hmem, hof, hp⟩, fun hne => absurd hof hne⟩
  · have hno : ∀ m' ∈ models, ¬(m'.providerName = provider ∧ p m' = true) := by
      simpa using List.find?_eq_none.mp hnone
    refine ⟨iff_of_false (fun hof => hno m hmem ⟨hof, hp⟩) ?_, fun _ => h⟩
    rintro ⟨m', hm', hof⟩
    exact hno m' hm' hof

/-- A model found by the name asked for is selected. -/
theorem select_of_findByName {policy : SelectionPolicy} {kind : RequestKind}
    {provider : Option String} (h : findByName models provider wanted = some m) :
    policy.select models kind (some wanted) provider = .ok m := by
  rw [select, wantedNames, Option.toList_some, List.singleton_append, findSome?_cons_eq, h]
  rfl

/-- If the provider asked for has a model that matches the wanted name, then the model selected
matches it too. It is of that provider exactly if a model of that provider bears the whole name or
no model does; otherwise it is the first model that bears it. -/
theorem preferred_iff (policy : SelectionPolicy) (models : List ModelDescriptor)
    (kind : RequestKind) (wanted provider : String)
    (h : ∃ m ∈ models, m.providerName = provider ∧ Matches wanted m) :
    ∃ m, policy.select models kind (some wanted) (some provider) = .ok m ∧
      m ∈ models ∧ Matches wanted m ∧
      (m.providerName = provider ↔
        (∃ m' ∈ models, m'.providerName = provider ∧ m'.name = wanted) ∨
          ∀ m' ∈ models, m'.name ≠ wanted) ∧
      (m.providerName ≠ provider → (models.find? fun m' => m'.name = wanted) = some m) := by
  have hexact : ∀ m, isExact wanted m = true ↔ m.name = wanted := fun m => decide_eq_true_iff
  by_cases hany : ∃ m ∈ models, m.name = wanted
  · obtain ⟨m, hm⟩ := exists_findFrom (p := isExact wanted) (some provider)
      (by simpa only [hexact] using hany)
    obtain ⟨hmem, hname⟩ := mem_of_findFrom hm
    obtain ⟨hof, hfirst⟩ := providerName_findFrom_iff hm
    refine ⟨m, select_of_findByName ?_, hmem, .inl ((hexact m).mp hname), ?_, hfirst⟩
    · rw [findByName, hm, Option.some_or]
    · simp only [hof, hexact]
      refine (or_iff_left fun hno => ?_).symm
      obtain ⟨m', hm', hname'⟩ := hany
      exact hno m' hm' hname'
  · have hno : ∀ m ∈ models, m.name ≠ wanted := fun m hm hname => hany ⟨m, hm, hname⟩
    obtain ⟨m₀, hm₀, hof₀, hmatches⟩ := h
    have hsimilar : isSimilar wanted m₀ = true :=
      isSimilar_iff.mpr (hmatches.resolve_left (hno m₀ hm₀))
    obtain ⟨m, hm⟩ := exists_findFrom (some provider) ⟨m₀, hm₀, hsimilar⟩
    obtain ⟨hmem, hresembles⟩ := mem_of_findFrom hm
    have hof : m.providerName = provider :=
      (providerName_findFrom_iff hm).1.mpr ⟨m₀, hm₀, hof₀, hsimilar⟩
    refine ⟨m, select_of_findByName ?_, hmem, .inr (isSimilar_iff.mp hresembles),
      iff_of_true hof (.inr hno), fun hne => absurd hof hne⟩
    rw [findByName, findFrom_eq_none fun m hm => (hexact m).not.mpr (hno m hm), Option.none_or, hm]

/-! ## The whole name at another provider -/

namespace Catalog

/-- The model with the whole name is at one provider, and one with a longer name at another. -/
def listing : List ModelDescriptor :=
  [⟨"gpt-4o", "openai", .remote, .single .general, 8192, none⟩,
    ⟨"gpt-4o-mini", "azure", .remote, .single .general, 8192, none⟩]

/-- The provider asked for has a model that matches, and the model of the other one is selected. -/
theorem overruled :
    (∃ m ∈ listing, m.providerName = "azure" ∧ Matches "gpt-4o" m) ∧
      ∃ m, default.select listing .chat (some "gpt-4o") (some "azure") = .ok m ∧
        m.providerName = "openai" := by
  have hmatches : ∃ m ∈ listing, m.providerName = "azure" ∧ Matches "gpt-4o" m := by
    decide +kernel
  obtain ⟨m, hselect, -, -, hof, hfirst⟩ :=
    preferred_iff default listing .chat "gpt-4o" "azure" hmatches
  have hne : m.providerName ≠ "azure" := by
    rw [ne_eq, hof]
    decide
  obtain rfl : _ = m := by simpa [listing] using hfirst hne
  exact ⟨hmatches, _, hselect, rfl⟩

end Catalog

end Switchboard.SelectionPolicy
