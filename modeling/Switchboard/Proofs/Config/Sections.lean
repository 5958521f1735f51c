import Switchboard.Config.File
import Switchboard.Proofs.Config.Layers
import Switchboard.Proofs.Outcome
import Mathlib.Data.List.Perm.Basic

/-!
# The sections of a configuration file

The entries of the sections for profiles and for preferred models are visited in no fixed order.
Whether a document is accepted never depends on that order (`withFile_visited`). What it is read
as may, since two keys can name the same kind of request: it does exactly if all keys name kinds
and two entries for one kind are at odds (`determined_iff`). A change of order is a chain of swaps,
so everything comes down to which two changes of a configuration commute (`foldl_perm_iff`).
-/

namespace Switchboard

section Orders

variable {α σ : Type} {step : σ → α → σ} {R : α → α → Prop} {l : List α} {a b : α}

theorem exists_perm_cons_cons (ha : a ∈ l) (hb : b ∈ l) (hne : a ≠ b) :
    ∃ rest, (a :: b :: rest).Perm l := by
  obtain ⟨s, t, rfl⟩ := List.append_of_mem ha
  have hb' : b ∈ s ++ t := by
    simpa [hne.symm] using hb
  obtain ⟨u, v, huv⟩ := List.append_of_mem hb'
  have hperm : (a :: b :: (u ++ v)).Perm (a :: (s ++ t)) := huv ▸ List.perm_middle.symm.cons a
  exact ⟨u ++ v, hperm.trans List.perm_middle.symm⟩

/-- Changes lead to the same state in every order exactly if any two of them commute, given that it
does not depend on the state whether they do. -/
theorem foldl_perm_iff (hstep : ∀ s a b, step (step s a) b = step (step s b) a ↔ R a b) (s : σ) :
    (∀ l₁ l₂ : List α, l₁.Perm l → l₂.Perm l → l₁.foldl step s = l₂.foldl step s) ↔
      ∀ a ∈ l, ∀ b ∈ l, R a b := by
  constructor
  · intro h a ha b hb
    by_cases hne : a = b
    · exact hne ▸ (hstep s a a).mp rfl
    · -- Two orders that begin with the rest, and end with the two changes in turn.
      obtain ⟨rest, hrest⟩ := exists_perm_cons_cons ha hb hne
      have hab := h (rest ++ [a, b]) (rest ++ [b, a]) (List.perm_append_comm.trans hrest)
        (List.perm_append_comm.trans ((List.Perm.swap a b rest).trans hrest))
      simp only [List.foldl_append, List.foldl_cons, List.foldl_nil] at hab
      exact (hstep _ a b).mp hab
  · intro h l₁ l₂ h₁ h₂
    refine (h₁.trans h₂.symm).foldl_eq' (fun a ha b hb s => ?_) s
    exact (hstep s a b).mpr (h a (h₁.mem_iff.mp ha) b (h₁.mem_iff.mp hb))

end Orders

/-- The overrides replace no part by different values. -/
def ProfileOverride.Agrees (o o' : ProfileOverride) : Prop :=
  (∀ s ∈ o.systemPrompt, ∀ s' ∈ o'.systemPrompt, s = s') ∧
    (∀ x ∈ o.temperature, ∀ x' ∈ o'.temperature, x = x') ∧
    ∀ n ∈ o.maxTokens, ∀ n' ∈ o'.maxTokens, n = n'

/-- Two replacements of a value can be exchanged exactly if they agree. -/
theorem getD_comm_iff {α : Type} {o o' : Option α} {a : α} :
    o'.getD (o.getD a) = o.getD (o'.getD a) ↔ ∀ x ∈ o, ∀ x' ∈ o', x = x' := by
  cases o <;> cases o' <;> simp [eq_comm]

/-- Two overrides of a profile can be exchanged exactly if they agree on each part. -/
theorem Profile.override_comm_iff {p : Profile} {o o' : ProfileOverride} :
    (p.override o).override o' = (p.override o').override o ↔ o.Agrees o' := by
  simp only [Profile.override, Profile.mk.injEq, getD_comm_iff, ProfileOverride.Agrees]

/-- Two overrides in a table can be exchanged exactly if they are of different kinds or agree. -/
theorem ProfileTable.override_comm_iff {t : ProfileTable} {k k' : RequestKind}
    {o o' : ProfileOverride} :
    (t.override k o).override k' o' = (t.override k' o').override k o ↔
      (k = k' → o.Agrees o') := by
  constructor
  · rintro h rfl
    have hk := congrFun (congrArg forKind h) k
    simpa only [ProfileTable.override, if_true, Profile.override_comm_iff] using hk
  · intro h
    simp only [ProfileTable.override, ProfileTable.mk.injEq]
    funext j
    by_cases hk : k = k'
    · subst hk
      by_cases hj : j = k
      · simpa [hj] using Profile.override_comm_iff.mpr (h rfl)
      · simp [hj]
    · by_cases hj : j = k <;> by_cases hj' : j = k' <;> simp_all [eq_comm]

/-- Two preferences can be exchanged exactly if they are of different kinds or the same. -/
theorem Config.withPreferences_comm_iff {c : Config} {k k' : RequestKind}
    {names names' : List String} :
    (c.withPreferences k names).withPreferences k' names' =
        (c.withPreferences k' names').withPreferences k names ↔
      (k = k' → names = names') := by
  constructor
  · rintro h rfl
    have hk := congrFun (congrArg modelPreferences h) k
    simpa [Config.withPreferences, eq_comm] using hk
  · intro h
    simp only [Config.withPreferences, Config.mk.injEq, true_and]
    funext j
    by_cases hj : j = k <;> by_cases hj' : j = k' <;> simp_all

/-! ## Keys and kinds -/

namespace ConfigFile

section Entries

variable {α : Type} {l : List (String × α)} {heading : String}

/-- Every key names a kind of request. -/
def NameKinds (l : List (String × α)) : Prop :=
  ∀ e ∈ l, (RequestKind.parse? e.1).isSome

/-- The entries by the kinds that their keys name. -/
def byKind (l : List (String × α)) : List (RequestKind × α) :=
  l.filterMap fun e => (RequestKind.parse? e.1).map fun k => (k, e.2)

/-- A section is accepted exactly if each of its keys names a kind. -/
theorem resolveKinds_eq_ok_iff {r : List (RequestKind × α)} :
    resolveKinds heading l = .ok r ↔ NameKinds l ∧ r = byKind l := by
  induction l generalizing r with
  | nil => exact ⟨fun h => ⟨List.forall_mem_nil _, (Except.ok.inj h).symm⟩, fun h => h.2 ▸ rfl⟩
  | cons e rest ih =>
    rw [NameKinds, List.forall_mem_cons, ← NameKinds, byKind, List.filterMap_cons, ← byKind]
    rw [resolveKinds, List.mapM_cons, ← resolveKinds]
    cases hk : RequestKind.parse? e.1 with
    | none => simp
    | some k =>
      simp only [Outcome.ok_bind, Outcome.pure_eq, Outcome.bind_eq_ok, ih, Option.isSome_some,
        Option.map_some, true_and]
      grind

variable {σ : Type} {step : σ → RequestKind → α → σ} {s : σ}

/-- A change by one entry, which counts only if its key names a kind. -/
def change (step : σ → RequestKind → α → σ) (s : σ) (e : String × α) : σ :=
  match RequestKind.parse? e.1 with
  | some k => step s k e.2
  | none => s

/-- Entries by kind make the changes that the entries by key make. -/
theorem foldl_byKind :
    (byKind l).foldl (fun s e => step s e.1 e.2) s = l.foldl (change step) s := by
  induction l generalizing s with
  | nil => rfl
  | cons e rest ih =>
    rw [List.foldl_cons, ← ih, byKind, List.filterMap_cons, ← byKind, change]
    cases RequestKind.parse? e.1 <;> rfl

/-- Two entries can be exchanged exactly if they agree wherever they name the same kind. -/
theorem change_comm_iff {R : α → α → Prop}
    (hstep : ∀ s k k' a a', step (step s k a) k' a' = step (step s k' a') k a ↔ (k = k' → R a a'))
    (s : σ) (e e' : String × α) :
    change step (change step s e) e' = change step (change step s e') e ↔
      ∀ k, RequestKind.parse? e.1 = some k → RequestKind.parse? e'.1 = some k → R e.2 e'.2 := by
  unfold change
  cases RequestKind.parse? e.1 <;> cases RequestKind.parse? e'.1 <;> simp [hstep, eq_comm]

end Entries

/-- The keys of both sections name kinds of requests. -/
def NamesKinds (f : ConfigFile) : Prop :=
  NameKinds (f.profiles.getD []) ∧ NameKinds (f.modelPreferences.getD [])

/-- No two entries of a section for one kind are at odds. -/
structure IsConsistent (f : ConfigFile) : Prop where
  profiles : ∀ e ∈ f.profiles.getD [], ∀ e' ∈ f.profiles.getD [], ∀ k,
    RequestKind.parse? e.1 = some k → RequestKind.parse? e'.1 = some k → e.2.Agrees e'.2
  modelPreferences : ∀ e ∈ f.modelPreferences.getD [], ∀ e' ∈ f.modelPreferences.getD [], ∀ k,
    RequestKind.parse? e.1 = some k → RequestKind.parse? e'.1 = some k → e.2 = e'.2

end ConfigFile

/-- What a file says outside of its sections. -/
def ConfigFile.settings (f : ConfigFile) : ConfigLayer where
  defaultTimeout := f.defaultTimeout
  toolTimeout := f.toolTimeout
  persistTimeout := f.persistTimeout
  enabledTools := f.enabledTools
  defaultModels := f.defaultModels.getD []
  knowledgeLimit := f.knowledgeLimit
  relevanceThreshold := f.relevanceThreshold
  workingDirectory := f.workingDirectory
  eventCapacity := f.eventCapacity

namespace Config

variable {c c' : Config} {f : ConfigFile} {text : String}
  {profiles : List (String × ProfileOverride)} {preferences : List (String × List String)}

/-- The section for preferred models changes nothing else. -/
theorem foldl_withPreferences : preferences.foldl (ConfigFile.change withPreferences) c =
    { c with modelPreferences :=
        (preferences.foldl (ConfigFile.change withPreferences) c).modelPreferences } := by
  induction preferences generalizing c with
  | nil => rfl
  | cons e rest ih =>
    refine (List.foldl_cons ..).trans (ih.trans ?_)
    rw [List.foldl_cons, ConfigFile.change]
    cases RequestKind.parse? e.1 <;> rfl

/-- The configuration changed by a file up to its section for profiles, which lists these
entries. -/
def visitProfiles (c : Config) (f : ConfigFile) (profiles : List (String × ProfileOverride)) :
    Config :=
  { c.overlay f.settings with
    profiles := profiles.foldl (ConfigFile.change ProfileTable.override) c.profiles }

/-- The configuration changed by a file whose sections list these entries. -/
def visit (c : Config) (f : ConfigFile) (profiles : List (String × ProfileOverride))
    (preferences : List (String × List String)) : Config :=
  preferences.foldl (ConfigFile.change withPreferences) (c.visitProfiles f profiles)

/-- The profiles after a visit depend on the order of their own section only. -/
theorem visit_profiles : (c.visit f profiles preferences).profiles =
    profiles.foldl (ConfigFile.change ProfileTable.override) c.profiles :=
  congrArg Config.profiles foldl_withPreferences

/-- A document is accepted exactly if its sections name kinds, and is then visited. -/
theorem withFile_eq_ok_iff : c.withFile f = .ok c' ↔ f.NamesKinds ∧
    c' = c.visit f (f.profiles.getD []) (f.modelPreferences.getD []) := by
  simp only [withFile, Outcome.bind_eq_ok, ConfigFile.resolveKinds_eq_ok_iff, Outcome.pure_eq,
    Except.ok.injEq]
  constructor
  · rintro ⟨_, ⟨hprofiles, rfl⟩, _, ⟨hpreferences, rfl⟩, rfl⟩
    refine ⟨⟨hprofiles, hpreferences⟩, ?_⟩
    rw [ConfigFile.foldl_byKind, ConfigFile.foldl_byKind]
    rfl
  · rintro ⟨⟨hprofiles, hpreferences⟩, rfl⟩
    refine ⟨_, ⟨hprofiles, rfl⟩, _, ⟨hpreferences, rfl⟩, ?_⟩
    rw [ConfigFile.foldl_byKind, ConfigFile.foldl_byKind]
    rfl

/-! ## Every order -/

/-- A result of reading a text when the entries of both sections are visited in some order. -/
def MayRead (c : Config) (text : String) (r : Except ConfigFault Config) : Prop :=
  match ConfigFile.parse? text with
  | none => r = .error (.malformed none)
  | some f => ∃ profiles preferences, profiles.Perm (f.profiles.getD []) ∧
      preferences.Perm (f.modelPreferences.getD []) ∧
      r = c.withFile { f with profiles := some profiles, modelPreferences := some preferences }

theorem mayRead_withToml : c.MayRead text (c.withToml text) := by
  unfold MayRead withToml
  cases ConfigFile.parse? text with
  | none => rfl
  | some f =>
    refine ⟨f.profiles.getD [], f.modelPreferences.getD [], List.Perm.refl _, List.Perm.refl _, ?_⟩
    rfl

theorem nameKinds_congr {α : Type} {l l' : List (String × α)} (h : l.Perm l') :
    ConfigFile.NameKinds l ↔ ConfigFile.NameKinds l' :=
  forall_congr' fun _ => imp_congr_left h.mem_iff

/-- In any order a document is accepted under the same condition. -/
theorem withFile_visited (hprofiles : profiles.Perm (f.profiles.getD []))
    (hpreferences : preferences.Perm (f.modelPreferences.getD [])) :
    c.withFile { f with profiles := some profiles, modelPreferences := some preferences } = .ok c' ↔
      f.NamesKinds ∧ c' = c.visit f profiles preferences := by
  rw [withFile_eq_ok_iff, ConfigFile.NamesKinds, ConfigFile.NamesKinds,
    nameKinds_congr hprofiles.symm, nameKinds_congr hpreferences.symm]
  rfl

/-- If all keys name kinds, then the text is read in every order. -/
theorem mayRead_iff (h : ConfigFile.parse? text = some f) (hkinds : f.NamesKinds)
    {r : Except ConfigFault Config} :
    c.MayRead text r ↔ ∃ profiles preferences, profiles.Perm (f.profiles.getD []) ∧
      preferences.Perm (f.modelPreferences.getD []) ∧ r = .ok (c.visit f profiles preferences) := by
  rw [MayRead, h]
  refine exists₂_congr fun profiles preferences => and_congr_right fun hp => and_congr_right
    fun hm => ?_
  rw [(withFile_visited hp hm).mpr ⟨hkinds, rfl⟩]

/-- If some key names none, then it is read in no order. -/
theorem isOk_of_mayRead {r : Except ConfigFault Config} (hr : c.MayRead text r)
    (hok : r.isOk = true) : ∃ f, ConfigFile.parse? text = some f ∧ f.NamesKinds := by
  unfold MayRead at hr
  cases hparse : ConfigFile.parse? text with
  | none =>
    rw [hparse] at hr
    subst hr
    cases hok
  | some f =>
    rw [hparse] at hr
    obtain ⟨profiles, preferences, hp, hm, rfl⟩ := hr
    cases hread : c.withFile
        { f with profiles := some profiles, modelPreferences := some preferences } with
    | error fault =>
      rw [hread] at hok
      cases hok
    | ok c' => exact ⟨f, rfl, ((withFile_visited hp hm).mp hread).1⟩

/-- What the visits come to is the same in every order exactly if no two entries are at odds. -/
theorem visit_eq_iff :
    (∀ profiles preferences profiles' preferences',
      profiles.Perm (f.profiles.getD []) → preferences.Perm (f.modelPreferences.getD []) →
      profiles'.Perm (f.profiles.getD []) → preferences'.Perm (f.modelPreferences.getD []) →
        c.visit f profiles preferences = c.visit f profiles' preferences') ↔
      f.IsConsistent := by
  have hprofiles := foldl_perm_iff (l := f.profiles.getD [])
    (ConfigFile.change_comm_iff (fun _ _ _ _ _ => ProfileTable.override_comm_iff)) c.profiles
  have hpreferences := fun d : Config => foldl_perm_iff (l := f.modelPreferences.getD [])
    (ConfigFile.change_comm_iff (fun _ _ _ _ _ => withPreferences_comm_iff)) d
  constructor
  · intro h
    constructor
    · refine hprofiles.mp fun l₁ l₂ h₁ h₂ => ?_
      have heq := congrArg Config.profiles
        (h l₁ _ l₂ _ h₁ (List.Perm.refl _) h₂ (List.Perm.refl _))
      rwa [visit_profiles, visit_profiles] at heq
    · refine (hpreferences (c.visitProfiles f (f.profiles.getD []))).mp fun l₁ l₂ h₁ h₂ => ?_
      exact h _ l₁ _ l₂ (List.Perm.refl _) h₁ (List.Perm.refl _) h₂
  · intro h profiles preferences profiles' preferences' h₁ h₂ h₁' h₂'
    rw [visit, visit, visitProfiles, visitProfiles,
      hprofiles.mpr h.profiles profiles profiles' h₁ h₁']
    exact (hpreferences _).mpr h.modelPreferences preferences preferences' h₂ h₂'

/-- A text is read in all orders or in none, and it is read as the same configuration in all orders
exactly if no two entries for one kind are at odds. -/
theorem determined_iff (c : Config) (text : String) :
    c.MayRead text (c.withToml text) ∧
      (∀ r, c.MayRead text r →
        (r.isOk = true ↔ ∃ f, ConfigFile.parse? text = some f ∧ f.NamesKinds)) ∧
      ((∀ r r', c.MayRead text r → c.MayRead text r' → r.toOption = r'.toOption) ↔
        ∀ f, ConfigFile.parse? text = some f → f.NamesKinds → f.IsConsistent) := by
  refine ⟨mayRead_withToml, ?_⟩
  by_cases hread : ∃ f, ConfigFile.parse? text = some f ∧ f.NamesKinds
  · obtain ⟨f, hparse, hkinds⟩ := hread
    have hforall : (∀ f', ConfigFile.parse? text = some f' → f'.NamesKinds → f'.IsConsistent) ↔
        f.IsConsistent := by
      simp [hparse, hkinds]
    rw [hforall, ← visit_eq_iff (c := c)]
    simp only [mayRead_iff hparse hkinds]
    refine ⟨?_, fun h ps ms ps' ms' hps hms hps' hms' => ?_, ?_⟩
    · rintro _ ⟨profiles, preferences, -, -, rfl⟩
      exact iff_of_true rfl ⟨f, hparse, hkinds⟩
    · exact Option.some.inj (h _ _ ⟨ps, ms, hps, hms, rfl⟩ ⟨ps', ms', hps', hms', rfl⟩)
    · rintro h _ _ ⟨ps, ms, hps, hms, rfl⟩ ⟨ps', ms', hps', hms', rfl⟩
      rw [h ps ms ps' ms' hps hms hps' hms']
  · have hnone : ∀ r, c.MayRead text r → ∃ fault, r = .error fault := fun r hr => by
      cases r with
      | error fault => exact ⟨fault, rfl⟩
      | ok c' => exact absurd (isOk_of_mayRead hr rfl) hread
    refine ⟨fun r hr => iff_of_false (fun hok => hread (isOk_of_mayRead hr hok)) hread,
      iff_of_true (fun r r' hr hr' => ?_) fun f hparse hkinds => absurd ⟨f, hparse, hkinds⟩ hread⟩
    obtain ⟨fault, rfl⟩ := hnone r hr
    obtain ⟨fault', rfl⟩ := hnone r' hr'
    rfl

namespace Misspelling

/-- A document with two profiles for one kind. -/
def document : String :=
  "[profiles]\nanalysis.max_tokens = 1\nAnalysis.max_tokens = 2\n"

/-- The kinds and lengths of the profiles that a file lists. -/
def lengths (f : ConfigFile) : List (Option RequestKind × Option Nat) :=
  (f.profiles.getD []).map fun e => (RequestKind.parse? e.1, e.2.maxTokens)

theorem mem_lengths {f : ConfigFile} {kind : Option RequestKind} {n : Option Nat} :
    (kind, n) ∈ lengths f ↔
      ∃ e ∈ f.profiles.getD [], RequestKind.parse? e.1 = kind ∧ e.2.maxTokens = n := by
  simp only [lengths, List.mem_map, Prod.mk.injEq]

/-- The document has two profiles of one kind under different keys. -/
theorem parse_document : ∃ f, ConfigFile.parse? document = some f ∧
    f.modelPreferences.getD [] = [] ∧
      lengths f = [(some .analysis, some 1), (some .analysis, some 2)] := by
  have h : (ConfigFile.parse? document).map (fun f => (f.modelPreferences.getD [], lengths f)) =
      some ([], [(some .analysis, some 1), (some .analysis, some 2)]) := by
    decide +kernel
  obtain ⟨f, hf, heq⟩ := Option.map_eq_some_iff.mp h
  exact ⟨f, hf, congrArg Prod.fst heq, congrArg Prod.snd heq⟩

/-- Read in one order or the other, the document leaves different profiles. -/
theorem undetermined :
    ¬ ∀ r r', MayRead { workingDirectory := "/" } document r →
      MayRead { workingDirectory := "/" } document r' → r.toOption = r'.toOption := by
  obtain ⟨f, hparse, hpreferences, hlengths⟩ := parse_document
  have hkinds : f.NamesKinds := by
    refine ⟨fun e he => ?_, ?_⟩
    · have hmem := mem_lengths.mpr ⟨e, he, rfl, rfl⟩
      rw [hlengths, List.mem_pair, Prod.mk.injEq, Prod.mk.injEq] at hmem
      rcases hmem with ⟨hkind, -⟩ | ⟨hkind, -⟩ <;> exact Option.isSome_of_eq_some hkind
    · rw [hpreferences]
      exact List.forall_mem_nil _
  rw [(determined_iff _ document).2.2]
  intro h
  obtain ⟨e, he, hkind, hone⟩ := mem_lengths.mp (show (some .analysis, some 1) ∈ lengths f by
    simp [hlengths])
  obtain ⟨e', he', hkind', htwo⟩ := mem_lengths.mp (show (some .analysis, some 2) ∈ lengths f by
    simp [hlengths])
  have heq := ((h f hparse hkinds).profiles e he e' he' .analysis hkind hkind').2.2 1 hone 2 htwo
  cases heq

end Misspelling

end Config

end Switchboard
