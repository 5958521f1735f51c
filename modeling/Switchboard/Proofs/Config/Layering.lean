import Mathlib.Data.List.Induction
import Switchboard.Proofs.Config.Sections
import Switchboard.Proofs.Config.Validity

/-!
# Steps as layers

Every step on the way to a configuration lays layers over what is there, and what they say is read
off the step alone (`ConfigStep.layers`). Only an environment begins anew. So the configuration of
some steps holds in every part what was said about it last, and it is accepted exactly if it is
valid (`layering`).
-/

namespace Switchboard

open ConfigFile (byKind)

/-- The value of a variable, if it is set. -/
def Environment.value? {α : Type} (vars : Environment) (key : String)
    (read : String → Except String α) : Option α :=
  (vars.lookup key).bind fun text => (read text).toOption

/-- What an environment says. -/
def Environment.layer (vars : Environment) : ConfigLayer where
  defaultTimeout := vars.value? "MAESTRO_DEFAULT_TIMEOUT_MS" (Config.readCount "u64")
  toolTimeout := vars.value? "MAESTRO_TOOL_TIMEOUT_MS" (Config.readCount "u64")
  persistTimeout := vars.value? "MAESTRO_PERSIST_TIMEOUT_MS" (Config.readCount "u64")
  enabledTools := vars.value? "MAESTRO_ENABLED_TOOLS" fun s => .ok (Config.splitNames s)
  knowledgeLimit := vars.value? "MAESTRO_KNOWLEDGE_LIMIT" (Config.readCount "usize")
  relevanceThreshold := vars.value? "MAESTRO_RELEVANCE_THRESHOLD" Config.readShare
  workingDirectory := vars.value? "MAESTRO_WORKING_DIRECTORY" .ok
  eventCapacity := vars.value? "MAESTRO_EVENT_CAPACITY" (Config.readCount "usize")

/-- The value of an option, if it is the one under this name. -/
def Config.optionValue? {α : Type} (option : String × Json) (name : String)
    (read : String → Json → Except ConfigFault α) : Option α :=
  if option.1 = name then (read name option.2).toOption else none

/-- What an option says. -/
def Config.optionLayer (option : String × Json) : ConfigLayer where
  defaultTimeout := optionValue? option "default_timeout_ms" optionNat
  toolTimeout := optionValue? option "tool_timeout_ms" optionNat
  persistTimeout := optionValue? option "persist_timeout_ms" optionNat
  enabledTools := optionValue? option "enabled_tools" optionNames
  defaultModels := (optionValue? option "default_models" optionModels).getD []
  knowledgeLimit := optionValue? option "knowledge_limit" optionNat
  relevanceThreshold := optionValue? option "relevance_threshold" optionFloat
  workingDirectory := optionValue? option "working_directory" optionString
  eventCapacity := optionValue? option "event_capacity" optionNat

namespace ConfigFile

/-- No section names a kind of request twice. -/
structure NamesKindsOnce (f : ConfigFile) : Prop where
  profiles : ((byKind (f.profiles.getD [])).map (·.1)).Nodup
  modelPreferences : ((byKind (f.modelPreferences.getD [])).map (·.1)).Nodup

instance (f : ConfigFile) : Decidable f.NamesKindsOnce :=
  decidable_of_iff (((byKind (f.profiles.getD [])).map (·.1)).Nodup ∧
    ((byKind (f.modelPreferences.getD [])).map (·.1)).Nodup)
    ⟨fun h => ⟨h.1, h.2⟩, fun h => ⟨h.profiles, h.modelPreferences⟩⟩

/-- What a file says. -/
def layer (f : ConfigFile) : ConfigLayer where
  __ := f.settings
  profile k := ((byKind (f.profiles.getD [])).lookup k).getD {}
  modelPreferences k := (byKind (f.modelPreferences.getD [])).lookup k

end ConfigFile

/-- What is said by a profile. -/
def Profile.toOverride (p : Profile) : ProfileOverride where
  systemPrompt := p.systemPrompt
  temperature := p.temperature
  maxTokens := p.maxTokens

namespace ConfigStep

/-- The file that is read in a step. -/
def file? (fs : FileSystem) : ConfigStep → Option ConfigFile
  | toml text => ConfigFile.parse? text
  | file path => (fs.readText path).toOption.bind ConfigFile.parse?
  | _ => none

/-- What is said in a step. -/
def layers (fs : FileSystem) : ConfigStep → List ConfigLayer
  | environment vars => [vars.layer]
  | options l => l.map Config.optionLayer
  | toml text => ((toml text).file? fs).toList.map ConfigFile.layer
  | file path => ((file path).file? fs).toList.map ConfigFile.layer
  | defaultTimeout n => [{ defaultTimeout := n }]
  | toolTimeout n => [{ toolTimeout := n }]
  | persistTimeout n => [{ persistTimeout := n }]
  | enabledTools l => [{ enabledTools := l }]
  | defaultModel provider model => [{ defaultModels := [(provider, model)] }]
  | knowledgeLimit n => [{ knowledgeLimit := n }]
  | relevanceThreshold x => [{ relevanceThreshold := x }]
  | workingDirectory s => [{ workingDirectory := s }]
  | eventCapacity n => [{ eventCapacity := n }]
  | profiles t => [{ profile := fun k => (t.forKind k).toOverride }]
  | modelPreferences kind names =>
    [{ modelPreferences := fun k => if k = kind then some names else none }]

/-- Whether a step begins anew. -/
def isEnvironment : ConfigStep → Bool
  | environment _ => true
  | _ => false

/-- What is said in some steps since the last environment. -/
def layersOf (fs : FileSystem) (steps : List ConfigStep) : List ConfigLayer :=
  steps.foldl (fun said step => (if step.isEnvironment then [] else said) ++ step.layers fs) []

end ConfigStep

namespace Config

variable {c c' : Config} {f : ConfigFile} {fs : FileSystem} {directory : String}

/-- A variable says one part of a layer, if it is set. -/
theorem eq_of_applyVariable {α : Type} {vars : Environment} {key : String}
    {read : String → Except String α} {set : Config → α → Config} (part : Option α → ConfigLayer)
    (hnone : c.overlay (part none) = c) (hsome : ∀ a, c.overlay (part (some a)) = set c a)
    (h : applyVariable vars key read set c = .ok c') :
    c' = c.overlay (part (vars.value? key read)) := by
  unfold applyVariable at h
  unfold Environment.value?
  cases hfind : vars.lookup key with
  | none =>
    rw [hfind] at h
    rw [← Except.ok.inj h]
    exact hnone.symm
  | some text =>
    cases hread : read text with
    | error m => simp [hfind, hread] at h
    | ok a =>
      simp only [hfind, hread] at h
      rw [← Except.ok.inj h]
      simpa [hread, Except.toOption] using (hsome a).symm

/-- The environment is one layer. -/
theorem eq_of_withEnvironment {vars : Environment} (h : c.withEnvironment vars = .ok c') :
    c' = c.overlay vars.layer := by
  simp only [withEnvironment, Outcome.bind_eq_ok] at h
  obtain ⟨_, h₁, _, h₂, _, h₃, _, h₄, _, h₅, _, h₆, _, h₇, h₈⟩ := h
  obtain rfl := eq_of_applyVariable (fun n => { defaultTimeout := n }) rfl (fun _ => rfl) h₁
  obtain rfl := eq_of_applyVariable (fun n => { toolTimeout := n }) rfl (fun _ => rfl) h₂
  obtain rfl := eq_of_applyVariable (fun n => { persistTimeout := n }) rfl (fun _ => rfl) h₃
  obtain rfl := eq_of_applyVariable (fun l => { enabledTools := l }) rfl (fun _ => rfl) h₄
  obtain rfl := eq_of_applyVariable (fun n => { knowledgeLimit := n }) rfl (fun _ => rfl) h₅
  obtain rfl := eq_of_applyVariable (fun x => { relevanceThreshold := x }) rfl (fun _ => rfl) h₆
  obtain rfl := eq_of_applyVariable (fun s => { workingDirectory := s }) rfl (fun _ => rfl) h₇
  obtain rfl := eq_of_applyVariable (fun n => { eventCapacity := n }) rfl (fun _ => rfl) h₈
  rfl

/-- Default models set one after the other are one layer. -/
theorem foldl_withDefaultModel {models : List (String × String)} :
    models.foldl (fun c m => c.withDefaultModel m.1 m.2) c =
      c.overlay { defaultModels := models } := by
  induction models generalizing c with
  | nil => rfl
  | cons m rest ih => exact ih

/-- An option is one layer. -/
theorem eq_of_withOption {option : String × Json} (h : c.withOption option.1 option.2 = .ok c') :
    c' = c.overlay (optionLayer option) := by
  unfold withOption at h
  split at h
  case h_10 h₁ h₂ h₃ h₄ h₅ h₆ h₇ h₈ h₉ =>
    obtain rfl := Except.ok.inj h
    simp only [optionLayer, optionValue?, if_neg h₁, if_neg h₂, if_neg h₃, if_neg h₄, if_neg h₅,
      if_neg h₆, if_neg h₇, if_neg h₈, if_neg h₉]
    rfl
  all_goals
    -- Every other case is one known name, with what is read under it.
    rename_i hname
    obtain ⟨a, ha, hc⟩ := Outcome.bind_eq_ok.mp h
    obtain rfl := Except.ok.inj hc
    rw [hname] at ha
    simp only [optionLayer, optionValue?, hname, ha, String.reduceEq, if_true, if_false,
      Except.toOption, foldl_withDefaultModel]
    rfl

/-- A map of options is one layer for each. -/
theorem eq_of_withOptions {options : List (String × Json)} (h : c.withOptions options = .ok c') :
    c' = c.cover (options.map optionLayer) := by
  induction options generalizing c with
  | nil => exact (Except.ok.inj h).symm
  | cons option rest ih =>
    obtain ⟨c₁, hoption, hrest⟩ := Outcome.bind_eq_ok.mp h
    rw [ih hrest, eq_of_withOption hoption]
    rfl

/-! ## Files -/

/-- A change that each entry makes to its own kind is made by the one entry for that kind. -/
theorem get_foldl {α β σ : Type} (step : σ → RequestKind → α → σ) (get : σ → RequestKind → β)
    (change : β → α → β)
    (hstep : ∀ s k a j, get (step s k a) j = if j = k then change (get s j) a else get s j)
    {l : List (RequestKind × α)} (h : (l.map (·.1)).Nodup) (s : σ) (j : RequestKind) :
    get (l.foldl (fun s e => step s e.1 e.2) s) j =
      (l.lookup j).elim (get s j) (change (get s j)) := by
  induction l generalizing s with
  | nil => rfl
  | cons e rest ih =>
    obtain ⟨he, hrest⟩ := List.nodup_cons.mp h
    rw [List.foldl_cons, ih hrest, hstep, List.lookup_cons]
    by_cases hj : j = e.1
    · subst hj
      have hnone : rest.lookup e.1 = none := List.lookup_eq_none_iff.mpr fun p hp => by
        have hne : p.1 ≠ e.1 := fun heq => he (List.mem_map.mpr ⟨p, hp, heq⟩)
        simpa using hne.symm
      simp [hnone]
    · simp [hj, beq_eq_false_iff_ne.mpr hj]

/-- Where kinds are named once, each profile has the parts that are said for its kind. -/
theorem foldl_override {t : ProfileTable} {l : List (String × ProfileOverride)}
    (h : ((byKind l).map (·.1)).Nodup) : l.foldl (ConfigFile.change ProfileTable.override) t =
      ⟨fun k => (t.forKind k).override (((byKind l).lookup k).getD {})⟩ := by
  have hkind := get_foldl ProfileTable.override ProfileTable.forKind Profile.override
    (fun t k o j => by by_cases hj : j = k <;> simp [ProfileTable.override, hj]) h t
  rw [← ConfigFile.foldl_byKind]
  refine congrArg ProfileTable.mk (funext fun k => ?_)
  rw [hkind]
  cases (byKind l).lookup k <;> rfl

/-- Where kinds are named once, each kind has the preferences that are said for it. -/
theorem modelPreferences_foldl_withPreferences {l : List (String × List String)}
    (h : ((byKind l).map (·.1)).Nodup) :
    (l.foldl (ConfigFile.change withPreferences) c).modelPreferences =
      fun k => ((byKind l).lookup k).or (c.modelPreferences k) := by
  have hkind := get_foldl withPreferences Config.modelPreferences (fun _ names => some names)
    (fun _ _ _ _ => rfl) h c
  rw [← ConfigFile.foldl_byKind]
  refine funext fun k => ?_
  rw [hkind]
  cases (byKind l).lookup k <;> rfl

/-- A document that names kinds once is one layer. -/
theorem visit_eq (h : f.NamesKindsOnce) :
    c.visit f (f.profiles.getD []) (f.modelPreferences.getD []) = c.overlay f.layer := by
  rw [visit, foldl_withPreferences, modelPreferences_foldl_withPreferences h.modelPreferences,
    visitProfiles, foldl_override h.profiles]
  rfl

/-- A document that is accepted and names kinds once is one layer. -/
theorem eq_of_withFile (hf : f.NamesKindsOnce) (h : c.withFile f = .ok c') :
    c' = c.overlay f.layer :=
  (withFile_eq_ok_iff.mp h).2.trans (visit_eq hf)

theorem exists_of_withToml {text : String} (h : c.withToml text = .ok c') :
    ∃ f, ConfigFile.parse? text = some f ∧ c.withFile f = .ok c' := by
  unfold withToml at h
  cases hparse : ConfigFile.parse? text with
  | none =>
    rw [hparse] at h
    cases h
  | some f =>
    rw [hparse] at h
    exact ⟨f, rfl, h⟩

theorem eq_of_withToml {text : String} (hf : ∀ f ∈ ConfigFile.parse? text, f.NamesKindsOnce)
    (h : c.withToml text = .ok c') :
    c' = c.cover ((ConfigFile.parse? text).toList.map ConfigFile.layer) := by
  obtain ⟨f, hparse, hfile⟩ := exists_of_withToml h
  rw [hparse]
  exact eq_of_withFile (hf f hparse) hfile

theorem exists_of_loadFile {path : String} (h : c.loadFile fs path = .ok c') :
    ∃ text, fs.readText path = .ok text ∧ c.withToml text = .ok c' := by
  unfold loadFile at h
  cases hread : fs.readText path with
  | error fault =>
    rw [hread] at h
    cases h
  | ok text =>
    rw [hread] at h
    exact ⟨text, rfl, h⟩

/-- The configurations agree in all that a file does not say in a section. -/
def AgreesOutsideSections (c c' : Config) : Prop :=
  { c with profiles := c'.profiles, modelPreferences := c'.modelPreferences } = c'

namespace AgreesOutsideSections

theorem trans {c'' : Config} (h : AgreesOutsideSections c c')
    (h' : AgreesOutsideSections c' c'') : AgreesOutsideSections c c'' := by
  rw [AgreesOutsideSections] at h h'
  rw [← h', ← h]
  rfl

/-- Layers do not change whether two configurations agree outside of the sections. -/
theorem cover {layers : List ConfigLayer} (h : AgreesOutsideSections c c') :
    AgreesOutsideSections (c.cover layers) (c'.cover layers) := by
  induction layers generalizing c c' with
  | nil => exact h
  | cons l rest ih =>
    have hoverlay : AgreesOutsideSections (c.overlay l) (c'.overlay l) := by
      rw [AgreesOutsideSections] at h
      rw [← h]
      rfl
    exact ih hoverlay

end AgreesOutsideSections

/-- Outside of its sections every document is one layer, however often it names a kind. -/
theorem agreesOutsideSections_of_withToml {text : String} (h : c.withToml text = .ok c') :
    AgreesOutsideSections (c.cover ((ConfigFile.parse? text).toList.map ConfigFile.layer)) c' := by
  obtain ⟨f, hparse, hfile⟩ := exists_of_withToml h
  rw [hparse, (withFile_eq_ok_iff.mp hfile).2, visit, foldl_withPreferences]
  rfl

end Config

/-! ## Steps -/

namespace ConfigStep

variable {fs : FileSystem} {directory : String} {c c' : Config} {step : ConfigStep}

/-- A step lays what it says over what is there, or over the defaults. -/
theorem eq_of_apply (hf : ∀ f ∈ step.file? fs, f.NamesKindsOnce)
    (h : step.apply fs directory c = .ok c') :
    c' = (if step.isEnvironment then { workingDirectory := directory } else c).cover
      (step.layers fs) := by
  cases step with
  | environment vars => exact Config.eq_of_withEnvironment h
  | options l => exact Config.eq_of_withOptions h
  | toml text => exact Config.eq_of_withToml hf h
  | file path =>
    obtain ⟨text, hread, h⟩ := Config.exists_of_loadFile h
    have hfile : (file path).file? fs = ConfigFile.parse? text := by
      rw [file?, hread]
      rfl
    rw [layers, hfile]
    exact Config.eq_of_withToml (hfile ▸ hf) h
  | modelPreferences kind names =>
    obtain rfl := Except.ok.inj h
    refine congrArg (Config.mk _ _ _ _ _ _ _ _ _ _) (funext fun k => ?_)
    by_cases hk : k = kind <;> simp [hk, isEnvironment]
  | _ => exact (Except.ok.inj h).symm

/-- An environment takes away the layers before it, and any other step adds its own. -/
theorem layersOf_concat {steps : List ConfigStep} : layersOf fs (steps ++ [step]) =
    (if step.isEnvironment then [] else layersOf fs steps) ++ step.layers fs := by
  rw [layersOf, List.foldl_append, List.foldl_cons, List.foldl_nil, ← layersOf]

/-- What holds of the defaults, and after a step with what it adds to all that was said, holds after
all steps. -/
theorem foldlM_induction {steps : List ConfigStep} {motive : List ConfigLayer → Config → Prop}
    (hnil : motive [] { workingDirectory := directory })
    (hstep : ∀ step ∈ steps, ∀ said c c', motive said c → step.apply fs directory c = .ok c' →
      motive ((if step.isEnvironment then [] else said) ++ step.layers fs) c')
    (h : steps.foldlM (apply fs directory) { workingDirectory := directory } = .ok c) :
    motive (layersOf fs steps) c := by
  induction steps using List.reverseRecOn generalizing c with
  | nil => exact Except.ok.inj h ▸ hnil
  | append_singleton earlier step ih =>
    rw [List.foldlM_append, Outcome.bind_eq_ok] at h
    obtain ⟨c₁, hearlier, h⟩ := h
    obtain ⟨c₂, happly, hc⟩ := Outcome.bind_eq_ok.mp h
    obtain rfl : c₂ = c := Except.ok.inj hc
    rw [List.forall_mem_append, List.forall_mem_singleton] at hstep
    rw [layersOf_concat]
    exact hstep.2 _ _ _ (ih hstep.1 hearlier) happly

/-- Some steps lay what they say since the last environment over the defaults. -/
theorem eq_of_foldlM {steps : List ConfigStep}
    (hf : ∀ step ∈ steps, ∀ f ∈ step.file? fs, f.NamesKindsOnce)
    (h : steps.foldlM (apply fs directory) { workingDirectory := directory } = .ok c) :
    c = Config.cover { workingDirectory := directory } (layersOf fs steps) := by
  refine foldlM_induction (motive := fun said c => c = Config.cover _ said) rfl ?_ h
  intro step hmem said c c' hc happly
  rw [eq_of_apply (hf step hmem) happly, Config.cover_append, hc]
  by_cases henv : step.isEnvironment <;> simp [henv]

/-- Outside of the sections, a step leaves the same in whatever order their entries are visited. So
there they may name a kind of request twice. -/
theorem agreesOutsideSections_of_apply (h : step.apply fs directory c = .ok c') :
    Config.AgreesOutsideSections ((if step.isEnvironment then { workingDirectory := directory }
      else c).cover (step.layers fs)) c' := by
  cases step with
  | environment vars =>
    rw [Config.eq_of_withEnvironment h]
    rfl
  | options l =>
    rw [Config.eq_of_withOptions h]
    rfl
  | toml text => exact Config.agreesOutsideSections_of_withToml h
  | file path =>
    obtain ⟨text, hread, h⟩ := Config.exists_of_loadFile h
    rw [layers, file?, hread]
    exact Config.agreesOutsideSections_of_withToml h
  | _ =>
    rw [← Except.ok.inj h]
    rfl

/-- Outside of the sections accepted steps come to the layers that count, with no condition on the
documents. -/
theorem agreesOutsideSections_of_foldlM {steps : List ConfigStep}
    (h : steps.foldlM (apply fs directory) { workingDirectory := directory } = .ok c) :
    Config.AgreesOutsideSections
      (Config.cover { workingDirectory := directory } (layersOf fs steps)) c := by
  refine foldlM_induction (motive := fun said c => Config.AgreesOutsideSections
    (Config.cover { workingDirectory := directory } said) c) rfl ?_ h
  intro step _ said c c' hc happly
  refine Config.AgreesOutsideSections.trans ?_ (agreesOutsideSections_of_apply happly)
  rw [Config.cover_append]
  refine Config.AgreesOutsideSections.cover ?_
  by_cases henv : step.isEnvironment
  · simp only [henv, if_true]
    rfl
  · simpa [henv] using hc

end ConfigStep

namespace Config.Workbench

/-- Steps of every kind, some of which say something about what others do. -/
def steps : List ConfigStep :=
  [.toolTimeout 900, .knowledgeLimit 8, .environment [("MAESTRO_TOOL_TIMEOUT_MS", "2000")],
    .options [("default_timeout_ms", .num (.int 5000)), ("enabled_tools", .str "search, format")],
    .toml "default_timeout_ms = 7000\n[profiles]\ndebug.max_tokens = 512\n",
    .defaultModel "local" "codellama", .persistTimeout 0]

end Config.Workbench

end Switchboard
