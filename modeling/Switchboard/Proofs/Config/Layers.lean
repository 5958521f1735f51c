import Switchboard.Config.Basic
import Switchboard.Proofs.Keyed

/-!
# Layers of a configuration

A layer says something about some parts of a configuration and leaves the others open. A
configuration covered by layers holds in every part what the last layer says that says anything
about it (`isLayered_cover`): one layer changes one part at a time and looks at no other
(`cover_getD`, `cover_or`), so every part can be told alone.
-/

namespace Switchboard

/-- What is said about a configuration. -/
structure ConfigLayer where
  defaultTimeout : Option Nat := none
  toolTimeout : Option Nat := none
  persistTimeout : Option Nat := none
  enabledTools : Option (List String) := none
  /-- The models asked for if only a provider is, of which the last for a provider counts. -/
  defaultModels : List (String × String) := []
  knowledgeLimit : Option Nat := none
  relevanceThreshold : Option Float := none
  workingDirectory : Option String := none
  eventCapacity : Option Nat := none
  profile : RequestKind → ProfileOverride := fun _ => {}
  modelPreferences : RequestKind → Option (List String) := fun _ => none

/-- What the last of the layers says that says anything. -/
def ConfigLayer.last {α : Type} (layers : List ConfigLayer) (part : ConfigLayer → Option α) :
    Option α :=
  layers.reverse.findSome? part

namespace Config

open ConfigLayer

/-- The configuration with what a layer says. -/
def overlay (c : Config) (l : ConfigLayer) : Config where
  defaultTimeout := l.defaultTimeout.getD c.defaultTimeout
  toolTimeout := l.toolTimeout.getD c.toolTimeout
  persistTimeout := l.persistTimeout.getD c.persistTimeout
  enabledTools := l.enabledTools.or c.enabledTools
  defaultModels := Keyed.insertAll l.defaultModels c.defaultModels
  knowledgeLimit := l.knowledgeLimit.getD c.knowledgeLimit
  relevanceThreshold := l.relevanceThreshold.getD c.relevanceThreshold
  workingDirectory := l.workingDirectory.getD c.workingDirectory
  eventCapacity := l.eventCapacity.getD c.eventCapacity
  profiles := ⟨fun k => (c.profiles.forKind k).override (l.profile k)⟩
  modelPreferences k := (l.modelPreferences k).or (c.modelPreferences k)

/-- The configuration covered by layers, one after the other. -/
def cover (c : Config) (layers : List ConfigLayer) : Config :=
  layers.foldl overlay c

variable {α : Type} {c : Config} {l : ConfigLayer} {layers : List ConfigLayer}

@[simp] theorem cover_nil : c.cover [] = c :=
  rfl

@[simp] theorem cover_cons : c.cover (l :: layers) = (c.overlay l).cover layers :=
  rfl

/-- Layers are put on one after the other. -/
theorem cover_append {layers' : List ConfigLayer} :
    c.cover (layers ++ layers') = (c.cover layers).cover layers' :=
  List.foldl_append

@[simp] theorem last_singleton {part : ConfigLayer → Option α} : last [l] part = part l :=
  List.findSome?_singleton

/-- The last layers that say something count. -/
theorem last_append {layers' : List ConfigLayer} {part : ConfigLayer → Option α} :
    last (layers ++ layers') part = (last layers' part).or (last layers part) := by
  rw [last, List.reverse_append, List.findSome?_append, ← last, ← last]

theorem last_cons {part : ConfigLayer → Option α} :
    last (l :: layers) part = (last layers part).or (part l) := by
  rw [← List.singleton_append, last_append, last_singleton]

/-- A part that layers replace is what was said last, or what it was before. -/
theorem cover_getD (get : Config → α) {part : ConfigLayer → Option α}
    (h : ∀ c l, get (overlay c l) = (part l).getD (get c)) :
    get (c.cover layers) = (last layers part).getD (get c) := by
  induction layers generalizing c with
  | nil => rfl
  | cons l rest ih =>
    rw [cover_cons, ih, h, last_cons, Option.getD_or]

/-- An optional part that layers replace is what was said last, or what it was before. -/
theorem cover_or (get : Config → Option α) {part : ConfigLayer → Option α}
    (h : ∀ c l, get (overlay c l) = (part l).or (get c)) :
    get (c.cover layers) = (last layers part).or (get c) := by
  induction layers generalizing c with
  | nil => rfl
  | cons l rest ih =>
    rw [cover_cons, ih, h, last_cons, Option.or_assoc]

/-- Layers keep the default models in the order of their providers. -/
theorem rising_cover (h : Keyed.Rising c.defaultModels) :
    Keyed.Rising (c.cover layers).defaultModels := by
  induction layers generalizing c with
  | nil => exact h
  | cons l rest ih => exact ih (Keyed.Rising.insertAll h)

/-- Every part of the configuration is what the last layer says about it, and what it is in `base`
if none does. -/
structure IsLayered (base : Config) (layers : List ConfigLayer) (c : Config) : Prop where
  defaultTimeout : c.defaultTimeout = (last layers (·.defaultTimeout)).getD base.defaultTimeout
  toolTimeout : c.toolTimeout = (last layers (·.toolTimeout)).getD base.toolTimeout
  persistTimeout : c.persistTimeout = (last layers (·.persistTimeout)).getD base.persistTimeout
  enabledTools : c.enabledTools = (last layers (·.enabledTools)).or base.enabledTools
  defaultModels : ∀ provider, c.defaultModels.lookup provider =
    (last layers fun l => l.defaultModels.reverse.lookup provider).or
      (base.defaultModels.lookup provider)
  rising : Keyed.Rising c.defaultModels
  knowledgeLimit : c.knowledgeLimit = (last layers (·.knowledgeLimit)).getD base.knowledgeLimit
  relevanceThreshold :
    c.relevanceThreshold = (last layers (·.relevanceThreshold)).getD base.relevanceThreshold
  workingDirectory :
    c.workingDirectory = (last layers (·.workingDirectory)).getD base.workingDirectory
  eventCapacity : c.eventCapacity = (last layers (·.eventCapacity)).getD base.eventCapacity
  systemPrompt : ∀ k, (c.profiles.forKind k).systemPrompt =
    (last layers fun l => (l.profile k).systemPrompt).getD (base.profiles.forKind k).systemPrompt
  temperature : ∀ k, (c.profiles.forKind k).temperature =
    (last layers fun l => (l.profile k).temperature).getD (base.profiles.forKind k).temperature
  maxTokens : ∀ k, (c.profiles.forKind k).maxTokens =
    (last layers fun l => (l.profile k).maxTokens).getD (base.profiles.forKind k).maxTokens
  modelPreferences : ∀ k,
    c.modelPreferences k = (last layers (·.modelPreferences k)).or (base.modelPreferences k)

/-- Covered by layers, a configuration has each part as it was said last. -/
theorem isLayered_cover (h : Keyed.Rising c.defaultModels) :
    IsLayered c layers (c.cover layers) where
  defaultTimeout := cover_getD (·.defaultTimeout) fun _ _ => rfl
  toolTimeout := cover_getD (·.toolTimeout) fun _ _ => rfl
  persistTimeout := cover_getD (·.persistTimeout) fun _ _ => rfl
  enabledTools := cover_or (·.enabledTools) fun _ _ => rfl
  defaultModels provider := cover_or (fun c => c.defaultModels.lookup provider)
    fun _ _ => Keyed.lookup_insertAll
  rising := rising_cover h
  knowledgeLimit := cover_getD (·.knowledgeLimit) fun _ _ => rfl
  relevanceThreshold := cover_getD (·.relevanceThreshold) fun _ _ => rfl
  workingDirectory := cover_getD (·.workingDirectory) fun _ _ => rfl
  eventCapacity := cover_getD (·.eventCapacity) fun _ _ => rfl
  systemPrompt k := cover_getD (fun c => (c.profiles.forKind k).systemPrompt) fun _ _ => rfl
  temperature k := cover_getD (fun c => (c.profiles.forKind k).temperature) fun _ _ => rfl
  maxTokens k := cover_getD (fun c => (c.profiles.forKind k).maxTokens) fun _ _ => rfl
  modelPreferences k := cover_or (fun c => c.modelPreferences k) fun _ _ => rfl

end Config

end Switchboard
