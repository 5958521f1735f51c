import Switchboard.Config.Step
import Switchboard.Proofs.Outcome

/-!
# Valid configurations

The checks that a configuration passes, and no others (`build_eq_ok_iff`). A number that is not a
number is in no range, as no comparison with it holds. A configuration is called invalid by these
checks alone, once all steps are done (`ofSteps_eq_invalid_iff`).
-/

namespace Switchboard

/-- The profile may be used. -/
structure Profile.IsValid (p : Profile) : Prop where
  zero_le_temperature : 0 ≤ p.temperature
  temperature_le_two : p.temperature ≤ 2
  maxTokens_pos : 0 < p.maxTokens

namespace Config

open Outcome

variable {c c' : Config} {m : String}

/-- A configuration that can be used. -/
structure IsValid (c : Config) : Prop where
  defaultTimeout : 1 ≤ c.defaultTimeout ∧ c.defaultTimeout ≤ 600000
  toolTimeout : 1 ≤ c.toolTimeout ∧ c.toolTimeout ≤ 600000
  persistTimeout : 1 ≤ c.persistTimeout ∧ c.persistTimeout ≤ 600000
  relevanceThreshold : 0 ≤ c.relevanceThreshold ∧ c.relevanceThreshold ≤ 1
  eventCapacity_pos : 0 < c.eventCapacity
  enabledTools : ∀ names ∈ c.enabledTools, ∀ name ∈ names, ∃ a ∈ name.toList, Text.isBlank a = false
  profiles : ∀ k, (c.profiles.forKind k).IsValid

/-- A fault found first is no fault of the rest. -/
theorem ite_some_eq_none_iff {α : Type} {p : Prop} [Decidable p] {a : α} {rest : Option α} :
    (if p then some a else rest) = none ↔ ¬p ∧ rest = none := by
  by_cases h : p <;> simp [h]

/-- A limit in time is without fault from one millisecond to ten minutes. -/
theorem timeoutFault?_eq_none_iff {name : String} {millis : Nat} :
    timeoutFault? name millis = none ↔ 1 ≤ millis ∧ millis ≤ 600000 := by
  simp only [timeoutFault?, ite_some_eq_none_iff, and_true]
  rw [maxTimeout]
  omega

/-- A profile without fault is a valid one. -/
theorem profileFault?_eq_none_iff {k : RequestKind} {p : Profile} :
    profileFault? k p = none ↔ p.IsValid := by
  rw [profileFault?, ite_some_eq_none_iff, ite_some_eq_none_iff]
  constructor
  · rintro ⟨htemperature, hmax, -⟩
    simp only [Bool.not_eq_true, Bool.not_eq_false', Bool.and_eq_true, decide_eq_true_eq]
      at htemperature
    exact ⟨htemperature.1, htemperature.2, Nat.pos_of_ne_zero hmax⟩
  · rintro ⟨hlow, hhigh, hmax⟩
    simp [hlow, hhigh, Nat.ne_of_gt hmax]

/-- No tool is blank exactly if each name has a character other than white space. -/
theorem hasBlankTool_eq_false_iff : c.hasBlankTool = false ↔
    ∀ names ∈ c.enabledTools, ∀ name ∈ names, ∃ a ∈ name.toList, Text.isBlank a = false := by
  unfold hasBlankTool
  cases c.enabledTools <;> simp [Text.isBlankString]

/-- A configuration without fault is a valid one. -/
theorem fault?_eq_none_iff : c.fault? = none ↔ c.IsValid := by
  simp only [fault?, Option.or_eq_none_iff, timeoutFault?_eq_none_iff, ite_some_eq_none_iff,
    Bool.not_eq_true, Bool.not_eq_false', Bool.and_eq_true, decide_eq_true_eq,
    hasBlankTool_eq_false_iff, List.findSome?_eq_none_iff, profileFault?_eq_none_iff]
  constructor
  · rintro ⟨hdefault, htool, hpersist, hthreshold, hcapacity, htools, hprofiles⟩
    exact ⟨hdefault, htool, hpersist, hthreshold, Nat.pos_of_ne_zero hcapacity, htools,
      fun k => hprofiles k k.mem_all⟩
  · rintro ⟨hdefault, htool, hpersist, hthreshold, hcapacity, htools, hprofiles⟩
    exact ⟨hdefault, htool, hpersist, hthreshold, Nat.ne_of_gt hcapacity, htools,
      fun k _ => hprofiles k⟩

/-- A valid configuration is built as it is, and no other is. -/
theorem build_eq_ok_iff : c.build = .ok c' ↔ c' = c ∧ c.IsValid := by
  rw [← fault?_eq_none_iff, build]
  cases c.fault? <;> simp [eq_comm]

/-- The fault of a limit in time names the limit. -/
theorem isPrefix_of_timeoutFault? {name : String} {millis : Nat}
    (h : timeoutFault? name millis = some m) : name.toList <+: m.toList := by
  unfold timeoutFault? at h
  split at h
  · simp [← Option.some.inj h]
  · obtain ⟨-, h⟩ := Option.ite_none_right_eq_some.mp h
    simp [← Option.some.inj h]

/-- The fault of a profile names the section. -/
theorem isPrefix_of_profileFault? {k : RequestKind} {p : Profile}
    (h : profileFault? k p = some m) : "profiles.".toList <+: m.toList := by
  unfold profileFault? at h
  split at h
  · simp [← Option.some.inj h]
  · obtain ⟨-, h⟩ := Option.ite_none_right_eq_some.mp h
    simp [← Option.some.inj h]

/-- No other check speaks of blank names. -/
theorem hasBlankTool_of_fault? (h : c.fault? = some "enabled_tools cannot contain empty names") :
    c.hasBlankTool = true := by
  simp only [fault?, Option.or_eq_some_iff] at h
  rcases h with h | ⟨-, h | ⟨-, h | ⟨-, h⟩⟩⟩
  · exact absurd (isPrefix_of_timeoutFault? h) (by decide)
  · exact absurd (isPrefix_of_timeoutFault? h) (by decide)
  · exact absurd (isPrefix_of_timeoutFault? h) (by decide)
  by_cases hblank : c.hasBlankTool = true
  · exact hblank
  rw [if_neg hblank] at h
  split at h
  · exact absurd (Option.some.inj h) (by decide)
  split at h
  · exact absurd (Option.some.inj h) (by decide)
  · obtain ⟨k, -, hprofile⟩ := List.exists_of_findSome?_eq_some h
    exact absurd (isPrefix_of_profileFault? hprofile) (by decide)

/-- A configuration that is not built is called invalid with its fault. -/
theorem build_eq_invalid_iff : c.build = .error (.invalid m) ↔ c.fault? = some m := by
  unfold build
  cases c.fault? <;> simp

theorem applyVariable_ne_invalid {α : Type} {vars : Environment} {key : String}
    {read : String → Except String α} {set : Config → α → Config} :
    applyVariable vars key read set c ≠ .error (.invalid m) := by
  unfold applyVariable
  cases vars.lookup key with
  | none => exact nofun
  | some text => cases hread : read text <;> simp [hread]

theorem withEnvironment_ne_invalid {vars : Environment} :
    c.withEnvironment vars ≠ .error (.invalid m) := by
  iterate 7 refine bind_ne_error applyVariable_ne_invalid fun _ => ?_
  exact applyVariable_ne_invalid

theorem optionNat_ne_invalid {key : String} {j : Json} : optionNat key j ≠ .error (.invalid m) := by
  unfold optionNat
  split
  · split <;> exact nofun
  · exact nofun

theorem optionFloat_ne_invalid {key : String} {j : Json} :
    optionFloat key j ≠ .error (.invalid m) := by
  unfold optionFloat
  split <;> exact nofun

theorem optionString_ne_invalid {key : String} {j : Json} :
    optionString key j ≠ .error (.invalid m) := by
  unfold optionString
  split <;> exact nofun

theorem optionNames_ne_invalid {key : String} {j : Json} :
    optionNames key j ≠ .error (.invalid m) := by
  unfold optionNames
  split
  · exact nofun
  · exact mapM_ne_error (fun _ => by split <;> exact nofun) _
  · exact nofun

theorem optionModels_ne_invalid {key : String} {j : Json} :
    optionModels key j ≠ .error (.invalid m) := by
  unfold optionModels
  split
  · exact mapM_ne_error (fun _ => by split <;> exact nofun) _
  · exact nofun

theorem withOption_ne_invalid {key : String} {j : Json} :
    c.withOption key j ≠ .error (.invalid m) := by
  unfold withOption
  split
  case h_4 => exact bind_ne_error optionNames_ne_invalid nofun
  case h_5 => exact bind_ne_error optionModels_ne_invalid nofun
  case h_7 => exact bind_ne_error optionFloat_ne_invalid nofun
  case h_8 => exact bind_ne_error optionString_ne_invalid nofun
  case h_10 => exact nofun
  all_goals exact bind_ne_error optionNat_ne_invalid nofun

theorem withOptions_ne_invalid {l : List (String × Json)} :
    c.withOptions l ≠ .error (.invalid m) := by
  induction l generalizing c with
  | nil => exact nofun
  | cons p rest ih => exact bind_ne_error withOption_ne_invalid fun _ => ih

theorem resolveKinds_ne_invalid {α : Type} {heading : String} {l : List (String × α)} :
    ConfigFile.resolveKinds heading l ≠ .error (.invalid m) := by
  refine mapM_ne_error (fun e => ?_) l
  cases RequestKind.parse? e.1 <;> exact nofun

theorem withToml_ne_invalid {text : String} : c.withToml text ≠ .error (.invalid m) := by
  unfold withToml
  cases ConfigFile.parse? text with
  | none => exact nofun
  | some f =>
    exact bind_ne_error resolveKinds_ne_invalid fun _ =>
      bind_ne_error resolveKinds_ne_invalid nofun

theorem loadFile_ne_invalid {fs : FileSystem} {path : String} :
    c.loadFile fs path ≠ .error (.invalid m) := by
  unfold loadFile
  cases fs.readText path with
  | error fault => exact nofun
  | ok text => exact withToml_ne_invalid

/-- No step calls a configuration invalid. -/
theorem apply_ne_invalid {fs : FileSystem} {directory : String} {step : ConfigStep} :
    step.apply fs directory c ≠ .error (.invalid m) := by
  cases step with
  | environment vars => exact withEnvironment_ne_invalid
  | options l => exact withOptions_ne_invalid
  | toml text => exact withToml_ne_invalid
  | file path => exact loadFile_ne_invalid
  | _ => exact nofun

/-- What is invalid is found when all steps are done. -/
theorem ofSteps_eq_invalid_iff {fs : FileSystem} {directory : String} {steps : List ConfigStep} :
    ofSteps fs directory steps = .error (.invalid m) ↔
      ∃ c, steps.foldlM (ConfigStep.apply fs directory) { workingDirectory := directory } = .ok c ∧
        c.fault? = some m := by
  have hne : steps.foldlM (ConfigStep.apply fs directory) { workingDirectory := directory } ≠
      .error (.invalid m) :=
    foldlM_ne_error (fun _ _ => apply_ne_invalid) steps _
  unfold ofSteps
  cases h : steps.foldlM (ConfigStep.apply fs directory) { workingDirectory := directory } with
  | ok c => simp [build_eq_invalid_iff]
  | error fault => simpa [h] using hne

end Config

end Switchboard
