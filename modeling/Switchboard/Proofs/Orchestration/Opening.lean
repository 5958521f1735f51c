import Switchboard.Orchestration.Orchestrator
import Switchboard.Proofs.Config.Layering
import Switchboard.Proofs.Toml.Integers

/-!
# Opening an orchestrator

An orchestrator needs a channel for its events, and there is none beyond the greatest capacity. What
a configuration is checked for leaves that bound out: an accepted configuration opens an
orchestrator unless the last word about the capacity is beyond it (`opening`). Variables, options
and the builder itself can say so, as they take all natural numbers of 64 bits. A document cannot,
since its integers have a sign (`eventCapacity_le_of_parse?`).
-/

namespace Switchboard

open ConfigLayer (last)

namespace Toml.Value

theorem le_of_nat? {v : Value} {bits n : Nat} (hv : v.Fits) (h : v.nat? bits = some n) :
    n ≤ Channel.maxCapacity := by
  unfold nat? at h
  split at h
  · next m =>
    obtain ⟨-, hn⟩ := Option.ite_none_right_eq_some.mp h
    obtain rfl := Option.some.inj hn
    cases hv with
    | scalar hm =>
      have hlt : m < Nat.pow 2 63 := hm.2
      have hmax : Channel.maxCapacity = Nat.pow 2 63 - 1 := by decide
      omega
  · cases h

theorem exists_of_field? {α : Type} {entries : List (String × Value)} {key : String}
    {f : Value → Option α} {a : α} (h : field? entries key f = some (some a)) :
    ∃ e ∈ entries, f e.2 = some a := by
  unfold field? at h
  split at h
  · cases h
  · next v hv =>
    obtain ⟨_, ha, hr⟩ := Option.map_eq_some_iff.mp h
    obtain rfl := Option.some.inj hr
    exact ⟨(key, v), Keyed.mem_of_lookup_eq_some hv, ha⟩

end Toml.Value

/-- No document says a capacity beyond the greatest. -/
theorem ConfigFile.eventCapacity_le_of_parse? {text : String} {f : ConfigFile}
    (h : ConfigFile.parse? text = some f) : ∀ n ∈ f.eventCapacity, n ≤ Channel.maxCapacity := by
  obtain ⟨entries, hentries, h⟩ := Option.bind_eq_some_iff.mp h
  obtain ⟨-, h⟩ := Option.ite_none_left_eq_some.mp h
  simp only [Option.bind_eq_bind, Option.bind_eq_some_iff, Option.pure_def] at h
  obtain ⟨_, -, _, -, _, -, _, -, _, -, _, -, _, -, _, -, _, hcapacity, _, -, _, -, hf⟩ := h
  obtain rfl := Option.some.inj hf
  rintro n rfl
  obtain ⟨e, he, hn⟩ := Toml.Value.exists_of_field? hcapacity
  exact Toml.Value.le_of_nat? (Toml.fits_of_parse? hentries e he) hn

namespace ConfigStep

variable {fs : FileSystem} {directory : String} {c : Config} {step : ConfigStep}

/-- The capacity after some steps is the last one they name. -/
theorem eventCapacity_of_foldlM {steps : List ConfigStep}
    (h : steps.foldlM (apply fs directory) { workingDirectory := directory } = .ok c) :
    c.eventCapacity = (last (layersOf fs steps) (·.eventCapacity)).getD 256 := by
  have hcapacity := congrArg Config.eventCapacity (agreesOutsideSections_of_foldlM h)
  exact hcapacity.symm.trans (Config.cover_getD (·.eventCapacity) fun _ _ => rfl)

theorem eventCapacity_le_of_file? {f : ConfigFile} (h : f ∈ step.file? fs) :
    ∀ n ∈ f.eventCapacity, n ≤ Channel.maxCapacity := by
  cases step with
  | toml text => exact ConfigFile.eventCapacity_le_of_parse? h
  | file path =>
    obtain ⟨text, -, hparse⟩ := Option.bind_eq_some_iff.mp h
    exact ConfigFile.eventCapacity_le_of_parse? hparse
  | _ => cases h

end ConfigStep

namespace Orchestrator

/-- There is no orchestrator exactly if its capacity is beyond the greatest. -/
theorem new?_eq_none_iff {setup : Setup} {memory : Memory} {files : FileSystem} :
    new? setup memory files = none ↔ Channel.maxCapacity < max setup.config.eventCapacity 1 := by
  rw [new?, Option.map_eq_none_iff, Channel.ofCapacity?]
  split
  · next h => exact iff_of_false (Option.some_ne_none _) (not_lt.mpr h)
  · next h => exact iff_of_true rfl (not_le.mp h)

/-- The configuration of some steps, once it is accepted, has room for an event at least, and it
opens an orchestrator unless what was said last about the capacity of its channel is beyond the
greatest one. No document says so. -/
theorem opening {fs : FileSystem} {directory : String} {steps : List ConfigStep} {setup : Setup}
    (h : Config.ofSteps fs directory steps = .ok setup.config) (memory : Memory)
    (files : FileSystem) :
    1 ≤ setup.config.eventCapacity ∧
      (new? setup memory files = none ↔
        ∃ n ∈ last (ConfigStep.layersOf fs steps) (·.eventCapacity), Channel.maxCapacity < n) ∧
      ∀ step ∈ steps, ∀ f ∈ step.file? fs, ∀ n ∈ f.eventCapacity, n ≤ Channel.maxCapacity := by
  obtain ⟨c, hsteps, hbuild⟩ := Outcome.bind_eq_ok.mp h
  obtain ⟨rfl, hvalid⟩ := Config.build_eq_ok_iff.mp hbuild
  have hpos : 1 ≤ setup.config.eventCapacity := hvalid.eventCapacity_pos
  refine ⟨hpos, ?_, fun step _ f hf => ConfigStep.eventCapacity_le_of_file? hf⟩
  rw [new?_eq_none_iff, max_eq_left hpos, ConfigStep.eventCapacity_of_foldlM hsteps]
  cases last (ConfigStep.layersOf fs steps) (·.eventCapacity) with
  | none =>
    have hdefault : ¬Channel.maxCapacity < 256 := by decide
    simp [hdefault]
  | some n => simp

/-- An environment that asks for room for as many events as there are numbers. -/
def boast : List ConfigStep :=
  [.environment [("MAESTRO_EVENT_CAPACITY", "18446744073709551615")]]

/-- A variable says the greatest number of 64 bits, which is accepted and opens no orchestrator. -/
theorem opening_of_boast : ∃ c, Config.ofSteps .empty "/" boast = .ok c ∧
    ∀ (setup : Setup) (memory : Memory) (files : FileSystem), setup.config = c →
      new? setup memory files = none := by
  have hok : (Config.ofSteps .empty "/" boast).isOk = true := by
    decide +kernel
  obtain ⟨c, hc⟩ := Outcome.isOk_iff.mp hok
  refine ⟨c, hc, ?_⟩
  rintro setup memory files rfl
  obtain ⟨-, hnone, -⟩ := opening hc memory files
  exact hnone.mpr ⟨18446744073709551615, by decide +kernel, by decide⟩

end Orchestrator

end Switchboard
