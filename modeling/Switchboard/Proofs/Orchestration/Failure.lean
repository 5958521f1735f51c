import Switchboard.Orchestration.Execution
import Switchboard.Proofs.Model.Call

/-!
# Why a request fails

A request is unserved if there is no model to choose or no provider is registered for the model
that is chosen (`Setup.unserved?`). An unserved request fails for that reason. A served one fails
with the text of a cancellation exactly if it is cancelled: providers and time limits fail in
other words (`PendingCall.eq_cancelled_iff_of_poll`), and no two failures of a request share the
text of a cancellation (`RequestFailure.eq_cancelled_of_message`).
-/

namespace Switchboard

namespace RequestFailure

/-- Only a cancellation has the text of a cancellation. -/
theorem eq_cancelled_of_message {f : RequestFailure} (h : f.message = message .cancelled) :
    f = .cancelled := by
  unfold message at h
  -- The first nine characters tell a cancellation from any other failure.
  have htake := congrArg (fun m => m.toList.take 9) h
  cases f with
  | cancelled => rfl
  | _ => simp at htake

theorem isCancellation_iff {f : RequestFailure} : f.isCancellation = true ↔ f = .cancelled := by
  cases f <;> simp [isCancellation]

end RequestFailure

namespace Setup

variable {s : Setup} {r : Request}

/-- Why no provider can be called for a request: there is no model to choose, or no provider is
registered for the model that is chosen. -/
def unserved? (s : Setup) (r : Request) : Option RequestFailure :=
  match s.selectModel r with
  | .error f => some f
  | .ok model =>
    match s.models.provider? model.providerName with
    | some _ => none
    | none => some (.modelNotFound model.name)

/-- Choosing a model fails only if there is none. -/
theorem eq_noModels_of_selectModel {f : RequestFailure} (h : s.selectModel r = .error f) :
    f = .noModels := by
  unfold selectModel ModelRegistry.select SelectionPolicy.select at h
  split at h <;> simp_all

theorem unserved?_of_selectModel_error {f : RequestFailure} (h : s.selectModel r = .error f) :
    s.unserved? r = some f := by
  simp [unserved?, h]

/-- A request for a model without a registered provider is not served. -/
theorem unserved?_of_provider?_eq_none {model : ModelDescriptor}
    (h : s.selectModel r = .ok model) (hp : s.models.provider? model.providerName = none) :
    s.unserved? r = some (.modelNotFound model.name) := by
  simp [unserved?, h, hp]

/-- A request for a model with a registered provider is served. -/
theorem unserved?_eq_none_of_isSome {model : ModelDescriptor} (h : s.selectModel r = .ok model)
    (hp : (s.models.provider? model.providerName).isSome) : s.unserved? r = none := by
  obtain ⟨p, hp⟩ := Option.isSome_iff_exists.mp hp
  simp [unserved?, h, hp]

/-- That a request is unserved is no cancellation. -/
theorem isCancellation_eq_false_of_unserved? {f : RequestFailure} (h : s.unserved? r = some f) :
    f.isCancellation = false := by
  unfold unserved? at h
  cases hm : s.selectModel r with
  | error f' =>
    simp only [hm, Option.some.injEq] at h
    rw [← h, eq_noModels_of_selectModel hm]
    rfl
  | ok model =>
    cases hp : s.models.provider? model.providerName with
    | some p => simp [hm, hp] at h
    | none =>
      simp only [hm, hp, Option.some.injEq] at h
      rw [← h]
      rfl

end Setup

end Switchboard
