import Switchboard.Model.Registry
import Switchboard.Proofs.Outcome

/-!
# Calls that are handed to providers

A call is handed over exactly if its provider is registered and it is not cancelled
(`ModelRegistry.beginCall_eq_ok_iff`). Then it ends because it is cancelled, or with the answer of
the provider, or because its limit comes before the answer (`PendingCall.poll_cases`).
-/

namespace Switchboard

namespace PendingCall

variable {c : PendingCall} {now : Nat} {cancelled : Bool}
  {result : Except RequestFailure ModelOutput}

/-- The ways a call ends. -/
theorem poll_cases (h : c.poll now cancelled = some result) :
    cancelled = true ∧ result = .error .cancelled ∨
    cancelled = false ∧
      (c.timed.due ≤ now ∧
          result = c.outcome.mapError (fun f => f.toRequestFailure c.providerName) ∨
        now < c.timed.due ∧ c.timed.deadline ≤ now ∧ result = .error (.timeout c.limit)) := by
  unfold poll at h
  cases cancelled with
  | true => exact Or.inl ⟨rfl, by simpa using h.symm⟩
  | false =>
    rw [if_neg Bool.false_ne_true] at h
    refine Or.inr ⟨rfl, ?_⟩
    split at h
    case h_1 hfinished =>
      exact Or.inl ⟨Timed.progress_eq_finished_iff.mp hfinished, (Option.some.inj h).symm⟩
    case h_2 hexpired =>
      obtain ⟨hdue, hdeadline⟩ := Timed.progress_eq_expired_iff.mp hexpired
      exact Or.inr ⟨hdue, hdeadline, (Option.some.inj h).symm⟩
    case h_3 => cases h

/-- A call that is answered was not cancelled. -/
theorem cancelled_eq_false_of_poll {output : ModelOutput}
    (h : c.poll now cancelled = some (.ok output)) : cancelled = false := by
  rcases poll_cases h with ⟨-, hresult⟩ | ⟨hc, -⟩
  · cases hresult
  · exact hc

/-- A call that is answered has the answer of its provider. -/
theorem outcome_of_poll {output : ModelOutput} (h : c.poll now cancelled = some (.ok output)) :
    c.outcome = .ok output := by
  rcases poll_cases h with ⟨-, hresult⟩ | ⟨-, ⟨-, hresult⟩ | ⟨-, -, hresult⟩⟩
  · cases hresult
  · exact Outcome.mapError_eq_ok.mp hresult.symm
  · cases hresult

/-- A call fails as cancelled exactly if it is cancelled. -/
theorem eq_cancelled_iff_of_poll {f : RequestFailure}
    (h : c.poll now cancelled = some (.error f)) : f = .cancelled ↔ cancelled = true := by
  rcases poll_cases h with ⟨hc, hresult⟩ | ⟨hc, ⟨-, hresult⟩ | ⟨-, -, hresult⟩⟩
  · simpa [hc] using hresult
  · cases houtcome : c.outcome <;> simp_all [ProviderFailure.toRequestFailure]
  · simp_all

end PendingCall

namespace ModelRegistry

variable {r : ModelRegistry} {model : ModelDescriptor} {call : ModelCall} {now limit : Nat}
  {cancelled : Bool} {pending : PendingCall}

/-- A call is not handed over if no provider serves the model, or if it is cancelled. -/
theorem beginCall_eq_error_iff {f : RequestFailure} :
    r.beginCall model call now limit cancelled = .error f ↔
      (r.provider? model.providerName = none ∧ f = .modelNotFound model.name) ∨
        ((r.provider? model.providerName).isSome ∧ cancelled = true ∧ f = .cancelled) := by
  unfold beginCall
  cases r.provider? model.providerName with
  | none => simp [eq_comm]
  | some p => cases cancelled <;> simp [eq_comm]

/-- A call is handed to the provider of the model, unless it is cancelled already. -/
theorem beginCall_eq_ok_iff :
    r.beginCall model call now limit cancelled = .ok pending ↔
      ∃ p, r.provider? model.providerName = some p ∧ cancelled = false ∧
        pending = ⟨p.name, .start now p.delay limit, limit, p.answer call⟩ := by
  unfold beginCall
  cases r.provider? model.providerName with
  | none => simp
  | some p => cases cancelled <;> simp [eq_comm]

theorem isSome_provider?_of_beginCall
    (h : r.beginCall model call now limit cancelled = .ok pending) :
    (r.provider? model.providerName).isSome := by
  obtain ⟨p, hp, -⟩ := beginCall_eq_ok_iff.mp h
  simp [hp]

/-- A call that is cancelled is not handed over. -/
theorem cancelled_eq_false_of_beginCall
    (h : r.beginCall model call now limit cancelled = .ok pending) : cancelled = false := by
  obtain ⟨-, -, hc, -⟩ := beginCall_eq_ok_iff.mp h
  exact hc

end ModelRegistry

end Switchboard
