import Mathlib.Order.Lattice
import Switchboard.Proofs.Model.Call

/-!
# The race of a call

A call that has been handed to a provider ends when the provider has answered, when the time limit
has come or when it is cancelled, whichever is first. Asked no later than it wakes, it has been
answered exactly if the answer comes within the limit (`endsWith_start`). Asked at every instant,
it ends at the first of the three (`EndsAt`), and so does a call that runs alone (`race`).
-/

namespace Switchboard

namespace PendingCall

variable {c : PendingCall} {cancelAt : Option Nat} {result : Except RequestFailure ModelOutput}

/-- A call that is not cancelled ends in one way, if it is asked no later than it wakes. -/
def EndsWith (c : PendingCall) (result : Except RequestFailure ModelOutput) : Prop :=
  ∀ now ≤ c.timed.wake, ∀ result', c.poll now false = some result' → result' = result

/-- Asked on time, a call has been answered if the answer comes within the limit. -/
theorem endsWith_start (name : String) (now delay limit : Nat)
    (outcome : Except ProviderFailure ModelOutput) :
    (PendingCall.mk name (.start now delay limit) limit outcome).EndsWith
      (if delay ≤ limit then outcome.mapError fun f => f.toRequestFailure name
        else .error (.timeout limit)) := by
  intro t ht result h
  simp only [Timed.wake, Timed.start, Nat.le_min] at ht
  rcases poll_cases h with ⟨hc, -⟩ | ⟨-, ⟨hdue, rfl⟩ | ⟨hdue, hdeadline, rfl⟩⟩
  · simp at hc
  · have hin : delay ≤ limit := by
      simp only [Timed.start] at hdue
      omega
    rw [if_pos hin]
  · have hout : ¬ delay ≤ limit := by
      simp only [Timed.start] at hdue hdeadline
      omega
    rw [if_neg hout]

/-- A call that wakes has ended. -/
theorem EndsWith.poll_wake (h : c.EndsWith result) : c.poll c.timed.wake false = some result := by
  cases hpoll : c.poll c.timed.wake false with
  | none => exact absurd (lt_wake_of_poll_eq_none hpoll) (Nat.lt_irrefl _)
  | some result' => rw [h _ (Nat.le_refl _) result' hpoll]

theorem poll_of_lt_wake {now : Nat} (h : now < c.timed.wake) : c.poll now false = none := by
  simp only [poll, Bool.false_eq_true, if_false, Timed.progress_eq_waiting_iff.mpr h]

/-- A call that is not cancelled and is asked no later than it wakes has ended exactly when it
wakes. -/
theorem eq_wake_of_poll {now : Nat} (hle : now ≤ c.timed.wake)
    (h : c.poll now false = some result) : now = c.timed.wake :=
  Nat.le_antisymm hle (Nat.le_of_not_lt fun hlt => by simp [poll_of_lt_wake hlt] at h)

/-- Whether a cancellation at the instant `cancelAt`, if there is one, has come. -/
def isCancelledBy (cancelAt : Option Nat) (now : Nat) : Bool :=
  cancelAt.any (· ≤ now)

/-- Asked at every instant, the call first answers at the instant `t`. -/
structure EndsAt (c : PendingCall) (cancelAt : Option Nat) (t : Nat)
    (result : Except RequestFailure ModelOutput) : Prop where
  answer : c.poll t (isCancelledBy cancelAt t) = some result
  silent : ∀ earlier < t, c.poll earlier (isCancelledBy cancelAt earlier) = none

/-- A call ends at its cancellation, if that comes before it wakes. -/
theorem endsAt_cancellation {t : Nat} (h : t < c.timed.wake) :
    c.EndsAt (some t) t (.error .cancelled) where
  answer := by simp [isCancelledBy, poll]
  silent earlier hlt := by
    have hnot : isCancelledBy (some t) earlier = false := by simpa [isCancelledBy] using hlt
    rw [hnot]
    exact poll_of_lt_wake (hlt.trans h)

/-- A call ends when it wakes, if it is not cancelled until then. -/
theorem EndsWith.endsAt (h : c.EndsWith result) (hcancel : ∀ t ∈ cancelAt, c.timed.wake < t) :
    c.EndsAt cancelAt c.timed.wake result := by
  have hnot : ∀ now ≤ c.timed.wake, isCancelledBy cancelAt now = false := by
    intro now hnow
    cases cancelAt with
    | none => rfl
    | some t => simpa [isCancelledBy] using hnow.trans_lt (hcancel t rfl)
  refine ⟨?_, fun earlier hlt => ?_⟩
  · rw [hnot _ (Nat.le_refl _)]
    exact h.poll_wake
  · rw [hnot _ hlt.le]
    exact poll_of_lt_wake hlt

end PendingCall

/-! ## Calls that run alone -/

namespace ModelRegistry

section

variable {r : ModelRegistry} {model : ModelDescriptor} {p : Provider} {call : ModelCall}
  {limit : Nat}

/-- A call to a registered provider begins unless it is cancelled. -/
theorem beginCall_eq_ok (hp : r.provider? model.providerName = some p) (now : Nat) :
    r.beginCall model call now limit false =
      .ok ⟨p.name, .start now p.delay limit, limit, p.answer call⟩ :=
  beginCall_eq_ok_iff.mpr ⟨p, hp, rfl, rfl⟩

/-- A call is not handed over if it is cancelled already. -/
theorem beginCall_of_cancelled (hp : r.provider? model.providerName = some p) (now : Nat) :
    r.beginCall model call now limit true = .error .cancelled := by
  simp [beginCall, hp]

/-- A call that is cancelled already asks no provider. -/
theorem call_of_cancelled (hp : r.provider? model.providerName = some p) (cancelAt : Option Nat) :
    r.call model call limit true cancelAt = ⟨.error .cancelled, 0, false⟩ := by
  simp [ModelRegistry.call, beginCall_of_cancelled hp]

/-- A call is cancelled if the cancellation comes before the answer and the limit. -/
theorem call_of_lt (hp : r.provider? model.providerName = some p) {c : Nat}
    (hc : c < min p.delay limit) :
    r.call model call limit false (some c) = ⟨.error .cancelled, c, true⟩ := by
  have hwake : c < (Timed.start 0 p.delay limit).wake := by simpa [Timed.wake, Timed.start] using hc
  simp [ModelRegistry.call, beginCall_eq_ok hp, endOfCall, hwake, PendingCall.poll]

/-- Without an earlier cancellation a call ends with the answer or at its limit, whichever comes
first. -/
theorem call_of_forall_lt (hp : r.provider? model.providerName = some p) {cancelAt : Option Nat}
    (hc : ∀ c ∈ cancelAt, min p.delay limit < c) :
    r.call model call limit false cancelAt =
      ⟨if p.delay ≤ limit then (p.answer call).mapError fun f => f.toRequestFailure p.name
        else .error (.timeout limit), min p.delay limit, true⟩ := by
  let pending : PendingCall := ⟨p.name, .start 0 p.delay limit, limit, p.answer call⟩
  have hwake : pending.timed.wake = min p.delay limit := by
    simp [pending, Timed.wake, Timed.start]
  have hstop : endOfCall pending cancelAt = (pending.timed.wake, false) := by
    cases cancelAt with
    | none => rfl
    | some c => exact if_neg (Nat.not_lt.mpr (hwake ▸ (hc c rfl).le))
  have hends := (PendingCall.endsWith_start p.name 0 p.delay limit (p.answer call)).poll_wake
  simp only [ModelRegistry.call, beginCall_eq_ok hp]
  change CallReport.mk ((pending.poll (endOfCall pending cancelAt).1
    (endOfCall pending cancelAt).2).getD _) (endOfCall pending cancelAt).1 true = _
  rw [hstop, hends, hwake, Option.getD_some]

end

/-- A call of a registered provider that runs alone is not handed over if it is cancelled already.
Else it is cancelled if that comes before the answer and the limit. If it does not, the answer
counts when it comes within the limit, and the limit otherwise. Begun at any instant, a call ends
so when it is asked at every instant. -/
theorem race (r : ModelRegistry) (model : ModelDescriptor) (p : Provider)
    (hp : r.provider? model.providerName = some p) (call : ModelCall) (limit : Nat) :
    let outcome : Except RequestFailure ModelOutput := match p.answer call with
      | .ok output => .ok output
      | .error f => .error (.provider p.name f.message f.retryable)
    let stop := min p.delay limit
    (∀ cancelAt, r.call model call limit true cancelAt = ⟨.error .cancelled, 0, false⟩) ∧
    (∀ c < stop, r.call model call limit false (some c) = ⟨.error .cancelled, c, true⟩) ∧
    (∀ cancelAt, (∀ c ∈ cancelAt, stop < c) → r.call model call limit false cancelAt =
      if p.delay ≤ limit then ⟨outcome, p.delay, true⟩
      else ⟨.error (.timeout limit), limit, true⟩) ∧
    ∀ now,
      r.beginCall model call now limit true = .error .cancelled ∧
      ∀ cancelAfter, (∀ c ∈ cancelAfter, c ≠ stop) →
        let report := r.call model call limit false cancelAfter
        ∃ pending, r.beginCall model call now limit false = .ok pending ∧
          pending.EndsAt (cancelAfter.map (now + ·)) (now + report.elapsed) report.result := by
  intro outcome stop
  have houtcome : (p.answer call).mapError (fun f => f.toRequestFailure p.name) = outcome := by
    cases h : p.answer call <;> simp [outcome, h, ProviderFailure.toRequestFailure]
  refine ⟨fun cancelAt => call_of_cancelled hp cancelAt, fun c hc => call_of_lt hp hc,
    fun cancelAt hc => ?_, fun now => ⟨beginCall_of_cancelled hp now, fun cancelAfter hne => ?_⟩⟩
  · rw [call_of_forall_lt hp hc, houtcome]
    split
    · rw [Nat.min_eq_left ‹_›]
    · rw [Nat.min_eq_right (by omega)]
  · refine ⟨_, beginCall_eq_ok hp now, ?_⟩
    have hwake : (Timed.start now p.delay limit).wake = now + stop := by
      simp [Timed.wake, Timed.start, stop, Nat.add_min_add_left]
    by_cases hc : ∃ c ∈ cancelAfter, c < stop
    · obtain ⟨c, rfl, hlt⟩ := hc
      rw [call_of_lt hp hlt]
      exact PendingCall.endsAt_cancellation (hwake ▸ Nat.add_lt_add_left hlt now)
    · have hlt : ∀ c ∈ cancelAfter, stop < c := fun c hmem =>
        lt_of_le_of_ne (not_lt.mp fun h => hc ⟨c, hmem, h⟩) (hne c hmem).symm
      rw [call_of_forall_lt hp hlt, ← hwake]
      refine (PendingCall.endsWith_start p.name now p.delay limit (p.answer call)).endsAt ?_
      simp only [Option.mem_def, Option.map_eq_some_iff, hwake]
      rintro _ ⟨c, hmem, rfl⟩
      exact Nat.add_lt_add_left (hlt c hmem) now

namespace Leisurely

/-- A provider that answers after 50 milliseconds, or fails if it may not say anything. -/
def provider : Provider where
  name := "local"
  kind := .local
  listing := .ok []
  delay := 50
  answer call := if call.maxTokens = 0 then .error (.service (some 503) "busy")
    else .ok { content := "hi" }

/-- The provider by itself. -/
def registry : ModelRegistry :=
  ⟨[provider]⟩

/-- The model of the provider. -/
def model : ModelDescriptor :=
  { name := "gpt-4o", providerName := "local", kind := .remote
    capabilities := .single .general, contextLength := 8192 }

/-- A call that allows some number of tokens. -/
def asking (maxTokens : Nat) : ModelCall :=
  { model := "gpt-4o", messages := [], temperature := 0, maxTokens }

end Leisurely

open Leisurely in
/-- A provider that takes a while is seen to end in each of the ways. -/
theorem race_of_leisurely :
    registry.provider? model.providerName = some provider ∧
      registry.call model (asking 9) 100 true none = ⟨.error .cancelled, 0, false⟩ ∧
      registry.call model (asking 9) 100 false (some 0) = ⟨.error .cancelled, 0, true⟩ ∧
      registry.call model (asking 9) 50 false (some 51) = ⟨.ok ⟨"hi", none⟩, 50, true⟩ ∧
      registry.call model (asking 0) 50 false none =
        ⟨.error (.provider "local" "Upstream error (503): busy" true), 50, true⟩ ∧
      registry.call model (asking 9) 49 false (some 60) = ⟨.error (.timeout 49), 49, true⟩ :=
  have hp : registry.provider? model.providerName = some provider := rfl
  ⟨hp, (race registry model provider hp (asking 9) 100).1 none,
    (race registry model provider hp (asking 9) 100).2.1 0 (by decide),
    (race registry model provider hp (asking 9) 50).2.2.1 (some 51) (by decide),
    (race registry model provider hp (asking 0) 50).2.2.1 none (by simp),
    (race registry model provider hp (asking 9) 49).2.2.1 (some 60) (by decide)⟩

end ModelRegistry

end Switchboard
