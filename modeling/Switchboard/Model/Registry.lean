import Switchboard.Model.Provider
import Switchboard.Model.Selection
import Switchboard.Timer

/-!
# The registry of providers

Providers are registered under distinct names. The models to choose from are those of all
reachable providers in the order of registration. A call goes to the provider that the
description of the model names, and ends when the provider has answered, when the time limit
has come, or when the call is cancelled.
-/

namespace Switchboard

/-- The registered providers in order. -/
structure ModelRegistry where
  providers : List Provider := []

namespace ModelRegistry

/-- The provider of a name. -/
def provider? (r : ModelRegistry) (name : String) : Option Provider :=
  r.providers.find? fun p => p.name = name

/-- Adds a provider whose name is free. -/
def register (r : ModelRegistry) (p : Provider) : Except ProviderFailure ModelRegistry :=
  match r.provider? p.name with
  | some _ => .error (.duplicate p.name)
  | none => .ok { r with providers := r.providers ++ [p] }

/-- The models to choose from. -/
def offered (r : ModelRegistry) : List ModelDescriptor :=
  r.providers.flatMap Provider.offered

/-- How long it takes to learn what all providers offer; they are asked together. -/
def listingDelay (r : ModelRegistry) : Nat :=
  (r.providers.map (·.listingDelay)).foldl max 0

/-- The first model of a name. -/
def findModel (r : ModelRegistry) (name : String) : Option ModelDescriptor :=
  r.offered.find? fun m => m.name = name

/-- The model for a request. -/
def select (r : ModelRegistry) (policy : SelectionPolicy) (kind : RequestKind)
    (model provider : Option String) : Except RequestFailure ModelDescriptor :=
  policy.select r.offered kind model provider

end ModelRegistry

/-- A call that has been handed to its provider. -/
structure PendingCall where
  providerName : String
  timed : Timed
  limit : Nat
  outcome : Except ProviderFailure ModelOutput

namespace PendingCall

/-- The end of the call at an instant, if it has come. A cancellation counts first. -/
def poll (c : PendingCall) (now : Nat) (cancelled : Bool) :
    Option (Except RequestFailure ModelOutput) :=
  if cancelled then some (.error .cancelled)
  else match c.timed.progress now with
    | .finished => some (c.outcome.mapError fun f => f.toRequestFailure c.providerName)
    | .expired => some (.error (.timeout c.limit))
    | .waiting => none

/-- A call whose end has not come is waited for. -/
theorem lt_wake_of_poll_eq_none {c : PendingCall} {now : Nat} {cancelled : Bool}
    (h : c.poll now cancelled = none) : now < c.timed.wake := by
  rw [← Timed.progress_eq_waiting_iff]
  unfold poll at h
  split at h
  · simp at h
  · split at h <;> simp_all

end PendingCall

namespace ModelRegistry

/-- Hands a call to the provider of the model, unless it is cancelled already. -/
def beginCall (r : ModelRegistry) (model : ModelDescriptor) (call : ModelCall)
    (now limit : Nat) (cancelled : Bool) : Except RequestFailure PendingCall :=
  match r.provider? model.providerName with
  | none => .error (.modelNotFound model.name)
  | some p =>
    if cancelled then .error .cancelled
    else .ok ⟨p.name, .start now p.delay limit, limit, p.answer call⟩

/-- How a call went: its end, how long it took, and whether a provider was asked. -/
structure CallReport where
  result : Except RequestFailure ModelOutput
  elapsed : Nat
  asked : Bool

/-- When a call that runs alone from instant 0 ends, and whether by being cancelled at the
instant `cancelAt`. -/
def endOfCall (c : PendingCall) (cancelAt : Option Nat) : Nat × Bool :=
  match cancelAt with
  | some t => if t < c.timed.wake then (t, true) else (c.timed.wake, false)
  | none => (c.timed.wake, false)

/-- A call that runs alone. It may be cancelled before it begins, or at an instant after. -/
def call (r : ModelRegistry) (model : ModelDescriptor) (call : ModelCall) (limit : Nat)
    (cancelled : Bool) (cancelAt : Option Nat) : CallReport :=
  match r.beginCall model call 0 limit cancelled with
  | .error f => ⟨.error f, 0, false⟩
  | .ok c =>
    let stop := endOfCall c cancelAt
    ⟨(c.poll stop.1 stop.2).getD (.error (.timeout limit)), stop.1, true⟩

end ModelRegistry

end Switchboard
