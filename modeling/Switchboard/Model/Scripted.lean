import Switchboard.Model.Provider
import Switchboard.Failure.Json

/-!
# Scripted providers

A scripted provider answers as it is told, after some time, with a reply or a failure. Without
a reply it gives back the last message of the user.
-/

namespace Switchboard

/-- A model of a scripted provider: a general one of some name, or any other. -/
inductive ScriptedModel where
  | general (name : String)
  | described (m : ModelDescriptor)

/-- What a scripted provider does. -/
structure ProviderScript where
  name : String
  kind : ModelKind := .local
  models : List ScriptedModel := []
  reply : Option String := none
  tokenCount : Option Nat := none
  failure : Option ProviderFailure := none
  listFailure : Option ProviderFailure := none
  unavailable : Bool := false
  delay : Nat := 0

namespace ProviderScript

/-- The description of a model of the provider. -/
def describe (s : ProviderScript) : ScriptedModel → ModelDescriptor
  | .general name =>
    { name, providerName := s.name, kind := s.kind, capabilities := .single .general
      contextLength := 8192 }
  | .described m => m

/-- The models the provider lists. -/
def listed (s : ProviderScript) : List ModelDescriptor :=
  s.models.map s.describe

/-- The answer to a call of a listed model: the reply, else the last message of the user behind
the name of the model. -/
def output (s : ProviderScript) (call : ModelCall) : ModelOutput :=
  ⟨s.reply.getD ("[" ++ call.model ++ "] " ++ call.lastUserMessage.getD ""), s.tokenCount⟩

/-- The provider that follows a script. -/
def toProvider (s : ProviderScript) : Provider where
  name := s.name
  kind := s.kind
  available := !s.unavailable
  listing := match s.listFailure with
    | some f => .error f
    | none => .ok s.listed
  delay := s.delay
  answer call := match s.failure with
    | some f => .error f
    | none => Provider.serve s.listed s.output call

/-- Reads a model: its name, or a whole description. -/
def readModel : Json.Reader ScriptedModel := fun origin depth d =>
  match d with
  | .str (some name) => .ok (.general name)
  | d => (ModelDescriptor.read origin depth d).map .described

/-- Reads a script. -/
def read : Json.Reader ProviderScript :=
  Json.readRecord (ProviderScript.mk <$> Json.need "name" Json.readString
    <*> Json.orElse "kind" .local ModelKind.read
    <*> Json.orElse "models" [] (Json.readList readModel)
    <*> Json.mayHave "reply" Json.readString
    <*> Json.mayHave "token_count" (Json.readNat 64)
    <*> Json.mayHave "failure" ProviderFailure.read
    <*> Json.mayHave "list_failure" ProviderFailure.read
    <*> Json.orElse "unavailable" false Json.readBool
    <*> Json.orElse "delay_ms" 0 (Json.readNat 64))

/-- Reads whether the demonstration provider is meant. -/
def readEcho : Json.Reader Bool :=
  Json.readRecord (Json.orElse "echo" false Json.readBool)

end ProviderScript

/-- Reads a provider: the demonstration provider, or a script to follow. -/
def Provider.read : Json.Reader Provider := fun origin depth d => do
  if ← ProviderScript.readEcho origin depth d then return Demo.provider
  else return (← ProviderScript.read origin depth d).toProvider

end Switchboard
