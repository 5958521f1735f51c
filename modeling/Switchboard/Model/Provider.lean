import Switchboard.Model.Basic
import Switchboard.Failure

/-!
# Providers

A provider lists models and answers calls, each after some time. The demonstration provider
restates what it was asked and needs no backend.
-/

namespace Switchboard

/-- A provider of models. -/
structure Provider where
  name : String
  kind : ModelKind
  available : Bool := true
  /-- How long it takes to learn what can be chosen. -/
  listingDelay : Nat := 0
  listing : Except ProviderFailure (List ModelDescriptor)
  /-- How long an answer takes. -/
  delay : Nat := 0
  answer : ModelCall → Except ProviderFailure ModelOutput

namespace Provider

/-- The models that can be chosen now; an unreachable provider offers none. -/
def offered (p : Provider) : List ModelDescriptor :=
  match p.available, p.listing with
  | true, .ok models => models
  | _, _ => []

/-- Answers a call if the model is one of `models`. -/
def serve (models : List ModelDescriptor) (reply : ModelCall → ModelOutput) (call : ModelCall) :
    Except ProviderFailure ModelOutput :=
  if models.any fun m => m.name = call.model then .ok (reply call)
  else .error (.unknownModel call.model)

end Provider

namespace Demo

/-- The name of the demonstration provider. -/
def providerName : String := "local"

/-- The models of the demonstration provider. -/
def models : List ModelDescriptor :=
  [{ name := "codellama", providerName, kind := .local,
     capabilities := .ofListOr .code [.code, .debug, .refactor, .test], contextLength := 16384 },
   { name := "llama3", providerName, kind := .local,
     capabilities := .single .chat, contextLength := 8192 }]

/-- The number of lines that begin as a piece of context does. -/
def contextCount (prompt : String) : Nat :=
  (prompt.toList.splitOn '\n').countP fun line => ['-', ' ', '['].isPrefixOf line

/-- Restates the call. -/
def restate (call : ModelCall) : ModelOutput where
  content := call.model ++ " received: " ++ call.lastUserMessage.getD "" ++ " (" ++
    toString ((call.systemPrompt.map contextCount).getD 0) ++ " context snippets, " ++
    toString (call.messages.length - 2) ++ " prior messages)"

/-- The provider that restates calls. -/
def provider : Provider where
  name := providerName
  kind := .local
  listing := .ok models
  answer := Provider.serve models restate

end Demo

end Switchboard
