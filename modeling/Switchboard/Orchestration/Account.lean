import Switchboard.Model.Basic
import Switchboard.Response

/-!
# From outputs to responses

An account says which model was chosen for a request and what the tools did. The response tells
it whether the request succeeded or not: a success carries the text of the model and below it a
line for every tool, a failure carries the text of what went wrong.
-/

namespace Switchboard

/-- Which model was chosen, if any, and what the tools did. -/
structure Account where
  model : Option ModelDescriptor := none
  records : List ToolRecord := []

/-- The text of an answer and the number of tokens of its model. -/
structure Answer where
  content : String
  tokenCount : Nat

namespace Account

/-- The account in the metadata of a response. -/
def metadata (a : Account) (tokenCount durationMillis : Nat) : ResponseMetadata :=
  ⟨a.model.map (·.name), a.model.map (·.providerName), tokenCount, durationMillis⟩

/-- The records of the tools, if there are any. -/
def toolResults (a : Account) : Option (List ToolRecord) :=
  if a.records.isEmpty then none else some a.records

/-- What the tools did, below the text of a model. -/
def toolSection (a : Account) : String :=
  if a.records.isEmpty then ""
  else "\n\nTool results:\n" ++ "\n".intercalate (a.records.map ToolRecord.summary)

/-- The answer that an output of the model gives. -/
def answer (a : Account) (o : ModelOutput) : Answer :=
  ⟨o.content ++ a.toolSection, o.effectiveTokenCount⟩

/-- The response to a request that succeeded. -/
def success (a : Account) (id : RequestId) (answer : Answer) (durationMillis : Nat) : Response where
  requestId := id
  content := answer.content
  toolResults := a.toolResults
  metadata := a.metadata answer.tokenCount durationMillis

/-- The response to a request that failed. -/
def failure (a : Account) (id : RequestId) (error : String) (durationMillis : Nat) : Response :=
  .failure id error (a.metadata 0 durationMillis) a.toolResults

end Account

end Switchboard
