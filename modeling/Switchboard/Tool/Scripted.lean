import Switchboard.Tool.Basic
import Switchboard.Json.Printer
import Switchboard.Failure.Json
import Switchboard.Tool.WorkspaceListing

/-!
# Scripted tools

A scripted tool answers by the content it is asked about, after some time, or it panics. A
broken tool always fails in the same way.
-/

namespace Switchboard

/-- What a scripted tool does. -/
structure ToolScript where
  name : String
  capabilities : List Capability := []
  /-- Answers by content; of two for one content the later counts. -/
  responses : List (String × Except String Json) := []
  fallback : Option (Except String Json) := none
  delay : Nat := 0
  unavailable : Bool := false
  panics : Bool := false

namespace ToolScript

/-- What the tool is asked about: the content of the request, else all arguments. -/
def contentKey (args : Json) : String :=
  match args.get? "content" with
  | some (.str s) => s
  | _ => args.compact

/-- The answer for a content. -/
def answer (s : ToolScript) (key : String) : Except String Json :=
  match s.responses.reverse.find? fun r => r.1 = key with
  | some r => r.2
  | none => s.fallback.getD (.ok (.str ("Mock response for: " ++ key)))

/-- How a run ends. -/
def react (s : ToolScript) (args : Json) : ToolReaction :=
  if s.panics then .panic
  else match s.answer (contentKey args) with
    | .ok j => .value j
    | .error e => .failure (.execution e)

/-- The tool that follows a script. -/
def toTool (s : ToolScript) : Tool where
  descriptor :=
    { name := s.name, description := "Mock tool " ++ s.name
      capabilities := .ofListOr .general s.capabilities }
  available := !s.unavailable
  delay _ := s.delay
  run _ _ args := s.react args

end ToolScript

/-- A tool that always fails. -/
def Tool.broken (name : String) (capabilities : CapabilitySet) (f : ToolFailure) : Tool where
  descriptor :=
    { name, description := "failing", parameters := .obj [("name", .str name)], capabilities }
  run _ _ _ := .failure f

namespace ToolScript

/-- Reads what a tool answers: a value, or the text of a failure. -/
def readAnswer : Json.Reader (Except String Json) := fun origin depth d => do
  match ← Json.readJson origin depth d with
  | .obj [("ok", j)] => .ok (.ok j)
  | .obj [("err", .str e)] => .ok (.error e)
  | _ => .error .wrongType

/-- Reads a content with its answer. -/
def readResponse : Json.Reader (String × Except String Json) :=
  Json.readRecord (Prod.mk <$> Json.need "content" Json.readString
    <*> Json.need "answer" readAnswer)

/-- Reads a script. -/
def read : Json.Reader ToolScript :=
  Json.readRecord (ToolScript.mk <$> Json.need "name" Json.readString
    <*> Json.need "capabilities" (Json.readList Capability.read)
    <*> Json.orElse "responses" [] (Json.readList readResponse)
    <*> Json.mayHave "default" readAnswer
    <*> Json.orElse "delay_ms" 0 (Json.readNat 64)
    <*> Json.orElse "unavailable" false Json.readBool
    <*> Json.orElse "panics" false Json.readBool)

/-- Reads the name of a tool of the library, or the failure of a broken tool, if one is meant. -/
def readSpecial : Json.Reader (Option String × Option ToolFailure) :=
  Json.readRecord (Prod.mk <$> Json.mayHave "builtin" Json.readString
    <*> Json.mayHave "fails_with" ToolFailure.read)

end ToolScript

/-- Reads a tool: one of the library, a broken one, or a script to follow. Only calls of the
last are recorded. -/
def Tool.read : Json.Reader (Tool × Bool) := fun origin depth d => do
  match ← ToolScript.readSpecial origin depth d with
  | (some _, _) => return (WorkspaceListing.tool, false)
  | (none, some f) =>
    let s ← ToolScript.read origin depth d
    return (.broken s.name (.ofListOr .general s.capabilities) f, false)
  | (none, none) => return ((← ToolScript.read origin depth d).toTool, true)

end Switchboard
