import Switchboard.Config.Basic
import Switchboard.Decimal.Reading

/-!
# Configuration from the environment

Each variable that is set replaces one part of the configuration. The first one with a value
that cannot be read is the fault.
-/

namespace Switchboard

/-- The variables of an environment. -/
abbrev Environment := List (String × String)

namespace Config

/-- The variables that say something about the configuration. -/
def variableNames : List String :=
  ["DEFAULT_TIMEOUT_MS", "TOOL_TIMEOUT_MS", "PERSIST_TIMEOUT_MS", "ENABLED_TOOLS",
    "KNOWLEDGE_LIMIT", "RELEVANCE_THRESHOLD", "WORKING_DIRECTORY", "EVENT_CAPACITY"].map
    ("MAESTRO_" ++ ·)

/-- The width of natural numbers in variables. -/
def variableBits : Nat := 64

/-- Changes the configuration by a variable, if it is set. -/
def applyVariable {α : Type} (vars : Environment) (key : String)
    (read : String → Except String α) (set : Config → α → Config) (c : Config) :
    Except ConfigFault Config :=
  match vars.lookup key with
  | none => .ok c
  | some text =>
    match read text with
    | .ok a => .ok (set c a)
    | .error m => .error (.environment key m)

/-- Reads a natural number; `type` is its type as messages name it. -/
def readCount (type text : String) : Except String Nat :=
  (Decimal.readNat variableBits text.toList).mapError fun f =>
    "invalid " ++ type ++ " value '" ++ text ++ "': " ++ f.message

/-- Reads a number. -/
def readShare (text : String) : Except String Float :=
  (Decimal.readFloat text.toList).mapError fun f =>
    "invalid f64 value '" ++ text ++ "': " ++ f.message

/-- The names in a comma-separated list. -/
def splitNames (text : String) : List String :=
  (Text.commaList text.toList).map String.ofList

/-- The configuration of an environment, beginning with `c`. -/
def withEnvironment (c : Config) (vars : Environment) : Except ConfigFault Config := do
  let c ← applyVariable vars "MAESTRO_DEFAULT_TIMEOUT_MS" (readCount "u64")
    (fun c n => { c with defaultTimeout := n }) c
  let c ← applyVariable vars "MAESTRO_TOOL_TIMEOUT_MS" (readCount "u64")
    (fun c n => { c with toolTimeout := n }) c
  let c ← applyVariable vars "MAESTRO_PERSIST_TIMEOUT_MS" (readCount "u64")
    (fun c n => { c with persistTimeout := n }) c
  let c ← applyVariable vars "MAESTRO_ENABLED_TOOLS" (fun s => .ok (splitNames s))
    (fun c l => { c with enabledTools := some l }) c
  let c ← applyVariable vars "MAESTRO_KNOWLEDGE_LIMIT" (readCount "usize")
    (fun c n => { c with knowledgeLimit := n }) c
  let c ← applyVariable vars "MAESTRO_RELEVANCE_THRESHOLD" readShare
    (fun c x => { c with relevanceThreshold := x }) c
  let c ← applyVariable vars "MAESTRO_WORKING_DIRECTORY" .ok
    (fun c s => { c with workingDirectory := s }) c
  applyVariable vars "MAESTRO_EVENT_CAPACITY" (readCount "usize")
    (fun c n => { c with eventCapacity := n }) c

end Config

end Switchboard
