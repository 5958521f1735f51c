import Switchboard.Config.Basic
import Switchboard.Toml.Document
import Switchboard.FileSystem.Basic

/-!
# Configuration from a file

A file is a TOML document whose top-level keys are all known. The shapes of all values are
checked before anything is changed; the names of kinds of requests are looked up last.
-/

namespace Switchboard

namespace Toml.Value

/-- A natural number below `2 ^ bits`. -/
def nat? (bits : Nat) : Value → Option Nat
  | .scalar (.integer n) => if 0 ≤ n ∧ n < Nat.pow 2 bits then some n.toNat else none
  | _ => none

/-- A number. -/
def float? : Value → Option Float
  | .scalar (.integer n) => some (Float.ofInt n)
  | .scalar (.float x) => some x
  | _ => none

/-- A single precision number. -/
def float32? : Value → Option Float32
  | .scalar (.integer n) => some (Json.singleOfInt n)
  | .scalar (.float x) => some x.toFloat32
  | _ => none

/-- A string. -/
def string? : Value → Option String
  | .scalar (.string s) => some s
  | _ => none

/-- An array of strings. -/
def strings? : Value → Option (List String)
  | .array items => items.mapM string?
  | _ => none

/-- The key under which a date stands where a table is due. -/
def dateKey : String := "$__toml_private_datetime"

/-- A table; a date counts as a table with one string. -/
def table? {α : Type} (f : Value → Option α) : Value → Option (List (String × α))
  | .table entries => entries.mapM fun e => do return (e.1, ← f e.2)
  | .scalar (.date s) => do return [(dateKey, ← f (.scalar (.string s)))]
  | _ => none

/-- The value of a key in a table, if there is one, provided it has the right shape. -/
def field? {α : Type} (entries : List (String × Value)) (key : String) (f : Value → Option α) :
    Option (Option α) :=
  match entries.lookup key with
  | none => some none
  | some v => (f v).map some

/-- The parts of a profile to replace: a table, or an array of the parts in order. -/
def profileOverride? : Value → Option ProfileOverride
  | .table entries => do
    return ⟨← field? entries "system_prompt" string?, ← field? entries "temperature" float32?,
      ← field? entries "max_tokens" (nat? 32)⟩
  | .array items => do
    let part {α : Type} (i : Nat) (f : Value → Option α) : Option (Option α) :=
      match items[i]? with
      | none => some none
      | some v => (f v).map some
    return ⟨← part 0 string?, ← part 1 float32?, ← part 2 (nat? 32)⟩
  | .scalar (.date _) => some {}
  | _ => none

end Toml.Value

/-! ## The file -/

/-- What a file sets. -/
structure ConfigFile where
  defaultTimeout : Option Nat
  toolTimeout : Option Nat
  persistTimeout : Option Nat
  enabledTools : Option (List String)
  defaultModels : Option (List (String × String))
  knowledgeLimit : Option Nat
  relevanceThreshold : Option Float
  workingDirectory : Option String
  eventCapacity : Option Nat
  profiles : Option (List (String × ProfileOverride))
  modelPreferences : Option (List (String × List String))

namespace ConfigFile

/-- The keys of a file. -/
def keys : List String :=
  ["default_timeout_ms", "tool_timeout_ms", "persist_timeout_ms", "enabled_tools",
    "default_models", "knowledge_limit", "relevance_threshold", "working_directory",
    "event_capacity", "profiles", "model_preferences"]

/-- The contents of a file. -/
def parse? (text : String) : Option ConfigFile := do
  let entries ← Toml.parse? text
  let field {α : Type} (key : String) (f : Toml.Value → Option α) := Toml.Value.field? entries key f
  if !entries.all fun e => keys.contains e.1 then none
  else return {
    defaultTimeout := ← field "default_timeout_ms" (·.nat? 64)
    toolTimeout := ← field "tool_timeout_ms" (·.nat? 64)
    persistTimeout := ← field "persist_timeout_ms" (·.nat? 64)
    enabledTools := ← field "enabled_tools" (·.strings?)
    defaultModels := ← field "default_models" (·.table? Toml.Value.string?)
    knowledgeLimit := ← field "knowledge_limit" (·.nat? 64)
    relevanceThreshold := ← field "relevance_threshold" (·.float?)
    workingDirectory := ← field "working_directory" (·.string?)
    eventCapacity := ← field "event_capacity" (·.nat? 64)
    profiles := ← field "profiles" (·.table? Toml.Value.profileOverride?)
    modelPreferences := ← field "model_preferences" (·.table? Toml.Value.strings?) }

/-- Looks up the kinds of requests that are the keys of a section. -/
def resolveKinds {α : Type} (heading : String) (l : List (String × α)) :
    Except ConfigFault (List (RequestKind × α)) :=
  l.mapM fun e =>
    match RequestKind.parse? e.1 with
    | some k => .ok (k, e.2)
    | none => .error (.malformed (some
        ("[" ++ heading ++ "]: " ++ RequestKind.unknownMessage e.1)))

end ConfigFile

namespace Config

/-- Changes the configuration by the contents of a file. -/
def withFile (c : Config) (f : ConfigFile) : Except ConfigFault Config := do
  let profiles ← ConfigFile.resolveKinds "profiles" (f.profiles.getD [])
  let preferences ← ConfigFile.resolveKinds "model_preferences" (f.modelPreferences.getD [])
  let c := { c with
    defaultTimeout := f.defaultTimeout.getD c.defaultTimeout
    toolTimeout := f.toolTimeout.getD c.toolTimeout
    persistTimeout := f.persistTimeout.getD c.persistTimeout
    enabledTools := f.enabledTools.or c.enabledTools
    defaultModels := Keyed.insertAll (f.defaultModels.getD []) c.defaultModels
    knowledgeLimit := f.knowledgeLimit.getD c.knowledgeLimit
    relevanceThreshold := f.relevanceThreshold.getD c.relevanceThreshold
    workingDirectory := f.workingDirectory.getD c.workingDirectory
    eventCapacity := f.eventCapacity.getD c.eventCapacity
    profiles := profiles.foldl (fun t p => t.override p.1 p.2) c.profiles }
  return preferences.foldl (fun c p => c.withPreferences p.1 p.2) c

/-- Changes the configuration by a TOML document. -/
def withToml (c : Config) (text : String) : Except ConfigFault Config :=
  match ConfigFile.parse? text with
  | some f => c.withFile f
  | none => .error (.malformed none)

/-- Changes the configuration by a file at a path. -/
def loadFile (c : Config) (fs : FileSystem) (path : String) : Except ConfigFault Config :=
  match fs.readText path with
  | .ok text => c.withToml text
  | .error f => .error (.unreadable path f.message)

end Config

end Switchboard
