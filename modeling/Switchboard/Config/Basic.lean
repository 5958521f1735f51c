import Switchboard.Config.Profile
import Switchboard.Keyed
import Switchboard.Relevance

/-!
# Configuration

How long things may take, which tools and models may be used, how knowledge is searched, and
where tools work. A configuration is put together in steps and checked as a whole at the end.
-/

namespace Switchboard

/-- Why there is no configuration. -/
inductive ConfigFault where
  | environment (key message : String)
  | option (key message : String)
  | unreadable (path message : String)
  /-- A text that is no configuration; the reason is known if a name in it is unknown. -/
  | malformed (reason : Option String)
  | invalid (message : String)
deriving DecidableEq

/-- The text of a fault. -/
def ConfigFault.message : ConfigFault → String
  | environment key m => "Invalid environment variable '" ++ key ++ "': " ++ m
  | option key m => "Invalid option '" ++ key ++ "': " ++ m
  | unreadable path m => "Failed to read config file " ++ path ++ ": " ++ m
  | malformed (some reason) => "Failed to parse TOML config: " ++ reason
  | malformed none => "Failed to parse TOML config"
  | invalid m => "Configuration validation failed: " ++ m

/-- The name of a fault. -/
def ConfigFault.name : ConfigFault → String
  | environment .. => "InvalidEnvVar"
  | option .. => "InvalidOption"
  | unreadable .. => "Io"
  | malformed _ => "Parse"
  | invalid _ => "ValidationError"

/-- The fault as a value. What is wrong in a malformed text is not told. -/
def ConfigFault.toJson (f : ConfigFault) : Json :=
  match f with
  | malformed none => .obj [("error", .str f.name)]
  | f => .obj [("error", .str f.name), ("message", .str f.message)]

/-- A configuration. Times are in milliseconds. -/
structure Config where
  /-- The time for an answer of a model. -/
  defaultTimeout : Nat := 30000
  /-- The time for one tool. -/
  toolTimeout : Nat := 30000
  /-- The time a response waits for its exchange to be remembered. -/
  persistTimeout : Nat := 5000
  /-- The names of the enabled tools; all if none are given. -/
  enabledTools : Option (List String) := none
  /-- The model asked for if only a provider is. -/
  defaultModels : List (String × String) := []
  knowledgeLimit : Nat := Relevance.defaultLimit
  relevanceThreshold : Float := Relevance.defaultThreshold
  workingDirectory : String
  /-- How many events a subscriber may lag behind. -/
  eventCapacity : Nat := 256
  profiles : ProfileTable := .default
  /-- Replacements for the names preferred for a kind of request. -/
  modelPreferences : RequestKind → Option (List String) := fun _ => none

namespace Config

/-- Sets the model asked for if only a provider is. -/
def withDefaultModel (c : Config) (provider model : String) : Config :=
  { c with defaultModels := Keyed.insert provider model c.defaultModels }

/-- Replaces the names preferred for a kind of request. -/
def withPreferences (c : Config) (kind : RequestKind) (names : List String) : Config :=
  { c with modelPreferences := fun k => if k = kind then some names else c.modelPreferences k }

/-! ## Checking -/

/-- The greatest time that can be set. -/
def maxTimeout : Nat := 600000

/-- What is wrong with a time. -/
def timeoutFault? (name : String) (millis : Nat) : Option String :=
  if millis = 0 then some (name ++ " must be greater than 0")
  else if maxTimeout < millis then
    some (name ++ " must be <= " ++ toString maxTimeout ++ " (10 minutes)")
  else none

/-- What is wrong with a profile. -/
def profileFault? (kind : RequestKind) (p : Profile) : Option String :=
  if !(0 ≤ p.temperature && p.temperature ≤ 2) then
    some ("profiles." ++ kind.name ++ ".temperature must be between 0.0 and 2.0")
  else if p.maxTokens = 0 then
    some ("profiles." ++ kind.name ++ ".max_tokens must be greater than 0")
  else none

/-- Whether a name of an enabled tool is blank. -/
def hasBlankTool (c : Config) : Bool :=
  match c.enabledTools with
  | some names => names.any Text.isBlankString
  | none => false

/-- What is wrong with a configuration, first things first. -/
def fault? (c : Config) : Option String :=
  (timeoutFault? "default_timeout_ms" c.defaultTimeout).or <|
  (timeoutFault? "tool_timeout_ms" c.toolTimeout).or <|
  (timeoutFault? "persist_timeout_ms" c.persistTimeout).or <|
  if !(0 ≤ c.relevanceThreshold && c.relevanceThreshold ≤ 1) then
    some "relevance_threshold must be between 0.0 and 1.0"
  else if c.eventCapacity = 0 then some "event_capacity must be greater than 0"
  else if c.hasBlankTool then some "enabled_tools cannot contain empty names"
  else RequestKind.all.findSome? fun k => profileFault? k (c.profiles.forKind k)

/-- The configuration, if nothing is wrong with it. -/
def build (c : Config) : Except ConfigFault Config :=
  match c.fault? with
  | some m => .error (.invalid m)
  | none => .ok c

/-- The configuration as a value. -/
def toJson (c : Config) : Json :=
  let perKind (f : RequestKind → Option Json) : Json :=
    .obj (RequestKind.all.filterMap fun k => (f k).map (k.name, ·))
  .obj [("default_timeout_ms", Json.ofNat c.defaultTimeout),
    ("tool_timeout_ms", Json.ofNat c.toolTimeout),
    ("persist_timeout_ms", Json.ofNat c.persistTimeout),
    ("enabled_tools", Json.ofOption (Json.ofList .str) c.enabledTools),
    ("default_models", .obj (c.defaultModels.map fun m => (m.1, .str m.2))),
    ("knowledge_limit", Json.ofNat c.knowledgeLimit),
    ("relevance_threshold", Json.ofFloat c.relevanceThreshold),
    ("working_directory", .str c.workingDirectory),
    ("event_capacity", Json.ofNat c.eventCapacity),
    ("profiles", perKind fun k => some (c.profiles.forKind k).toJson),
    ("model_preferences", perKind fun k => (c.modelPreferences k).map (Json.ofList .str))]

end Config

end Switchboard
