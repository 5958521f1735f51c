import Switchboard.Config.Environment

/-!
# Configuration from options

Options are values under keys. Each known key sets one part of the configuration, if its value
has the right shape; unknown keys are passed over.
-/

namespace Switchboard.Config

/-- The fault of an option. -/
def badOption {α : Type} (key message : String) : Except ConfigFault α :=
  .error (.option key message)

/-- A natural number below `2 ^ 64`. -/
def optionNat (key : String) : Json → Except ConfigFault Nat
  | .num (.int n) =>
    if 0 ≤ n ∧ n < Nat.pow 2 64 then .ok n.toNat
    else badOption key "expected a non-negative integer"
  | _ => badOption key "expected a non-negative integer"

/-- A number. -/
def optionFloat (key : String) : Json → Except ConfigFault Float
  | .num (.int n) => .ok (Float.ofInt n)
  | .num (.float x) => .ok x
  | .num (.single x) => .ok x.toFloat
  | _ => badOption key "expected a number"

/-- A string. -/
def optionString (key : String) : Json → Except ConfigFault String
  | .str s => .ok s
  | _ => badOption key "expected a string"

/-- A list of names: an array, or one text with commas. -/
def optionNames (key : String) : Json → Except ConfigFault (List String)
  | .str s => .ok (splitNames s)
  | .arr items => items.mapM fun
    | .str s => .ok s
    | _ => badOption key "expected an array of strings"
  | _ => badOption key "expected an array or comma-separated string"

/-- The models asked for if only a provider is. -/
def optionModels (key : String) : Json → Except ConfigFault (List (String × String))
  | .obj members => members.mapM fun
    | (provider, .str model) => .ok (provider, model)
    | _ => badOption key "model names must be strings"
  | _ => badOption key "expected an object"

/-- Changes the configuration by one option. -/
def withOption (c : Config) (key : String) (value : Json) : Except ConfigFault Config :=
  match key with
  | "default_timeout_ms" => do return { c with defaultTimeout := ← optionNat key value }
  | "tool_timeout_ms" => do return { c with toolTimeout := ← optionNat key value }
  | "persist_timeout_ms" => do return { c with persistTimeout := ← optionNat key value }
  | "enabled_tools" => do return { c with enabledTools := some (← optionNames key value) }
  | "default_models" => do
    return (← optionModels key value).foldl (fun c m => c.withDefaultModel m.1 m.2) c
  | "knowledge_limit" => do return { c with knowledgeLimit := ← optionNat key value }
  | "relevance_threshold" => do return { c with relevanceThreshold := ← optionFloat key value }
  | "working_directory" => do return { c with workingDirectory := ← optionString key value }
  | "event_capacity" => do return { c with eventCapacity := ← optionNat key value }
  | _ => .ok c

/-- Changes the configuration by options in the order they are visited. -/
def withOptions (c : Config) : (options : List (String × Json)) → Except ConfigFault Config
  | [] => .ok c
  | (key, value) :: rest => do (← c.withOption key value).withOptions rest

end Switchboard.Config
