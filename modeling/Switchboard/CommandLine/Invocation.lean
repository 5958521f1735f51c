import Switchboard.CommandLine.Grammar
import Switchboard.Decimal.Reading
import Switchboard.Relevance
import Switchboard.Request.Basic

/-!
# Invocations

The program is invoked to execute a request, to list models or tools, or to search the
knowledge. A file of configuration and a file for the memory can be named before or after the
command; the one named after it counts.
-/

namespace Switchboard.CommandLine

/-- A request to execute. -/
structure RunArguments where
  content : String
  kind : RequestKind
  id : Option String
  model : Option String
  provider : Option String
  timeoutMillis : Option Nat
  workspace : Option String
  file : Option String
  /-- Whether the events are printed. -/
  printsEvents : Bool

/-- What the program is asked to do. -/
inductive Command where
  | run (a : RunArguments)
  | models
  /-- All tools, or those that are run for requests of a kind. -/
  | tools (kind : Option RequestKind)
  /-- A search, after texts are added to the knowledge. -/
  | search (query : String) (limit : Nat) (threshold : Option Float) (additions : List String)

/-- An invocation of the program. -/
structure Invocation where
  config : Option String
  memory : Option String
  command : Command

/-- The width of numbers in arguments. -/
def numberBits : Nat := 64

/-- The number an argument stands for. -/
def count? (s : String) : Option Nat :=
  (Decimal.readNat numberBits s.toList).toOption

/-- The share an argument stands for. -/
def share? (s : String) : Option Float :=
  (Decimal.readFloat s.toList).toOption

/-! ## Grammars -/

/-- The options of every command: paths, which are not empty. -/
def sharedOptions : List OptionRule :=
  ["config", "memory"].map fun name => { name, accepts := some fun s => s != "" }

/-- The kind of a request as an option. -/
def kindOption : OptionRule :=
  { name := "kind", accepts := some fun s => (RequestKind.parse? s).isSome }

/-- The grammar up to the command. -/
def outerGrammar : Grammar where
  options := sharedOptions
  commands := ["run", "models", "tools", "search", "help"]
  hasVersion := true

/-- The grammar of a request to execute. -/
def runGrammar : Grammar where
  options := sharedOptions ++ [kindOption] ++
    (["id", "model", "provider", "workspace", "file"].map fun name => { name }) ++
    [{ name := "timeout-ms", accepts := some fun s => (count? s).isSome },
      { name := "events", accepts := none }]
  operandCount := 1

/-- The grammar of a list of models. -/
def modelsGrammar : Grammar where
  options := sharedOptions

/-- The grammar of a list of tools. -/
def toolsGrammar : Grammar where
  options := sharedOptions ++ [kindOption]

/-- The grammar of a search. -/
def searchGrammar : Grammar where
  options := sharedOptions ++
    [{ name := "limit", accepts := some fun s => (count? s).isSome },
      { name := "threshold", accepts := some fun s => (share? s).isSome },
      { name := "add", isRepeatable := true }]
  operandCount := 1

/-- How the program is invoked. -/
def usage : String :=
  "Usage: switchboard [--config FILE] [--memory FILE] COMMAND\n\n" ++
  "Commands:\n" ++
  "  run CONTENT [--kind KIND] [--id ID] [--model NAME] [--provider NAME]\n" ++
  "      [--timeout-ms N] [--workspace DIR] [--file PATH] [--events]\n" ++
  "  models\n" ++
  "  tools [--kind KIND]\n" ++
  "  search QUERY [--limit N] [--threshold X] [--add TEXT]...\n" ++
  "  help [COMMAND]"

/-- The operand of a command that has one. -/
def operand (a : Arguments) : String :=
  a.operands.head?.getD ""

/-- The kind among the options. -/
def kind? (a : Arguments) : Option RequestKind :=
  (a.value? "kind").bind RequestKind.parse?

/-- The request to execute. -/
def runOf (a : Arguments) : Command :=
  .run {
    content := operand a
    kind := (kind? a).getD .chat
    id := a.value? "id"
    model := a.value? "model"
    provider := a.value? "provider"
    timeoutMillis := (a.value? "timeout-ms").bind count?
    workspace := a.value? "workspace"
    file := a.value? "file"
    printsEvents := a.isSet "events" }

/-- The search. -/
def searchOf (a : Arguments) : Command :=
  .search (operand a) (((a.value? "limit").bind count?).getD Relevance.defaultLimit)
    ((a.value? "threshold").bind share?) (a.valuesOf "add")

/-- Information on a command, or on all. -/
def helpOn : List String → Stop
  | [] => .information
  | [name] => if outerGrammar.commands.contains name then .information else .misuse
  | _ => .misuse

/-- Reads the arguments of a command. -/
def readCommand (name : String) (texts : List String) : Except Stop (Arguments × Command) :=
  match name with
  | "run" => (runGrammar.read texts).map fun a => (a, runOf a)
  | "models" => (modelsGrammar.read texts).map fun a => (a, .models)
  | "tools" => (toolsGrammar.read texts).map fun a => (a, .tools (kind? a))
  | "search" => (searchGrammar.read texts).map fun a => (a, searchOf a)
  | _ => .error (helpOn texts)

/-- Reads the arguments of the program. -/
def Invocation.read (texts : List String) : Except Stop Invocation := do
  match ← outerGrammar.readUpTo {} texts with
  | (_, none) => .error .misuse
  | (outer, some (name, rest)) =>
    let (inner, command) ← readCommand name rest
    let outer ← outer.settle
    let shared (option : String) := (inner.value? option).or (outer.value? option)
    return ⟨shared "config", shared "memory", command⟩

end Switchboard.CommandLine
