import Switchboard.Keyed

/-!
# The grammar of arguments

Arguments are options, operands and commands. An option is written with two hyphens; its value
follows an equals sign or is the next argument, which then must not look like an option. After
an argument of two hyphens alone everything is an operand. A command ends the options of its
own grammar and begins another.

An option is checked when the argument after its value is read, or at the end. The first
argument that does not fit decides, and a request for information counts only if everything
before it fits.
-/

namespace Switchboard.CommandLine

/-- An option. -/
structure OptionRule where
  name : String
  /-- Which values it takes; a switch takes none. -/
  accepts : Option (String → Bool) := some fun _ => true
  isRepeatable : Bool := false

/-- What arguments there may be. -/
structure Grammar where
  options : List OptionRule
  /-- How many operands there must be. -/
  operandCount : Nat := 0
  commands : List String := []
  hasVersion : Bool := false

/-- Why arguments are not carried out. -/
inductive Stop where
  /-- Help or the version is asked for. -/
  | information
  | misuse
deriving Repr, DecidableEq

/-- An argument by its form. -/
inductive Token where
  | endOfOptions
  | long (name : String) (value : Option String)
  | short (letter : Char)
  | plain (text : String)

/-- The form of an argument. -/
def Token.ofText (s : String) : Token :=
  match s.toList with
  | ['-', '-'] => .endOfOptions
  | '-' :: '-' :: body =>
    let name := body.takeWhile (· != '=')
    .long (String.ofList name) <|
      if name.length < body.length then some (String.ofList (body.drop (name.length + 1)))
      else none
  | '-' :: c :: _ => .short c
  | _ => .plain s

/-- The arguments read so far. -/
structure Arguments where
  /-- The options in order, each with its value; that of a switch is empty. -/
  values : List (String × String) := []
  /-- An option that has not been checked, with its value once that is read. -/
  pending : Option (OptionRule × Option String) := none
  operands : List String := []

namespace Arguments

/-- The value of an option. -/
def value? (a : Arguments) (name : String) : Option String :=
  a.values.lookup name

/-- Whether an option is set. -/
def isSet (a : Arguments) (name : String) : Bool :=
  (a.value? name).isSome

/-- The values of a repeatable option. -/
def valuesOf (a : Arguments) (name : String) : List String :=
  (a.values.filter fun v => v.1 = name).map (·.2)

/-- Whether the next argument may be a value. -/
def awaitsValue (a : Arguments) : Bool :=
  a.pending.any (·.2.isNone)

/-- Sets an option that may be set to a value it takes. -/
def assign (a : Arguments) (o : OptionRule) (value : String) : Except Stop Arguments :=
  if (!o.isRepeatable && a.isSet o.name) || o.accepts.any (fun ok => !ok value) then
    .error .misuse
  else .ok { a with values := a.values ++ [(o.name, value)] }

/-- Checks the option that has not been checked. -/
def settle (a : Arguments) : Except Stop Arguments :=
  match a.pending with
  | none => .ok a
  | some (_, none) => .error .misuse
  | some (o, some value) => { a with pending := none }.assign o value

end Arguments

/-! ## Reading -/

namespace Grammar

/-- Adds an operand if there may be another. -/
def addOperand (g : Grammar) (a : Arguments) (text : String) : Except Stop Arguments := do
  let a ← a.settle
  if a.operands.length < g.operandCount then return { a with operands := a.operands ++ [text] }
  else .error .misuse

/-- Asks for information. -/
def inform (a : Arguments) : Except Stop Arguments := do
  let _ ← a.settle
  .error .information

/-- Takes an option that the grammar may have. -/
def takeLong (g : Grammar) (a : Arguments) (name : String) (value : Option String) :
    Except Stop Arguments := do
  match g.options.find? fun o => o.name = name with
  | some o =>
    match o.accepts, value with
    | some _, some v => (← a.settle).assign o v
    | some _, none => return { (← a.settle) with pending := some (o, none) }
    | none, none => (← a.settle).assign o ""
    | none, some _ => .error .misuse
  | none =>
    if value.isNone && (name = "help" || (g.hasVersion && name = "version")) then inform a
    else .error .misuse

/-- Takes an argument before the end of the options. -/
def take (g : Grammar) (a : Arguments) : Token → Except Stop Arguments
  | .endOfOptions => .ok a
  | .long name value => g.takeLong a name value
  | .short c => if c = 'h' || (g.hasVersion && c = 'V') then inform a else .error .misuse
  | .plain text =>
    match a.pending with
    | some (o, none) => .ok { a with pending := some (o, some text) }
    | _ => g.addOperand a text

/-- Reads arguments up to a command; the command with the arguments after it. -/
def readUpTo (g : Grammar) (a : Arguments) :
    List String → Except Stop (Arguments × Option (String × List String))
  | [] => .ok (a, none)
  | text :: rest =>
    if !a.awaitsValue && g.commands.contains text then .ok (a, some (text, rest))
    else match Token.ofText text with
      | .endOfOptions => do return (← rest.foldlM g.addOperand a, none)
      | token => do readUpTo g (← g.take a token) rest

/-- Reads arguments without a command. -/
def read (g : Grammar) (texts : List String) : Except Stop Arguments := do
  let a ← (← g.readUpTo {} texts).1.settle
  if a.operands.length = g.operandCount then return a else .error .misuse

end Grammar

end Switchboard.CommandLine
