import Switchboard.Json.Basic
import Switchboard.Decimal.Shortest

/-!
# Writing JSON

One printer with two layouts: compact, and indented by two blanks a level. Only quotes,
backslashes and control characters are escaped.
-/

namespace Switchboard.Json

/-- A character as it stands between quotes. -/
def escapeChar (c : Char) : List Char :=
  if c = '"' then ['\\', '"']
  else if c = '\\' then ['\\', '\\']
  else if c = '\n' then ['\\', 'n']
  else if c = '\r' then ['\\', 'r']
  else if c = '\t' then ['\\', 't']
  else if c.toNat = 8 then ['\\', 'b']
  else if c.toNat = 12 then ['\\', 'f']
  else if c.toNat < 32 then
    ['\\', 'u', '0', '0', Nat.digitChar (c.toNat / 16), Nat.digitChar (c.toNat % 16)]
  else [c]

/-- A string in quotes. -/
def renderString (s : String) : List Char :=
  '"' :: s.toList.flatMap escapeChar ++ ['"']

/-- An integer in decimal. -/
def renderInt : Int → List Char
  | .ofNat n => Decimal.natDigits n
  | .negSucc n => '-' :: Decimal.natDigits (n + 1)

/-- A floating point number by its shortest decimal; one that is not finite has no numeral. -/
def renderFloat (x : Float) : List Char :=
  (Decimal.renderFloat x).getD "null".toList

/-- A number. -/
def renderNumber : JsonNumber → List Char
  | .int n => renderInt n
  | .float x => renderFloat x
  | .single x => (Decimal.renderFloat32 x).getD "null".toList

/-- What stands between the tokens of a value. -/
structure Layout where
  /-- Line break and indentation at a depth. -/
  line : Nat → List Char
  /-- Separator of key and value. -/
  colon : List Char

/-- No white space at all. -/
def Layout.compact : Layout := ⟨fun _ => [], [':']⟩

/-- Each item on a line of its own, indented by two blanks a level. -/
def Layout.indented : Layout := ⟨fun depth => '\n' :: List.replicate (2 * depth) ' ', [':', ' ']⟩

mutual
/-- A value at a depth. -/
def render (layout : Layout) (depth : Nat) : Json → List Char
  | .null => "null".toList
  | .bool true => "true".toList
  | .bool false => "false".toList
  | .num n => renderNumber n
  | .str s => renderString s
  | .arr [] => ['[', ']']
  | .arr (j :: rest) =>
    '[' :: layout.line (depth + 1) ++ render layout (depth + 1) j ++
      renderItems layout (depth + 1) rest ++ layout.line depth ++ [']']
  | .obj [] => ['{', '}']
  | .obj ((k, j) :: rest) =>
    '{' :: layout.line (depth + 1) ++ renderString k ++ layout.colon ++
      render layout (depth + 1) j ++ renderMembers layout (depth + 1) rest ++
      layout.line depth ++ ['}']

/-- Further items of an array. -/
def renderItems (layout : Layout) (depth : Nat) : List Json → List Char
  | [] => []
  | j :: rest =>
    ',' :: layout.line depth ++ render layout depth j ++ renderItems layout depth rest

/-- Further members of an object. -/
def renderMembers (layout : Layout) (depth : Nat) : List (String × Json) → List Char
  | [] => []
  | (k, j) :: rest =>
    ',' :: layout.line depth ++ renderString k ++ layout.colon ++ render layout depth j ++
      renderMembers layout depth rest
end

/-- The value on one line without white space. -/
def compact (j : Json) : String :=
  String.ofList (render .compact 0 j)

/-- The value indented. -/
def pretty (j : Json) : String :=
  String.ofList (render .indented 0 j)

end Switchboard.Json
