import Switchboard.Keyed

/-!
# JSON values

A value as programs hold it: integers apart from floating point numbers, and objects as lists
of members. The members of a record stand in order of declaration; those of any other object
in rising order of their keys without repetition.
-/

namespace Switchboard

/-- An integer, or a floating point number of double or single precision. Texts are read in
double precision only; the precision decides how a number is written. -/
inductive JsonNumber where
  | int (n : Int)
  | float (x : Float)
  | single (x : Float32)

/-- A JSON value. -/
inductive Json where
  | null
  | bool (b : Bool)
  | num (n : JsonNumber)
  | str (s : String)
  | arr (items : List Json)
  | obj (members : List (String × Json))

namespace Json

instance : Inhabited Json := ⟨.null⟩

/-- The object with the given members; of two with one key the later counts. -/
def ofMembers (members : List (String × Json)) : Json :=
  .obj (Keyed.insertAll members [])

/-- An integer as a value. -/
def ofNat (n : Nat) : Json :=
  .num (.int n)

/-- A floating point number as a value. -/
def ofFloat (x : Float) : Json :=
  .num (.float x)

/-- A single precision number as a value. -/
def ofFloat32 (x : Float32) : Json :=
  .num (.single x)

/-- `none` as the null value. -/
def ofOption {α : Type} (f : α → Json) : Option α → Json
  | none => .null
  | some a => f a

/-- A member that is left out if there is no value. -/
def optionalMember {α : Type} (name : String) (f : α → Json) : Option α → List (String × Json)
  | none => []
  | some a => [(name, f a)]

/-- A list as an array. -/
def ofList {α : Type} (f : α → Json) (l : List α) : Json :=
  .arr (l.map f)

/-- The member `key` of an object. -/
def get? (j : Json) (key : String) : Option Json :=
  match j with
  | .obj members => members.lookup key
  | _ => none

end Json

end Switchboard
