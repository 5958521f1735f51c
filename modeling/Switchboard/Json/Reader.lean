import Switchboard.Json.Draft
import Switchboard.Text

/-!
# Reading typed values

A reader of a type walks a draft in the order of the text and reports the first fault it
meets: a malformed place, or a well-formed value of the wrong shape. Records are read either
from objects, where members may come in any order and unknown ones are passed over, or from
arrays of their fields in order of declaration.

Where a value came from decides the finer points. Only a text limits nesting and breaks off;
a value, and a text that was buffered into one, has neither.
-/

namespace Switchboard.Json

/-- Why a draft is not a value of the wanted type. -/
inductive Fault where
  | malformed
  | missingField (name : String)
  | duplicateField (name : String)
  | unknownVariant (name : String) (expected : List String)
  | wrongType
  | outOfRange
  | wrongLength
  /-- A value of the right shape that its type refuses. -/
  | refused (reason : String)
deriving Repr, DecidableEq

/-- A name in grave accents. -/
def quoteName (name : String) : String :=
  "`" ++ name ++ "`"

/-- The choice among names, as messages word it. -/
def expectedNames : List String → String
  | [] => "there are no variants"
  | [a] => "expected " ++ quoteName a
  | [a, b] => "expected " ++ quoteName a ++ " or " ++ quoteName b
  | names => "expected one of " ++ ", ".intercalate (names.map quoteName)

/-- The text of a fault; a malformed place has none. -/
def Fault.message : Fault → Option String
  | .malformed => none
  | .missingField name => some ("missing field " ++ quoteName name)
  | .duplicateField name => some ("duplicate field " ++ quoteName name)
  | .unknownVariant name expected =>
    some ("unknown variant " ++ quoteName name ++ ", " ++ expectedNames expected)
  | .wrongType => some "invalid type"
  | .outOfRange => some "invalid value"
  | .wrongLength => some "invalid length"
  | .refused reason => some reason

/-- Where a draft came from. -/
inductive Origin where
  /-- Directly from a text. -/
  | text
  /-- From a value. -/
  | value
  /-- From a text that was first read as a value of no particular type. -/
  | buffered
deriving DecidableEq

/-- Reads a value of type `α` from a draft. -/
abbrev Reader (α : Type) := (origin : Origin) → (depth : Depth) → Draft → Except Fault α

/-- The depth left inside a container. -/
def enter (depth : Depth) : Except Fault Depth :=
  match deeper depth with
  | some inner => .ok inner
  | none => .error .malformed

/-- The fault of a draft of another type than wanted. A scalar is read before it is refused, so
a malformed one is reported as such. -/
def misfit : Draft → Fault
  | .broken => .malformed
  | .str none => .malformed
  | .num .tooLarge => .malformed
  | _ => .wrongType

/-- A truth value. -/
def readBool : Reader Bool := fun _ _ d =>
  match d with
  | .bool b => .ok b
  | d => .error (misfit d)

/-- A string. -/
def readString : Reader String := fun _ _ d =>
  match d with
  | .str (some s) => .ok s
  | d => .error (misfit d)

/-- A natural number below `2 ^ bits`. -/
def readNat (bits : Nat) : Reader Nat := fun _ _ d =>
  match d with
  | .num (.number (.int n)) =>
    if 0 ≤ n ∧ n < Nat.pow 2 bits then .ok n.toNat else .error .outOfRange
  | d => .error (misfit d)

/-- A double precision number. -/
def readFloat : Reader Float := fun _ _ d =>
  match d with
  | .num (.number (.int n)) => .ok (Float.ofInt n)
  | .num (.number (.float x)) => .ok x
  | .num (.number (.single x)) => .ok x.toFloat
  | d => .error (misfit d)

/-- An integer in single precision, rounded once. -/
def singleOfInt : Int → Float32
  | .ofNat n => (UInt64.ofNat n).toFloat32
  | .negSucc n => -(UInt64.ofNat (n + 1)).toFloat32

/-- A single precision number; a double precision one is rounded. -/
def readFloat32 : Reader Float32 := fun _ _ d =>
  match d with
  | .num (.number (.int n)) => .ok (singleOfInt n)
  | .num (.number (.float x)) => .ok x.toFloat32
  | .num (.number (.single x)) => .ok x
  | d => .error (misfit d)

/-- Any value. -/
def readJson : Reader Json := fun _ depth d =>
  match d.value? depth with
  | some j => .ok j
  | none => .error .malformed

/-! ## Options, lists and maps -/

/-- A value, or null. -/
def readOption {α : Type} (r : Reader α) : Reader (Option α) := fun origin depth d =>
  match d with
  | .null => .ok none
  | d => (r origin depth d).map some

/-- A value that a further check may refuse. -/
def readAs {α β : Type} (r : Reader α) (check : α → Except String β) : Reader β :=
  fun origin depth d => do
    match check (← r origin depth d) with
    | .ok b => .ok b
    | .error reason => .error (.refused reason)

/-- Every item in order. -/
def readAll {α : Type} (r : Reader α) (origin : Origin) (depth : Depth) :
    List Draft → Except Fault (List α)
  | [] => .ok []
  | d :: rest => do return (← r origin depth d) :: (← readAll r origin depth rest)

/-- An array. -/
def readList {α : Type} (r : Reader α) : Reader (List α) := fun origin depth d =>
  match d with
  | .arr items closed => do
    let inner ← enter depth
    let l ← readAll r origin inner items
    if closed then .ok l else .error .malformed
  | d => .error (misfit d)

/-- Every member in order, key before value. -/
def readPairs {κ α : Type} (key : String → Except Fault κ) (r : Reader α) (origin : Origin)
    (depth : Depth) : List (Option String × Draft) → Except Fault (List (κ × α))
  | [] => .ok []
  | (none, _) :: _ => .error .malformed
  | (some k, d) :: rest => do
    let key' ← key k
    let a ← r origin depth d
    return (key', a) :: (← readPairs key r origin depth rest)

/-- An object as a list of pairs in the order of the text. -/
def readMap {κ α : Type} (key : String → Except Fault κ) (r : Reader α) :
    Reader (List (κ × α)) := fun origin depth d =>
  match d with
  | .obj members ending => do
    let inner ← enter depth
    let l ← readPairs key r origin inner members
    match ending with
    | .closed => .ok l
    | _ => .error .malformed
  | d => .error (misfit d)

/-- The variant of a name. -/
def variantOfName {α : Type} (variants : List (String × α)) (name : String) : Except Fault α :=
  match variants.find? fun v => v.1 = name with
  | some v => .ok v.2
  | none => .error (.unknownVariant name (variants.map (·.1)))

/-- One of finitely many names: a string, or an object whose only member has the name as key
and holds nothing. -/
def readVariant {α : Type} (variants : List (String × α)) : Reader α := fun origin depth d =>
  match d, origin with
  | .str (some s), _ => variantOfName variants s
  | .str none, _ => .error .malformed
  | .obj members ending, .text => do
    let _ ← enter depth
    match members, ending with
    | (some k, held) :: others, ending =>
      let a ← variantOfName variants k
      match held, others, ending with
      | .null, [], .closed => .ok a
      | .null, _, _ => .error .malformed
      | held, _, _ => .error (misfit held)
    | (none, _) :: _, _ => .error .malformed
    | [], .strayKey key => .error (misfit key)
    | [], _ => .error .malformed
  | _, .text => .error .malformed
  | .obj [(some k, held)] _, origin => do
    let a ← variantOfName variants k
    match held, origin with
    | .null, _ => .ok a
    | .obj [] _, .buffered => .ok a
    | _, _ => .error .wrongType
  | .obj _ _, _ => .error .outOfRange
  | _, _ => .error .wrongType

/-! ## Records -/

/-- The fields of a record as a draft gives them. -/
structure Entries where
  origin : Origin
  depth : Depth
  /-- Whether fields are found by name rather than by position. -/
  named : Bool
  /-- The draft of a field, if it is there. -/
  find : String → Except Fault (Option Draft)

/-- Reads some fields of a record. Their names come with checks that are run in the order of
the text, before the record is put together in order of declaration. -/
structure Fields (α : Type) where
  members : List (String × Reader Unit)
  build : Entries → Except Fault α

instance : Applicative Fields where
  pure a := ⟨[], fun _ => .ok a⟩
  map f x := ⟨x.members, fun e => (x.build e).map f⟩
  seq f x := ⟨f.members ++ (x ()).members, fun e => do
    let h ← f.build e
    let a ← (x ()).build e
    return h a⟩

/-- The check of a reader, without its value. -/
def checkOf {α : Type} (r : Reader α) : Reader Unit := fun origin depth d =>
  (r origin depth d).map fun _ => ()

/-- What is reported of a field that is not there. -/
def Entries.absent (e : Entries) (name : String) : Fault :=
  if e.named then .missingField name else .wrongLength

/-- A field that has to be there. -/
def need {α : Type} (name : String) (r : Reader α) : Fields α :=
  ⟨[(name, checkOf r)], fun e => do
    match ← e.find name with
    | some d => r e.origin e.depth d
    | none => .error (e.absent name)⟩

/-- A field with a value to fall back on. -/
def orElse {α : Type} (name : String) (fallback : α) (r : Reader α) : Fields α :=
  ⟨[(name, checkOf r)], fun e => do
    match ← e.find name with
    | some d => r e.origin e.depth d
    | none => .ok fallback⟩

/-- A field that may be absent or null. -/
def mayHave {α : Type} (name : String) (r : Reader α) : Fields (Option α) :=
  orElse name none (readOption r)

/-- A field that may be null, and absent only where fields have names. -/
def nullable {α : Type} (name : String) (r : Reader α) : Fields (Option α) :=
  ⟨[(name, checkOf (readOption r))], fun e => do
    match ← e.find name with
    | some d => readOption r e.origin e.depth d
    | none => if e.named then .ok none else .error .wrongLength⟩

/-- Checks the members of an object in the order of the text. -/
def checkMembers (known : List (String × Reader Unit)) (origin : Origin) (depth : Depth)
    (seen : List String) : List (Option String × Draft) → Except Fault Unit
  | [] => .ok ()
  | (none, _) :: _ => .error .malformed
  | (some k, d) :: rest =>
    match known.find? fun m => m.1 = k with
    | some m =>
      if seen.contains k then .error (.duplicateField k)
      else do
        m.2 origin depth d
        checkMembers known origin depth (k :: seen) rest
    | none =>
      if d.isWhole then checkMembers known origin depth seen rest else .error .malformed

/-- The fields of an object. -/
def entriesOfMembers (origin : Origin) (depth : Depth)
    (members : List (Option String × Draft)) : Entries :=
  ⟨origin, depth, true, fun name => .ok (members.lookup (some name))⟩

/-- The fields of an array, in the order of `names`. -/
def entriesOfItems (origin : Origin) (depth : Depth) (names : List String) (items : List Draft)
    (closed : Bool) : Entries :=
  ⟨origin, depth, false, fun name =>
    match items[names.idxOf name]? with
    | some d => .ok (some d)
    | none => if closed then .ok none else .error .malformed⟩

/-- A record from the members of an object. -/
def readMembersAs {α : Type} (fields : Fields α) (origin : Origin) (depth : Depth)
    (members : List (Option String × Draft)) (ending : Ending) : Except Fault α := do
  checkMembers fields.members origin depth [] members
  match ending with
  | .closed => fields.build (entriesOfMembers origin depth members)
  | _ => .error .malformed

/-- A record from the items of an array. -/
def readItemsAs {α : Type} (fields : Fields α) (origin : Origin) (depth : Depth)
    (items : List Draft) (closed : Bool) : Except Fault α := do
  let names := fields.members.map (·.1)
  let a ← fields.build (entriesOfItems origin depth names items closed)
  if !closed then .error .malformed
  else if items.length ≤ names.length then .ok a
  else .error (if origin = .text then .malformed else .wrongLength)

/-- A record from an object or an array. -/
def readRecord {α : Type} (fields : Fields α) : Reader α := fun origin depth d =>
  match d with
  | .obj members ending => do readMembersAs fields origin (← enter depth) members ending
  | .arr items closed => do readItemsAs fields origin (← enter depth) items closed
  | d => .error (misfit d)

/-- The value of a text: the reader's fault comes before anything after the value. -/
def decode {α : Type} (r : Reader α) (s : String) : Except Fault α :=
  match readText s with
  | (d, atEnd) => do
    let a ← r .text (some nestingLimit) d
    if atEnd then .ok a else .error .malformed

/-- The value of another type that a value describes. -/
def decodeValue {α : Type} (r : Reader α) (j : Json) : Except Fault α :=
  r .value none j.toDraft

end Switchboard.Json
