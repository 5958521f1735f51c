import Switchboard.Json.Basic

/-!
# JSON texts as far as they can be read

A text is read into a draft, which keeps everything that a later decision depends on: members
in the order of the text with repetitions, strings whose escapes name no text, numerals out
of range, and the place where the text stops being JSON. A reader of some type walks the
draft in the order of the text and so finds the first fault of either kind.

Characters after the first malformed place are never looked at. A draft without such a place
is a value (`Draft.value?`).
-/

namespace Switchboard.Json

/-- A numeral: a number, or one beyond the range of double precision. -/
inductive Numeral where
  | number (n : JsonNumber)
  | tooLarge

mutual
/-- A value as far as its text can be read. -/
inductive Draft where
  | null
  | bool (b : Bool)
  | num (n : Numeral)
  /-- `none` if an escaped surrogate has no partner. -/
  | str (s : Option String)
  | arr (items : List Draft) (closed : Bool)
  | obj (members : List (Option String × Draft)) (ending : Ending)
  /-- The text is malformed here. -/
  | broken

/-- How the members of an object end. -/
inductive Ending where
  | closed
  | broken
  /-- A value that is not a string stands where a key is due. -/
  | strayKey (key : Draft)
end

/-- The value of a hexadecimal digit. -/
def hexValue (c : Char) : Option Nat :=
  if '0' ≤ c ∧ c ≤ '9' then some (c.toNat - 48)
  else if 'a' ≤ c ∧ c ≤ 'f' then some (c.toNat - 87)
  else if 'A' ≤ c ∧ c ≤ 'F' then some (c.toNat - 55)
  else none

/-- The number of four hexadecimal digits. -/
def hexUnit (a b c d : Char) : Option Nat := do
  return (((← hexValue a) * 16 + (← hexValue b)) * 16 + (← hexValue c)) * 16 + (← hexValue d)

/-- The character named by a one-letter escape. -/
def simpleEscape : Char → Option Char
  | '"' => some '"'
  | '\\' => some '\\'
  | '/' => some '/'
  | 'b' => some (Char.ofNat 8)
  | 'f' => some (Char.ofNat 12)
  | 'n' => some '\n'
  | 'r' => some '\r'
  | 't' => some '\t'
  | _ => none

/-- The code units of a string up to its closing quote, and the text after it. A character
outside escapes is a unit of its own, so units may exceed sixteen bits. -/
def readUnits : List Char → Option (List Nat × List Char)
  | [] => none
  | '"' :: rest => some ([], rest)
  | '\\' :: 'u' :: a :: b :: c :: d :: rest =>
    match hexUnit a b c d with
    | some n => (readUnits rest).map fun r => (n :: r.1, r.2)
    | none => none
  | '\\' :: c :: rest =>
    match simpleEscape c with
    | some e => (readUnits rest).map fun r => (e.toNat :: r.1, r.2)
    | none => none
  | c :: rest =>
    if c.toNat < 32 || c = '\\' then none
    else (readUnits rest).map fun r => (c.toNat :: r.1, r.2)

/-- The text of code units: surrogates must come in pairs, the high one first. -/
def decodeUnits : List Nat → Option (List Char)
  | [] => some []
  | n :: rest =>
    if 0xd800 ≤ n ∧ n < 0xdc00 then
      match rest with
      | m :: rest' =>
        if 0xdc00 ≤ m ∧ m < 0xe000 then
          (decodeUnits rest').map (Char.ofNat (0x10000 + (n - 0xd800) * 0x400 + (m - 0xdc00)) :: ·)
        else none
      | [] => none
    else if 0xdc00 ≤ n ∧ n < 0xe000 then none
    else (decodeUnits rest).map (Char.ofNat n :: ·)

/-! ## Numerals -/

/-- The parts of a numeral as they stand in the text. -/
structure NumeralText where
  negative : Bool
  whole : List Char
  /-- `none` without a point. -/
  fraction : Option (List Char)
  /-- Sign (`true` for minus) and digits; `none` without an exponent. -/
  exponent : Option (Bool × List Char)

/-- The exponent of a numeral, if the text goes on with one; `none` if it is malformed. -/
def readExponent (s : List Char) : Option (Option (Bool × List Char) × List Char) :=
  match s with
  | c :: rest =>
    if c = 'e' ∨ c = 'E' then
      let (negative, digits) := match rest with
        | '-' :: r => (true, r)
        | '+' :: r => (false, r)
        | r => (false, r)
      let (ds, after) := digits.span Char.isDigit
      if ds.isEmpty then none else some (some (negative, ds), after)
    else some (none, s)
  | [] => some (none, s)

/-- A numeral at the head of a text: no leading zeros, and digits on both sides of a point. -/
def readNumeral (s : List Char) : Option (NumeralText × List Char) := do
  let (negative, unsigned) := match s with
    | '-' :: r => (true, r)
    | r => (false, r)
  let (whole, rest) := unsigned.span Char.isDigit
  if whole.isEmpty || (whole.head? = some '0' && whole.length != 1) then none
  else match rest with
    | '.' :: r =>
      let (fraction, after) := r.span Char.isDigit
      if fraction.isEmpty then none
      else
        let (exponent, after) ← readExponent after
        return (⟨negative, whole, some fraction, exponent⟩, after)
    | _ =>
      let (exponent, after) ← readExponent rest
      return (⟨negative, whole, none, exponent⟩, after)

/-- Appends digits to `n` while the result fits 64 bits; the result and the digits left. -/
def accumulate (n : Nat) : List Char → Nat × List Char
  | [] => (n, [])
  | c :: rest =>
    let m := n * 10 + (c.toNat - 48)
    if m < Nat.pow 2 64 then accumulate m rest else (n, c :: rest)

/-- `x * 10 ^ e`, where a number at a distance of more than 308 decimal places is brought near
in steps of that size; `none` if it leaves the range. -/
def scale (x : Float) : (fuel : Nat) → (e : Int) → Option Float
  | 0, _ => some x
  | fuel + 1, e =>
    if e.natAbs ≤ 308 then
      let power := Float.ofScientific 1 false e.natAbs
      if 0 ≤ e then
        let y := x * power
        if y.isInf then none else some y
      else some (x / power)
    else if x == 0 then some x
    else if 0 ≤ e then none
    else scale (x / Float.ofScientific 1 false 308) fuel (e + 308)

/-- The number a numeral stands for. Without point and exponent it is an integer if that fits
64 bits; minus zero and all else are floating point: as many leading digits as fit 64 bits,
scaled by a power of ten. -/
def NumeralText.value (t : NumeralText) : Numeral :=
  let (whole, restWhole) := accumulate 0 t.whole
  let fraction := t.fraction.getD []
  let (significand, restFraction) := accumulate whole fraction
  let point : Int := (restWhole.length : Int) - (fraction.length - restFraction.length)
  let signed (x : Float) : Numeral := .number (.float (if t.negative then -x else x))
  let scaled (e : Int) : Numeral :=
    match scale (Float.ofNat significand) 8 e with
    | some x => signed x
    | none => .tooLarge
  match t.fraction, t.exponent with
  | none, none =>
    if !restWhole.isEmpty then scaled point
    else if !t.negative then .number (.int whole)
    else if whole = 0 || Nat.pow 2 63 < whole then signed (Float.ofNat whole)
    else .number (.int (-whole))
  | _, none => scaled point
  | _, some (negative, ds) =>
    let e := Nat.ofDigitChars 10 ds 0
    if Nat.pow 2 31 ≤ e then
      if significand != 0 && !negative then .tooLarge else signed 0
    else scaled (point + if negative then -(e : Int) else e)

/-! ## Values -/

/-- White space of JSON. -/
def isSpace (c : Char) : Bool :=
  c = ' ' || c = '\n' || c = '\t' || c = '\r'

/-- The text after leading white space. -/
def skipSpace (s : List Char) : List Char :=
  s.dropWhile isSpace

/-- The text after the word `w`, if it begins with it. -/
def afterWord (w : List Char) (s : List Char) : Option (List Char) :=
  if w.isPrefixOf s then some (s.drop w.length) else none

/-- A draft, and the text after it unless it is broken off. -/
abbrev Reading := Draft × Option (List Char)

/-- A draft of one of the three words. -/
def readWord (w : List Char) (d : Draft) (s : List Char) : Reading :=
  match afterWord w s with
  | some rest => (d, some rest)
  | none => (.broken, none)

mutual
/-- The value at the head of a text. The fuel bounds the nesting of calls; the length of the
text suffices. -/
def readValue (fuel : Nat) (s : List Char) : Reading :=
  match fuel with
  | 0 => (.broken, none)
  | fuel + 1 =>
    match skipSpace s with
    | [] => (.broken, none)
    | '"' :: rest =>
      match readUnits rest with
      | some (units, after) => (.str ((decodeUnits units).map String.ofList), some after)
      | none => (.broken, none)
    | '[' :: rest =>
      match skipSpace rest with
      | ']' :: after => (.arr [] true, some after)
      | inner =>
        let (items, after) := readItems fuel inner
        (.arr items after.isSome, after)
    | '{' :: rest =>
      match skipSpace rest with
      | '}' :: after => (.obj [] .closed, some after)
      | inner =>
        let (members, ending, after) := readMembers fuel inner
        (.obj members ending, after)
    | c :: rest =>
      if c = 't' then readWord "rue".toList (.bool true) rest
      else if c = 'f' then readWord "alse".toList (.bool false) rest
      else if c = 'n' then readWord "ull".toList .null rest
      else match readNumeral (c :: rest) with
        | some (t, after) => (.num t.value, some after)
        | none => (.broken, none)

/-- The items of an array up to its bracket, at least one. -/
def readItems (fuel : Nat) (s : List Char) : List Draft × Option (List Char) :=
  match fuel with
  | 0 => ([], none)
  | fuel + 1 =>
    match readValue fuel s with
    | (d, none) => ([d], none)
    | (d, some after) =>
      match skipSpace after with
      | ']' :: rest => ([d], some rest)
      | ',' :: rest =>
        let (items, after) := readItems fuel rest
        (d :: items, after)
      | _ => ([d], none)

/-- The members of an object up to its brace, at least one. -/
def readMembers (fuel : Nat) (s : List Char) :
    List (Option String × Draft) × Ending × Option (List Char) :=
  match fuel with
  | 0 => ([], .broken, none)
  | fuel + 1 =>
    match skipSpace s with
    | '"' :: rest =>
      match readUnits rest with
      | none => ([], .broken, none)
      | some (units, after) =>
        let key := (decodeUnits units).map String.ofList
        match skipSpace after with
        | ':' :: rest =>
          match readValue fuel rest with
          | (d, none) => ([(key, d)], .broken, none)
          | (d, some after) =>
            match skipSpace after with
            | '}' :: rest => ([(key, d)], .closed, some rest)
            | ',' :: rest =>
              let (members, ending, after) := readMembers fuel rest
              ((key, d) :: members, ending, after)
            | _ => ([(key, d)], .broken, none)
        | _ => ([(key, .broken)], .broken, none)
    | other => ([], .strayKey (readValue fuel other).1, none)
end

/-- The draft of a whole text, and whether nothing but white space follows it. -/
def readText (s : String) : Draft × Bool :=
  let chars := s.toList
  match readValue (2 * chars.length + 2) chars with
  | (d, none) => (d, false)
  | (d, some after) => (d, (skipSpace after).isEmpty)

mutual
/-- Whether the draft has no malformed place. -/
def Draft.isWhole : Draft → Bool
  | .broken => false
  | .arr items closed => closed && areWhole items
  | .obj members ending => (match ending with | .closed => true | _ => false) &&
      membersAreWhole members
  | _ => true

/-- `isWhole` of every item. -/
def Draft.areWhole : List Draft → Bool
  | [] => true
  | d :: rest => d.isWhole && Draft.areWhole rest

/-- `isWhole` of every member. -/
def Draft.membersAreWhole : List (Option String × Draft) → Bool
  | [] => true
  | (_, d) :: rest => d.isWhole && Draft.membersAreWhole rest
end

/-- How far containers may still nest: to less than a number, or without limit. -/
abbrev Depth := Option Nat

/-- The depth inside a container; `none` if there may be none. -/
def deeper : Depth → Option Depth
  | none => some none
  | some n => if 1 < n then some (some (n - 1)) else none

mutual
/-- The value of a draft; `none` if it is broken, too deep, or has a string or numeral without
a value. -/
def Draft.value? (depth : Depth) : Draft → Option Json
  | .null => some .null
  | .bool b => some (.bool b)
  | .num (.number n) => some (.num n)
  | .num .tooLarge => none
  | .str s => s.map .str
  | .arr items closed => do
    let inner ← deeper depth
    let l ← Draft.values? inner items
    if closed then some (.arr l) else none
  | .obj members ending => do
    let inner ← deeper depth
    let l ← Draft.memberValues? inner members
    match ending with
    | .closed => some (ofMembers l)
    | _ => none
  | .broken => none

/-- The values of all items. -/
def Draft.values? (depth : Depth) : List Draft → Option (List Json)
  | [] => some []
  | d :: rest => do return (← d.value? depth) :: (← Draft.values? depth rest)

/-- The values of all members. -/
def Draft.memberValues? (depth : Depth) :
    List (Option String × Draft) → Option (List (String × Json))
  | [] => some []
  | (k, d) :: rest => do return (← k, ← d.value? depth) :: (← Draft.memberValues? depth rest)
end

mutual
/-- A value as a draft. -/
def toDraft : Json → Draft
  | .null => .null
  | .bool b => .bool b
  | .num n => .num (.number n)
  | .str s => .str (some s)
  | .arr items => .arr (toDrafts items) true
  | .obj members => .obj (toMemberDrafts members) .closed

/-- Values as drafts. -/
def toDrafts : List Json → List Draft
  | [] => []
  | j :: rest => toDraft j :: toDrafts rest

/-- Members as drafts. -/
def toMemberDrafts : List (String × Json) → List (Option String × Draft)
  | [] => []
  | (k, j) :: rest => (some k, toDraft j) :: toMemberDrafts rest
end

/-- How deep containers of a text may nest. -/
def nestingLimit : Nat := 128

/-- The value of a text. -/
def parse? (s : String) : Option Json :=
  match readText s with
  | (d, true) => d.value? (some nestingLimit)
  | (_, false) => none

end Switchboard.Json
