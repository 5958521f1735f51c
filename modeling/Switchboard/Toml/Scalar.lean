import Switchboard.Decimal.Reading

/-!
# TOML scalars

Strings in their four forms, integers, floating point numbers and dates. A reader takes its
scalar from the head of a text and gives back the text after it.
-/

namespace Switchboard.Toml

/-- A scalar. A date is kept in its canonical form. -/
inductive Scalar where
  | string (s : String)
  | integer (n : Int)
  | float (x : Float)
  | boolean (b : Bool)
  | date (canonical : String)

/-- Blanks and tabs. -/
def isBlank (c : Char) : Bool :=
  c = ' ' || c = '\t'

/-- The text after leading blanks and tabs. -/
def skipBlanks (s : List Char) : List Char :=
  s.dropWhile isBlank

/-- The text after a line break, if it begins with one. -/
def lineBreak? (s : List Char) : Option (List Char) :=
  match s with
  | '\n' :: rest => some rest
  | '\r' :: '\n' :: rest => some rest
  | _ => none

/-- Characters that may stand in comments and strings. -/
def isPlain (c : Char) : Bool :=
  c = '\t' || (32 ≤ c.toNat && c.toNat != 127)

/-- The text after a comment, if it begins with one. -/
def skipComment (s : List Char) : List Char :=
  match s with
  | '#' :: rest => rest.dropWhile isPlain
  | s => s

/-- The text after the rest of a line, if nothing but blanks and a comment is left on it. -/
def endOfLine? (s : List Char) : Option (List Char) :=
  match skipComment (skipBlanks s) with
  | [] => some []
  | rest => lineBreak? rest

/-- The value of a hexadecimal digit. -/
def hexValue (c : Char) : Option Nat :=
  if c.isDigit then some (c.toNat - 48)
  else if 'a' ≤ c ∧ c ≤ 'f' then some (c.toNat - 87)
  else if 'A' ≤ c ∧ c ≤ 'F' then some (c.toNat - 55)
  else none

/-- The character with a hexadecimal number. -/
def hexChar (ds : List Char) : Option Char := do
  let n ← ds.foldlM (fun n c => do return n * 16 + (← hexValue c)) 0
  if n.isValidChar then some (Char.ofNat n) else none

/-- The character after a backslash, and the text after it. -/
def readEscape (s : List Char) : Option (Char × List Char) :=
  match s with
  | 'b' :: rest => some (Char.ofNat 8, rest)
  | 't' :: rest => some ('\t', rest)
  | 'n' :: rest => some ('\n', rest)
  | 'f' :: rest => some (Char.ofNat 12, rest)
  | 'r' :: rest => some ('\r', rest)
  | '"' :: rest => some ('"', rest)
  | '\\' :: rest => some ('\\', rest)
  | 'u' :: rest => if rest.length < 4 then none else (hexChar (rest.take 4)).map (·, rest.drop 4)
  | 'U' :: rest => if rest.length < 8 then none else (hexChar (rest.take 8)).map (·, rest.drop 8)
  | _ => none

/-- The rest of a string up to its quote. Escapes count only if `escapes` is set. The fuel
bounds the number of characters. -/
def readLine (quote : Char) (escapes : Bool) (acc : List Char) :
    (fuel : Nat) → List Char → Option (String × List Char)
  | 0, _ => none
  | _, [] => none
  | fuel + 1, c :: rest =>
    if c = quote then some (String.ofList acc.reverse, rest)
    else if c = '\\' && escapes then
      match readEscape rest with
      | some (e, after) => readLine quote escapes (e :: acc) fuel after
      | none => none
    else if isPlain c then readLine quote escapes (c :: acc) fuel rest
    else none

/-- The text after blanks and line breaks. -/
def skipLines (s : List Char) : List Char :=
  s.dropWhile fun c => isBlank c || c = '\n' || c = '\r'

/-- The text after an escaped line break, if there is one after the backslash. -/
def foldedLine? (s : List Char) : Option (List Char) :=
  (lineBreak? (skipBlanks s)).map skipLines

/-- The rest of a string of several lines up to its three quotes. One or two quotes may stand
anywhere in it, also right before the three. -/
def readLines (quote : Char) (escapes : Bool) (acc : List Char) :
    (fuel : Nat) → List Char → Option (String × List Char)
  | 0, _ => none
  | _, [] => none
  | fuel + 1, c :: rest =>
    if c = quote then
      let run := (c :: rest).takeWhile (· = quote)
      let after := rest.drop (run.length - 1)
      if run.length < 3 then readLines quote escapes (run ++ acc) fuel after
      else
        let inside := min (run.length - 3) 2
        some (String.ofList ((run.take inside) ++ acc).reverse, (c :: rest).drop (inside + 3))
    else if c = '\\' && escapes then
      match foldedLine? rest with
      | some after => readLines quote escapes acc fuel after
      | none =>
        match readEscape rest with
        | some (e, after) => readLines quote escapes (e :: acc) fuel after
        | none => none
    else match lineBreak? (c :: rest) with
      | some after => readLines quote escapes ('\n' :: acc) fuel after
      | none => if isPlain c then readLines quote escapes (c :: acc) fuel rest else none

/-- The text of a string after its opening quotes, without the line break right after three of
them. -/
def readQuoted (quote : Char) (s : List Char) : Option (String × List Char) :=
  let escapes := quote = '"'
  match s with
  | a :: b :: rest =>
    if a = quote ∧ b = quote then
      let body := (lineBreak? rest).getD rest
      readLines quote escapes [] (body.length + 1) body
    else readLine quote escapes [] (s.length + 1) s
  | s => readLine quote escapes [] (s.length + 1) s

/-- A string of one line. -/
def readShortString (s : List Char) : Option (String × List Char) :=
  match s with
  | '"' :: rest => readLine '"' true [] (rest.length + 1) rest
  | '\'' :: rest => readLine '\'' false [] (rest.length + 1) rest
  | _ => none

/-! ## Numbers -/

/-- Digits satisfying `p` with single underscores between them, at least one; the digits alone
and the text after them. -/
def readDigits (p : Char → Bool) (s : List Char) : Option (List Char × List Char) :=
  match s with
  | [] => none
  | c :: rest =>
    if !p c then none
    else match rest with
      | '_' :: rest' => (readDigits p rest').map fun r => (c :: r.1, r.2)
      | rest => match readDigits p rest with
        | some r => some (c :: r.1, r.2)
        | none => match rest with
          | d :: _ => if p d then none else some ([c], rest)
          | [] => some ([c], [])

/-- Digits of a decimal integer: a single one, or several that do not begin with zero. -/
def readWhole (s : List Char) : Option (List Char × List Char) :=
  match s with
  | '0' :: rest => some (['0'], rest)
  | s => readDigits Char.isDigit s

/-- A sign, if there is one: whether it is a minus, and the text after it. -/
def readSign (s : List Char) : Bool × List Char :=
  match s with
  | '-' :: rest => (true, rest)
  | '+' :: rest => (false, rest)
  | s => (false, s)

/-- An integer that fits 64 bits. -/
def integer? (negative : Bool) (n : Nat) : Option Scalar :=
  let m : Int := if negative then -n else n
  if -(Nat.pow 2 63 : Int) ≤ m ∧ m < Nat.pow 2 63 then some (.integer m) else none

/-- An integer of another base after its prefix. -/
def readBased (base : Nat) (s : List Char) : Option (Scalar × List Char) := do
  let inBase (c : Char) : Bool := (hexValue c).any (· < base)
  let (ds, rest) ← readDigits inBase s
  let n := ds.foldl (fun n c => n * base + (hexValue c).getD 0) 0
  return (← integer? false n, rest)

/-- The fraction of a number, if there is one: its digits and the text after them. -/
def readFraction (s : List Char) : Option (Option (List Char) × List Char) :=
  match s with
  | '.' :: rest => (readDigits Char.isDigit rest).map fun r => (some r.1, r.2)
  | s => some (none, s)

/-- The exponent of a number, if there is one. -/
def readExponent (s : List Char) : Option (Option (Bool × List Char) × List Char) :=
  match s with
  | c :: rest =>
    if c = 'e' ∨ c = 'E' then
      let (negative, ds) := readSign rest
      (readDigits Char.isDigit ds).map fun r => (some (negative, r.1), r.2)
    else some (none, s)
  | [] => some (none, [])

/-- A number that is not finite. -/
def readSpecial (negative : Bool) (s : List Char) : Option (Scalar × List Char) :=
  let inf : Float := 1.0 / 0.0
  match s with
  | 'i' :: 'n' :: 'f' :: rest => some (.float (if negative then -inf else inf), rest)
  | 'n' :: 'a' :: 'n' :: rest => some (.float (0.0 / 0.0), rest)
  | _ => none

/-- A floating point number of its parts. It may not round to infinity, unless it is
negative. -/
def float? (negative : Bool) (whole : List Char) (fraction : Option (List Char))
    (exponent : Option (Bool × List Char)) : Option Scalar :=
  let f := fraction.getD []
  let e : Int := match exponent with
    | some (true, ds) => -(Nat.ofDigitChars 10 ds 0 : Int)
    | some (false, ds) => Nat.ofDigitChars 10 ds 0
    | none => 0
  let bits := Decimal.BinaryFormat.double.nearestDecimal
    ⟨Nat.ofDigitChars 10 (whole ++ f) 0, e - f.length⟩
  let x := Float.ofBits (UInt64.ofNat bits)
  if negative then some (.float (-x)) else if x.isInf then none else some (.float x)

/-- A decimal number. -/
def readDecimal (negative : Bool) (s : List Char) : Option (Scalar × List Char) := do
  let (whole, rest) ← readWhole s
  let (fraction, rest) ← readFraction rest
  let (exponent, rest) ← readExponent rest
  match fraction, exponent with
  | none, none => return (← integer? negative (Nat.ofDigitChars 10 whole 0), rest)
  | _, _ => return (← float? negative whole fraction exponent, rest)

/-- A number. -/
def readNumber (s : List Char) : Option (Scalar × List Char) :=
  match s with
  | '0' :: 'x' :: rest => readBased 16 rest
  | '0' :: 'o' :: rest => readBased 8 rest
  | '0' :: 'b' :: rest => readBased 2 rest
  | s =>
    let (negative, rest) := readSign s
    (readSpecial negative rest).or (readDecimal negative rest)

/-! ## Dates -/

/-- Exactly `n` digits: their number, and the text after them. -/
def readFixed (n : Nat) (s : List Char) : Option (Nat × List Char) :=
  let ds := s.take n
  if ds.length = n ∧ ds.all Char.isDigit then some (Nat.ofDigitChars 10 ds 0, s.drop n) else none

/-- A number in two digits. -/
def twoDigits (n : Nat) : String :=
  (if n < 10 then "0" else "") ++ toString n

/-- The days of a month. -/
def daysInMonth (year month : Nat) : Nat :=
  if month = 2 then
    (if year % 4 = 0 ∧ (year % 100 ≠ 0 ∨ year % 400 = 0) then 29 else 28)
  else if month = 4 ∨ month = 6 ∨ month = 9 ∨ month = 11 then 30
  else 31

/-- Whether a text begins as a date does. -/
def beginsDate (s : List Char) : Bool :=
  match readFixed 4 s with
  | some (_, '-' :: _) => true
  | _ => false

/-- Whether a text begins as a time does. -/
def beginsTime (s : List Char) : Bool :=
  match readFixed 2 s with
  | some (_, ':' :: _) => true
  | _ => false

/-- The text after a character that has to come next. -/
def afterMark (mark : Char) (s : List Char) : Option (List Char) :=
  match s with
  | c :: rest => if c = mark then some rest else none
  | [] => none

/-- A date without a time. -/
def readDay (s : List Char) : Option (String × List Char) := do
  let (year, s) ← readFixed 4 s
  let (month, s) ← readFixed 2 (← afterMark '-' s)
  let (day, s) ← readFixed 2 (← afterMark '-' s)
  let ys := toString year
  let padded := String.ofList (List.replicate (4 - ys.length) '0') ++ ys
  if 1 ≤ month ∧ month ≤ 12 ∧ 1 ≤ day ∧ day ≤ daysInMonth year month then
    some (padded ++ "-" ++ twoDigits month ++ "-" ++ twoDigits day, s)
  else none

/-- A fraction of a second to nine places without zeros at the end. -/
def canonicalFraction (ds : List Char) : String :=
  let kept := ((ds.take 9).reverse.dropWhile (· = '0')).reverse
  if kept.isEmpty then "" else "." ++ String.ofList kept

/-- A time of day. -/
def readClock (s : List Char) : Option (String × List Char) := do
  let (hour, s) ← readFixed 2 s
  let (minute, s) ← readFixed 2 (← afterMark ':' s)
  let (second, s) ← readFixed 2 (← afterMark ':' s)
  let (fraction, s) ← match s with
    | '.' :: rest =>
      let ds := rest.takeWhile Char.isDigit
      if ds.isEmpty then none else some (canonicalFraction ds, rest.drop ds.length)
    | s => some ("", s)
  if hour ≤ 23 ∧ minute ≤ 59 ∧ second ≤ 60 then
    some (twoDigits hour ++ ":" ++ twoDigits minute ++ ":" ++ twoDigits second ++ fraction, s)
  else none

/-- An offset from UTC, if there is one. -/
def readOffset (s : List Char) : Option (String × List Char) :=
  match s with
  | 'Z' :: rest => some ("Z", rest)
  | 'z' :: rest => some ("Z", rest)
  | c :: rest =>
    if c = '+' ∨ c = '-' then do
      let (hour, s) ← readFixed 2 rest
      let (minute, s) ← readFixed 2 (← afterMark ':' s)
      if hour ≤ 23 ∧ minute ≤ 59 then
        some (String.ofList [c] ++ twoDigits hour ++ ":" ++ twoDigits minute, s)
      else none
    else some ("", s)
  | [] => some ("", [])

/-- A date, a time, or both with an optional offset. -/
def readDate (s : List Char) : Option (Scalar × List Char) :=
  if beginsDate s then do
    let (day, rest) ← readDay s
    match rest with
    | c :: rest' =>
      if c = 'T' ∨ c = 't' ∨ (c = ' ' ∧ beginsTime rest') then
        let (clock, rest) ← readClock rest'
        let (offset, rest) ← readOffset rest
        return (.date (day ++ "T" ++ clock ++ offset), rest)
      else return (.date day, rest)
    | [] => return (.date day, [])
  else (readClock s).map fun r => (.date r.1, r.2)

/-- A scalar. -/
def readScalar (s : List Char) : Option (Scalar × List Char) :=
  match s with
  | '"' :: rest => (readQuoted '"' rest).map fun r => (.string r.1, r.2)
  | '\'' :: rest => (readQuoted '\'' rest).map fun r => (.string r.1, r.2)
  | 't' :: 'r' :: 'u' :: 'e' :: rest => some (.boolean true, rest)
  | 'f' :: 'a' :: 'l' :: 's' :: 'e' :: rest => some (.boolean false, rest)
  | s => if beginsDate s || beginsTime s then readDate s else readNumber s

end Switchboard.Toml
