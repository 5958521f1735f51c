import Switchboard.Text
import Switchboard.Decimal.Shortest

/-!
# Points in time

A point in time is a date of the proleptic Gregorian calendar and a time of day in UTC, to the
nanosecond. A leap second is a fraction of a second of one second or more. The written form is
RFC 3339; the accepted form is more lenient: blanks around the parts, a blank for the `T`, any
offset from UTC.
-/

namespace Switchboard

/-- A point in time in UTC. -/
structure Timestamp where
  year : Int
  month : Nat
  day : Nat
  hour : Nat
  minute : Nat
  second : Nat
  /-- Below one second, or below two in a leap second. -/
  nano : Nat
deriving Repr, DecidableEq

namespace Timestamp

/-- The parts from great to small. -/
def parts (t : Timestamp) : List Int :=
  [t.year, t.month, t.day, t.hour, t.minute, t.second, t.nano]

/-- Not later. -/
def le (s t : Timestamp) : Bool :=
  !t.parts.lex s.parts (· < ·)

/-- Whether no time is later than the next one. -/
def areOrdered : List Timestamp → Bool
  | s :: t :: rest => le s t && areOrdered (t :: rest)
  | _ => true

/-! ## Calendar -/

/-- Gregorian leap years. -/
def isLeapYear (y : Int) : Bool :=
  y % 4 = 0 && (y % 100 != 0 || y % 400 = 0)

/-- The number of days of a month. -/
def daysInMonth (y : Int) (m : Nat) : Nat :=
  if m = 2 then (if isLeapYear y then 29 else 28)
  else if m = 4 ∨ m = 6 ∨ m = 9 ∨ m = 11 then 30 else 31

/-- The first and last year of the calendar. -/
def minYear : Int := -262143

/-- The last year of the calendar. -/
def maxYear : Int := 262142

/-- The parts name a point in time. -/
def IsValid (t : Timestamp) : Prop :=
  minYear ≤ t.year ∧ t.year ≤ maxYear ∧ 1 ≤ t.month ∧ t.month ≤ 12 ∧ 1 ≤ t.day ∧
    t.day ≤ daysInMonth t.year t.month ∧ t.hour < 24 ∧ t.minute < 60 ∧ t.second < 60 ∧
    t.nano < 2000000000 ∧ (1000000000 ≤ t.nano → t.second = 59)

/-- Days from the first of March of year 0, in years that begin in March. -/
def dayNumber (y : Int) (m d : Nat) : Int :=
  let y' := if m ≤ 2 then y - 1 else y
  let m' : Int := if m ≤ 2 then m + 9 else m - 3
  365 * y' + y' / 4 - y' / 100 + y' / 400 + (153 * m' + 2) / 5 + (d - 1)

/-- The day number of the first of January 1970. -/
def epochDay : Int := 719468

/-- Whole seconds since the beginning of 1970. -/
def unixSeconds (t : Timestamp) : Int :=
  (dayNumber t.year t.month t.day - epochDay) * 86400 + t.hour * 3600 + t.minute * 60 + t.second

/-- The date with a day number. -/
def dateOfDay (n : Int) : Int × Nat × Nat :=
  let era := n / 146097
  let doe := n % 146097
  let yoe := (doe - doe / 1460 + doe / 36524 - doe / 146096) / 365
  let doy := doe - (365 * yoe + yoe / 4 - yoe / 100)
  let mp := (5 * doy + 2) / 153
  let d := doy - (153 * mp + 2) / 5 + 1
  let m := if mp < 10 then mp + 3 else mp - 9
  (yoe + era * 400 + (if m ≤ 2 then 1 else 0), m.toNat, d.toNat)

/-- The time that many seconds and nanoseconds after the beginning of 1970. -/
def ofUnix (seconds : Int) (nano : Nat) : Timestamp :=
  let (y, m, d) := dateOfDay (seconds / 86400 + epochDay)
  let rest := (seconds % 86400).toNat
  ⟨y, m, d, rest / 3600, rest / 60 % 60, rest % 60, nano⟩

/-- The time in UTC of a local time that is `offset` seconds ahead; `none` beyond the
calendar. -/
def ofLocal (t : Timestamp) (offset : Int) : Option Timestamp :=
  if offset = 0 then some t
  else
    let seconds : Int := t.hour * 3600 + t.minute * 60 + t.second - offset
    let days := dayNumber t.year t.month t.day + seconds / 86400
    let rest := (seconds % 86400).toNat
    let (y, m, d) := dateOfDay days
    if y < minYear ∨ maxYear < y then none
    else some ⟨y, m, d, rest / 3600, rest / 60 % 60, rest % 60, t.nano⟩

/-- `n` with at least `width` digits. -/
def padded (width n : Nat) : List Char :=
  let ds := Decimal.natDigits n
  List.replicate (width - ds.length) '0' ++ ds

/-- Four digits for years from 0 to 9999, a sign and at least four digits for others. -/
def renderYear (y : Int) : List Char :=
  if 0 ≤ y ∧ y ≤ 9999 then padded 4 y.toNat
  else (if y < 0 then '-' else '+') :: padded 4 y.natAbs

/-- The fraction of a second with 0, 3, 6 or 9 digits, the fewest that are exact. -/
def renderFraction (nano : Nat) : List Char :=
  if nano = 0 then []
  else if nano % 1000000 = 0 then '.' :: padded 3 (nano / 1000000)
  else if nano % 1000 = 0 then '.' :: padded 6 (nano / 1000)
  else '.' :: padded 9 nano

/-- RFC 3339 in UTC; a leap second has the number 60. -/
def render (t : Timestamp) : List Char :=
  let leap := 1000000000 ≤ t.nano
  renderYear t.year ++ '-' :: padded 2 t.month ++ '-' :: padded 2 t.day ++ 'T' ::
    padded 2 t.hour ++ ':' :: padded 2 t.minute ++ ':' ::
    padded 2 (if leap then t.second + 1 else t.second) ++
    renderFraction (if leap then t.nano - 1000000000 else t.nano) ++ ['Z']

/-! ## Reading -/

/-- Why a text names no point in time. -/
inductive Fault where
  | outOfRange
  | impossible
  | invalid
  | tooShort
  | tooLong
deriving Repr, DecidableEq

/-- The text of a fault. -/
def Fault.message : Fault → String
  | .outOfRange => "input is out of range"
  | .impossible => "no possible date and time matching input"
  | .invalid => "input contains invalid characters"
  | .tooShort => "premature end of input"
  | .tooLong => "trailing input"

/-- The text after leading white space. -/
def skipBlanks (s : List Char) : List Char :=
  s.dropWhile Text.isBlank

/-- At least one digit and at most `width`. -/
def readNumber (width : Option Nat) (s : List Char) : Except Fault (Nat × List Char) :=
  let ds := (match width with
    | some w => s.take w
    | none => s).takeWhile Char.isDigit
  match s, ds with
  | [], _ => .error .tooShort
  | _, [] => .error .invalid
  | _, _ =>
    let n := Nat.ofDigitChars 10 ds 0
    if n < Nat.pow 2 63 then .ok (n, s.drop ds.length) else .error .outOfRange

/-- A number between bounds, after blanks. -/
def readPart (lo hi : Nat) (s : List Char) : Except Fault (Nat × List Char) := do
  let (n, rest) ← readNumber (some 2) (skipBlanks s)
  if lo ≤ n ∧ n ≤ hi then .ok (n, rest) else .error .outOfRange

/-- A year: at most four digits, or any number of them after a sign. -/
def readYear (s : List Char) : Except Fault (Int × List Char) := do
  let (y, rest) ← (match skipBlanks s with
    | '-' :: r => do
      let (n, rest) ← readNumber none r
      return (-(n : Int), rest)
    | '+' :: r => do
      let (n, rest) ← readNumber none r
      return ((n : Int), rest)
    | r => do
      let (n, rest) ← readNumber (some 4) r
      return ((n : Int), rest) : Except Fault (Int × List Char))
  if -(Nat.pow 2 31 : Int) ≤ y ∧ y < Nat.pow 2 31 then .ok (y, rest) else .error .outOfRange

/-- The character `c`. -/
def readMark (c : Char) (s : List Char) : Except Fault (Unit × List Char) :=
  match s with
  | [] => .error .tooShort
  | d :: rest => if d = c then .ok ((), rest) else .error .invalid

/-- The fraction of a second in nanoseconds, if a point follows; digits beyond the ninth are
passed over. -/
def readFraction (s : List Char) : Except Fault (Nat × List Char) :=
  match s with
  | '.' :: r => do
    let (n, rest) ← readNumber (some 9) r
    let used := r.length - rest.length
    return (n * Nat.pow 10 (9 - used), rest.dropWhile Char.isDigit)
  | _ => .ok (0, s)

/-- Two digits, each of which is judged by its place. -/
def readPair (s : List Char) : Except Fault (Char × Char × List Char) :=
  match s with
  | [] => .error .tooShort
  | [c] => .error (if c.toNat < 128 then .tooShort else .invalid)
  | a :: b :: rest => .ok (a, b, rest)

/-- An offset from UTC in seconds. -/
def readOffset (s : List Char) : Except Fault (Int × List Char) :=
  match s with
  | [] => .error .tooShort
  | c :: rest =>
    if c = 'Z' ∨ c = 'z' then .ok (0, rest)
    else if c = '+' ∨ c = '-' ∨ c = '−' then do
      let (h, h', rest) ← readPair rest
      if !h.isDigit || !h'.isDigit then .error .invalid
      else
        let (m, m', rest) ← readPair (rest.dropWhile fun c => c = ':' || Text.isBlank c)
        if !m.isDigit || !m'.isDigit then .error .invalid
        else if '6' ≤ m then .error .outOfRange
        else
          let value (c : Char) : Int := c.toNat - 48
          let seconds := (value h * 10 + value h') * 3600 + (value m * 10 + value m') * 60
          return (if c = '+' then seconds else -seconds, rest)
    else .error .invalid

/-- The offset named by a zone: the word UTC in any case, or an offset. -/
def readZone (s : List Char) : Except Fault (Int × List Char) :=
  if (s.take 3).map Char.toLower = ['u', 't', 'c'] then .ok (0, s.drop 3) else readOffset s

/-- A date: year, month and day. -/
def readDate (s : List Char) : Except Fault ((Int × Nat × Nat) × List Char) := do
  let (year, s) ← readYear s
  let (_, s) ← readMark '-' (skipBlanks s)
  let (month, s) ← readPart 1 12 s
  let (_, s) ← readMark '-' (skipBlanks s)
  let (day, s) ← readPart 1 31 s
  return ((year, month, day), s)

/-- A time of day: hour, minute, second and nanosecond. -/
def readTime (s : List Char) : Except Fault ((Nat × Nat × Nat × Nat) × List Char) := do
  let (hour, s) ← readPart 0 23 s
  let (_, s) ← readMark ':' (skipBlanks s)
  let (minute, s) ← readPart 0 59 s
  let (_, s) ← readMark ':' (skipBlanks s)
  let (second, s) ← readPart 0 60 s
  let (nano, s) ← readFraction s
  return ((hour, minute, second, nano), skipBlanks s)

/-- The separator of date and time. -/
def readSeparator (s : List Char) : Except Fault (Unit × List Char) :=
  match s with
  | [] => .error .tooShort
  | c :: rest => if c = 't' ∨ c = 'T' ∨ c = ' ' then .ok ((), rest) else .error .invalid

/-- The point in time a text names. -/
def parse (s : List Char) : Except Fault Timestamp := do
  let ((year, month, day), s) ← readDate s
  let (_, s) ← readSeparator s
  let ((hour, minute, second, nano), s) ← readTime s
  let (offset, s) ← readZone s
  if !(skipBlanks s).isEmpty then .error .tooLong
  else if year < minYear ∨ maxYear < year ∨ daysInMonth year month < day then .error .outOfRange
  else if offset ≤ -86400 ∨ 86400 ≤ offset then .error .outOfRange
  else
    let written : Timestamp :=
      if second = 60 then ⟨year, month, day, hour, minute, 59, nano + 1000000000⟩
      else ⟨year, month, day, hour, minute, second, nano⟩
    match written.ofLocal offset with
    | some t => .ok t
    | none => .error .impossible

/-- The written form as a string. -/
def toText (t : Timestamp) : String :=
  String.ofList t.render

end Timestamp

end Switchboard
