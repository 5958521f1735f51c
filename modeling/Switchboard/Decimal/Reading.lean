import Switchboard.Decimal.Shortest

/-!
# Numbers from texts

Natural numbers of a width, and floating point numbers, which are rounded to the nearest one
the format has, ties to the even mantissa.
-/

namespace Switchboard.Decimal

/-- Why a text is no number. -/
inductive Fault where
  | emptyInteger
  | invalidDigit
  | tooLarge
  | emptyFloat
  | invalidFloat
deriving Repr, DecidableEq

/-- The text of a fault. -/
def Fault.message : Fault → String
  | .emptyInteger => "cannot parse integer from empty string"
  | .invalidDigit => "invalid digit found in string"
  | .tooLarge => "number too large to fit in target type"
  | .emptyFloat => "cannot parse float from empty string"
  | .invalidFloat => "invalid float literal"

/-- Appends digits to `n`; the first character that is no digit or takes the number out of the
width is the fault. -/
def appendDigits (bits n : Nat) : List Char → Except Fault Nat
  | [] => .ok n
  | c :: rest =>
    if !c.isDigit then .error .invalidDigit
    else
      let m := n * 10 + (c.toNat - 48)
      if m < Nat.pow 2 bits then appendDigits bits m rest else .error .tooLarge

/-- A natural number below `2 ^ bits`, perhaps behind a plus sign. -/
def readNat (bits : Nat) (s : List Char) : Except Fault Nat :=
  match s with
  | [] => .error .emptyInteger
  | ['+'] => .error .invalidDigit
  | '+' :: rest => appendDigits bits 0 rest
  | s => appendDigits bits 0 s

/-- The exponent of the smallest positive number. -/
def BinaryFormat.minExponent (f : BinaryFormat) : Int :=
  2 - Nat.pow 2 (f.exponentBits - 1) - f.fractionBits

/-- The bits of infinity. -/
def BinaryFormat.infinity (f : BinaryFormat) : Nat :=
  (Nat.pow 2 f.exponentBits - 1) * Nat.pow 2 f.fractionBits

/-- The fraction `num / den`, which is not negative, over `2 ^ k`, rounded to the nearest
integer, ties to even. -/
def roundAt (num den : Nat) (k : Int) : Nat :=
  let two := powerFraction 2 k
  let n := num * two.2
  let d := den * two.1
  let q := n / d
  let rest := 2 * (n % d)
  if rest < d ∨ (rest = d ∧ q % 2 = 0) then q else q + 1

/-- The exponent of the last place of the numbers around `num / den`. -/
def BinaryFormat.lastPlace (f : BinaryFormat) (num den : Nat) : Int :=
  let e : Int := (num.log2 : Int) - den.log2
  let two := powerFraction 2 e
  let lead := if num * two.2 < den * two.1 then e - 1 else e
  max (lead - f.fractionBits) f.minExponent

/-- The bits of the number nearest to `num / den`. -/
def BinaryFormat.nearest (f : BinaryFormat) (num den : Nat) : Nat :=
  if num = 0 then 0
  else
    let k := f.lastPlace num den
    let bits := (k - f.minExponent).toNat * Nat.pow 2 f.fractionBits + roundAt num den k
    if bits < f.infinity then bits else f.infinity

/-- The bits of the number nearest to `digits * 10 ^ exponent`. Far beyond the range of the
format nothing is computed. -/
def BinaryFormat.nearestDecimal (f : BinaryFormat) (d : Decimal) : Nat :=
  let lead := d.exponent + digitCount d.digits
  if d.digits = 0 ∨ lead < -(Nat.pow 2 f.exponentBits : Int) then 0
  else if Nat.pow 2 f.exponentBits < lead then f.infinity
  else
    let ten := powerFraction 10 d.exponent
    f.nearest (d.digits * ten.1) ten.2

/-! ## Floating point numbers -/

/-- The exponent that is the whole of a text; 0 if there is none. -/
def readExponent (s : List Char) : Option Int :=
  match s with
  | [] => some 0
  | c :: rest =>
    if c = 'e' ∨ c = 'E' then
      let (negative, ds) := match rest with
        | '-' :: r => (true, r)
        | '+' :: r => (false, r)
        | r => (false, r)
      if ds.isEmpty || !ds.all Char.isDigit then none
      else
        let e := Nat.ofDigitChars 10 ds 0
        some (if negative then -(e : Int) else e)
    else none

/-- An unsigned decimal: digits with at most one point among or around them, and perhaps an
exponent. -/
def readDecimal (s : List Char) : Option Decimal := do
  let (whole, rest) := s.span Char.isDigit
  let (fraction, rest) := match rest with
    | '.' :: r => r.span Char.isDigit
    | r => ([], r)
  if whole.isEmpty && fraction.isEmpty then none
  else
    let e ← readExponent rest
    return ⟨Nat.ofDigitChars 10 (whole ++ fraction) 0, e - fraction.length⟩

/-- The bits of an unsigned number: a decimal, an infinity or a NaN. -/
def BinaryFormat.readUnsigned (f : BinaryFormat) (s : List Char) : Option Nat :=
  let word := s.map Char.toLower
  if word = "inf".toList ∨ word = "infinity".toList then some f.infinity
  else if word = "nan".toList then some (f.infinity + Nat.pow 2 (f.fractionBits - 1))
  else (readDecimal s).map f.nearestDecimal

/-- The bits of a number with an optional sign. -/
def BinaryFormat.read (f : BinaryFormat) (s : List Char) : Except Fault Nat :=
  match s with
  | [] => .error .emptyFloat
  | c :: rest =>
    let bits := if c = '-' then
        (f.readUnsigned rest).map (· + Nat.pow 2 (f.fractionBits + f.exponentBits))
      else if c = '+' then f.readUnsigned rest
      else f.readUnsigned s
    match bits with
    | some b => .ok b
    | none => .error .invalidFloat

/-- A double precision number. -/
def readFloat (s : List Char) : Except Fault Float :=
  (BinaryFormat.double.read s).map fun b => Float.ofBits (UInt64.ofNat b)

end Switchboard.Decimal
