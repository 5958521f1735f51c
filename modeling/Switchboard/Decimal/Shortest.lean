/-!
# Shortest decimals

A binary floating point number stands for the reals that round to it. Among the decimals in
that interval the shortest has the fewest digits, and of two with the same number of digits
the one nearer to the number. The search goes over decimal grids from coarse to fine; the
first grid with a point in the interval has one next to the number itself, so on each grid
only the two neighbours of the number are tested.
-/

namespace Switchboard

/-- A decimal `digits * 10 ^ exponent`. -/
structure Decimal where
  digits : Nat
  exponent : Int
deriving Repr, DecidableEq

namespace Decimal

/-- The layout of a binary interchange format: widths of fraction and exponent in bits. -/
structure BinaryFormat where
  fractionBits : Nat
  exponentBits : Nat

/-- Double precision. -/
def BinaryFormat.double : BinaryFormat := ⟨52, 11⟩

/-- Single precision. -/
def BinaryFormat.single : BinaryFormat := ⟨23, 8⟩

/-- A positive finite number `mantissa * 2 ^ exponent`; `narrow` tells that the next smaller
number is only half as far away as the next greater one. -/
structure BinaryNumber where
  mantissa : Nat
  exponent : Int
  narrow : Bool

/-- The magnitude of the number with the given bits, or `none` for an infinity or a NaN. -/
def BinaryFormat.decode (f : BinaryFormat) (bits : Nat) : Option BinaryNumber :=
  let fraction := bits % Nat.pow 2 f.fractionBits
  let biased := bits / Nat.pow 2 f.fractionBits % Nat.pow 2 f.exponentBits
  let bias : Int := Nat.pow 2 (f.exponentBits - 1) - 1 + f.fractionBits
  if biased = Nat.pow 2 f.exponentBits - 1 then none
  else if biased = 0 then some ⟨fraction, 1 - bias, false⟩
  else some ⟨Nat.pow 2 f.fractionBits + fraction, biased - bias, fraction = 0 && 1 < biased⟩

/-- Number of decimal digits of `n`. -/
def digitCount (n : Nat) : Nat :=
  (Nat.toDigits 10 n).length

/-- `2 ^ e` or `10 ^ e` as a fraction. -/
def powerFraction (base : Nat) (e : Int) : Nat × Nat :=
  (Nat.pow base e.toNat, Nat.pow base (-e).toNat)

/-- The exponent of the leading decimal digit of the fraction `num / den`. -/
def leadingExponent (num den : Nat) : Int :=
  if den ≤ num then digitCount (num / den) - 1
  else
    let j := digitCount (den / num) - 1
    if num * Nat.pow 10 j = den then -(j : Int) else -(j : Int) - 1

/-- The point of the grid `10 ^ k` in the interval of `x` that is nearest to `x`, if the
interval has one. Bounds are counted in quarters of the last binary place and belong to the
interval if the mantissa is even. -/
def BinaryNumber.onGrid (x : BinaryNumber) (k : Int) : Option Nat :=
  let two := powerFraction 2 (x.exponent - 2)
  let ten := powerFraction 10 k
  let unit := two.1 * ten.2
  let step := ten.1 * two.2
  let value := 4 * x.mantissa * unit
  let low := (4 * x.mantissa - if x.narrow then 1 else 2) * unit
  let high := (4 * x.mantissa + 2) * unit
  let inside (d : Nat) : Bool :=
    if x.mantissa % 2 = 0 then low ≤ d * step && d * step ≤ high
    else low < d * step && d * step < high
  let below := value / step
  let above := below + 1
  let nearBelow := 2 * (value - below * step) < step ||
    (2 * (value - below * step) = step && below % 2 = 0)
  if inside below && (nearBelow || !inside above) && below != 0 then some below
  else if inside above then some above
  else none

/-- The first of `fuel` ever finer grids, beginning with `10 ^ k`, that has a point in the
interval of `x`. -/
def BinaryNumber.search (x : BinaryNumber) : (fuel : Nat) → (k : Int) → Option Decimal
  | 0, _ => none
  | fuel + 1, k =>
    match x.onGrid k with
    | some d => some ⟨d, k⟩
    | none => x.search fuel (k - 1)

/-- The shortest decimal that stands for `x`. The first grid is the one above the leading
digit, which catches a number just below a power of ten; seventeen digits always suffice for
double precision. -/
def BinaryNumber.shortest (x : BinaryNumber) : Decimal :=
  if x.mantissa = 0 then ⟨0, 0⟩
  else
    let two := powerFraction 2 x.exponent
    let lead := leadingExponent (x.mantissa * two.1) two.2
    (x.search 20 (lead + 1)).getD ⟨0, 0⟩

/-! ## Writing -/

/-- Digits of `n`. -/
def natDigits (n : Nat) : List Char :=
  Nat.toDigits 10 n

/-- A decimal in positional form between `1e-5` and `1e16`, with at least one digit on either
side of the point; otherwise with an exponent that always carries its sign. -/
def render (d : Decimal) : List Char :=
  let ds := natDigits d.digits
  let point : Int := ds.length + d.exponent
  if d.digits = 0 then ['0', '.', '0']
  else if -5 < point ∧ point ≤ 16 then
    if 0 ≤ d.exponent then ds ++ List.replicate d.exponent.toNat '0' ++ ['.', '0']
    else if 0 < point then ds.take point.toNat ++ '.' :: ds.drop point.toNat
    else ['0', '.'] ++ List.replicate (-point).toNat '0' ++ ds
  else
    let e := point - 1
    let head := match ds with
      | [] => []
      | [c] => [c]
      | c :: rest => c :: '.' :: rest
    head ++ 'e' :: (if e < 0 then '-' else '+') :: natDigits e.natAbs

/-- The sign and shortest decimal of the number with the given bits, or `none` if it is not
finite. -/
def BinaryFormat.render (f : BinaryFormat) (bits : Nat) : Option (List Char) :=
  (f.decode bits).map fun x =>
    (if bits / Nat.pow 2 (f.fractionBits + f.exponentBits) % 2 = 1 then ['-'] else []) ++
      x.shortest.render

/-- The shortest decimal of a double precision number. -/
def renderFloat (x : Float) : Option (List Char) :=
  BinaryFormat.double.render x.toBits.toNat

/-- The shortest decimal of a single precision number. -/
def renderFloat32 (x : Float32) : Option (List Char) :=
  BinaryFormat.single.render x.toBits.toNat

end Decimal

end Switchboard
