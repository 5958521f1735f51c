import Switchboard.Request.Id

/-!
# Fresh identifiers

A request without an identifier is given a random one: sixteen bytes in five groups of
hexadecimal digits, with the version and the variant of random identifiers in their places.
-/

namespace Switchboard.RequestId

/-- The two hexadecimal digits of a byte. -/
def hexByte (b : UInt8) : List Char :=
  [Nat.digitChar (b.toNat / 16), Nat.digitChar (b.toNat % 16)]

/-- The bytes with the version and the variant in their places. -/
def marked (bytes : List UInt8) : List UInt8 :=
  bytes.zipIdx.map fun (b, i) =>
    if i = 6 then b % 16 + 0x40 else if i = 8 then b % 64 + 0x80 else b

/-- The digits of bytes in groups of the given sizes. -/
def grouped : (sizes : List Nat) → List UInt8 → List (List Char)
  | [], _ => []
  | n :: sizes, bytes => (bytes.take n).flatMap hexByte :: grouped sizes (bytes.drop n)

/-- The text of the identifier of random bytes. -/
def freshText (bytes : List UInt8) : String :=
  String.ofList (['-'].intercalate (grouped [4, 2, 2, 2, 6] (marked bytes)))

/-- The identifier of sixteen random bytes. -/
def ofRandomBytes (bytes : List UInt8) : Except Fault RequestId :=
  parse (freshText bytes)

end Switchboard.RequestId
