import SigV4.Bytes
/-!
# Percent encoding

A byte is kept or written as `%` and two upper-case hexadecimal digits. Reading takes such
escapes back and leaves a percent sign that starts none.
-/

namespace SigV4.Percent

/-- The bytes that RFC 3986 calls unreserved. -/
def isUnreserved (b : UInt8) : Bool :=
  Bytes.isAlphanumeric b || b == 0x2D || b == 0x2E || b == 0x5F || b == 0x7E

def escape (b : UInt8) : Bytes := [0x25, Hex.upperDigit (b >>> 4), Hex.upperDigit (b &&& 0x0F)]

def encode (keep : UInt8 → Bool) (bs : Bytes) : Bytes :=
  bs.flatMap fun b => if keep b then [b] else escape b

def decode : Bytes → Bytes
  | 0x25 :: h :: l :: rest =>
    match Hex.value? h, Hex.value? l with
    | some hi, some lo => (hi <<< 4 ||| lo) :: decode rest
    | _, _ => 0x25 :: decode (h :: l :: rest)
  | b :: rest => b :: decode rest
  | [] => []

end SigV4.Percent
