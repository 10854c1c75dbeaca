/-!
# Byte strings

What goes over the wire is a list of bytes. Text enters it through `utf8`, and
digests and percent escapes leave it as hexadecimal digits.
-/

namespace SigV4

abbrev Bytes := List UInt8

/-- The UTF-8 encoding of a text. -/
def utf8 (s : String) : Bytes := s.toList.flatMap String.utf8EncodeChar

@[simp] theorem utf8_empty : utf8 "" = [] := by simp [utf8]

@[simp] theorem utf8_append (s t : String) : utf8 (s ++ t) = utf8 s ++ utf8 t := by
  simp [utf8]

namespace Bytes

def isDigit (b : UInt8) : Bool := 0x30 ≤ b && b ≤ 0x39
def isUpper (b : UInt8) : Bool := 0x41 ≤ b && b ≤ 0x5A
def isLower (b : UInt8) : Bool := 0x61 ≤ b && b ≤ 0x7A
def isAlphanumeric (b : UInt8) : Bool := isDigit b || isUpper b || isLower b

/-- ASCII letters in lower case, every other byte as it is. -/
def lower (b : UInt8) : UInt8 := if isUpper b then b + 0x20 else b

/-- Pieces between the occurrences of `sep`; the empty string has one empty piece. -/
def splitOn (sep : UInt8) : Bytes → List Bytes
  | [] => [[]]
  | b :: bs =>
    if b = sep then [] :: splitOn sep bs
    else match splitOn sep bs with
      | piece :: pieces => (b :: piece) :: pieces
      | [] => [[b]]

/-- The pieces with `sep` between them. -/
def join (sep : Bytes) : List Bytes → Bytes
  | [] => []
  | [piece] => piece
  | piece :: pieces => piece ++ sep ++ join sep pieces

end Bytes

/-! ## Hexadecimal digits -/

namespace Hex

def lowerDigit (n : UInt8) : UInt8 := if n < 10 then 0x30 + n else 0x57 + n
def upperDigit (n : UInt8) : UInt8 := if n < 10 then 0x30 + n else 0x37 + n

/-- Two lower-case digits for every byte. -/
def encode (bs : Bytes) : Bytes :=
  bs.flatMap fun (b : UInt8) => [lowerDigit (b >>> 4), lowerDigit (b &&& 0x0F)]

/-- The value of a hexadecimal digit of either case. -/
def value? (b : UInt8) : Option UInt8 :=
  if Bytes.isDigit b then some (b - 0x30)
  else if 0x61 ≤ b && b ≤ 0x66 then some (b - 0x57)
  else if 0x41 ≤ b && b ≤ 0x46 then some (b - 0x37)
  else none

end Hex

end SigV4
