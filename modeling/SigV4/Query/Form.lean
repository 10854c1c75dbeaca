import SigV4.Query.Percent
import SigV4.Text.Utf8
/-!
# Form encoding

A query as key and value pairs: pairs are separated by `&`, a key ends at its first `=`, and a
plus sign is a space. Empty pieces between separators are no pairs, and what is no UTF-8 after
decoding is repaired.
-/

namespace SigV4.Form

abbrev Pair := Bytes × Bytes

def plusToSpace (b : UInt8) : UInt8 := if b = 0x2B then 0x20 else b

def decodeComponent (bs : Bytes) : Bytes := Utf8.repair (Percent.decode (bs.map plusToSpace))

def decodePair (piece : Bytes) : Pair :=
  (decodeComponent (piece.takeWhile (· != 0x3D)),
    decodeComponent ((piece.dropWhile (· != 0x3D)).drop 1))

def read (query : Bytes) : List Pair :=
  ((Bytes.splitOn 0x26 query).filter (!·.isEmpty)).map decodePair

/-- The bytes that stand for themselves in a form. -/
def isPlain (b : UInt8) : Bool :=
  Bytes.isAlphanumeric b || b == 0x2A || b == 0x2D || b == 0x2E || b == 0x5F

def encodeComponent (bs : Bytes) : Bytes :=
  bs.flatMap fun b => if isPlain b then [b] else if b = 0x20 then [0x2B] else Percent.escape b

def encodePair (p : Pair) : Bytes := encodeComponent p.1 ++ 0x3D :: encodeComponent p.2

def write (pairs : List Pair) : Bytes := Bytes.join [0x26] (pairs.map encodePair)

end SigV4.Form
