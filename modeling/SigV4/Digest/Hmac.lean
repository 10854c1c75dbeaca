import SigV4.Digest.Sha256
/-!
# HMAC-SHA-256

RFC 2104 over `Sha256.digest`: a key longer than a block is hashed first, then
padded with zeros to one block and mixed into both passes.
-/

namespace SigV4.Hmac

def blockSize : Nat := 64

def blockKey (key : Bytes) : Bytes :=
  let short := if blockSize < key.length then Sha256.digest key else key
  short ++ List.replicate (blockSize - short.length) 0

def tag (key message : Bytes) : Bytes :=
  let inner := (blockKey key).map (· ^^^ 0x36)
  let outer := (blockKey key).map (· ^^^ 0x5C)
  Sha256.digest (outer ++ Sha256.digest (inner ++ message))

/-- The tag in lower-case hexadecimal digits. -/
def hex (key message : Bytes) : Bytes := Hex.encode (tag key message)

end SigV4.Hmac
