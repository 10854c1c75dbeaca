import SigV4.Signing.Path
import SigV4.Signing.Request
import SigV4.Digest.Sha256
/-!
# Canonical requests

The text a signature is about: method, path, query, the signed fields, their names and the
hash of the payload, each on lines of its own. Everything that a proxy may change (order of
fields and pairs, blanks in values, three fields by name) is settled or left out.
-/

namespace SigV4.Canonical

open Http

/-- Fields that are not signed, since proxies change them. -/
def unsignedNames : List FieldName := [.expect, .userAgent, .amznTraceId]

def signedNames (h : Header) : List FieldName := h.names.filter fun n => !unsignedNames.contains n

def nameList (names : List FieldName) : Bytes := Bytes.join [0x3B] (names.map (·.bytes))

/-- The blank-separated words of a value. -/
def words (bs : Bytes) : List Bytes :=
  ((bs.splitOnP FieldValue.isPadding)).filter (!·.isEmpty)

/-- Runs of blanks become one space, and those at the ends nothing. -/
def collapse (bs : Bytes) : Bytes := Bytes.join [0x20] (words bs)

def value? (v : FieldValue) : Option Bytes := v.text?.map collapse

/-- A line for one name: all its values, separated by commas. -/
def fieldLine? (h : Header) (n : FieldName) : Option Bytes :=
  ((h.values n).mapM value?).map fun vs => n.bytes ++ 0x3A :: Bytes.join [0x2C] vs

/-- The hash that the request declares for its payload, the hash of nothing when it declares
none. -/
def payloadHash? (h : Header) : Option Bytes :=
  match h.first? .amzContentSha256 with
  | some v => v.text?
  | none => some (Sha256.hex [])

/-! ## The query -/

def encodePair (p : Form.Pair) : Form.Pair :=
  (Percent.encode Percent.isUnreserved p.1, Percent.encode Percent.isUnreserved p.2)

def pairLe (p q : Form.Pair) : Bool := p.1 < q.1 || (p.1 == q.1 && p.2 ≤ q.2)

/-- The pairs in encoded form, in ascending order. -/
def encodeQuery (pairs : List Form.Pair) : List Form.Pair := (pairs.map encodePair).mergeSort pairLe

def queryLine (pairs : List Form.Pair) : Bytes :=
  Bytes.join [0x26] (pairs.map fun p => p.1 ++ 0x3D :: p.2)

/-! ## The whole text -/

/-- Nothing when a signed value is no ASCII text. -/
def request? (r : SigningRequest) : Option Bytes := do
  let names := signedNames r.header
  let fields ← names.mapM (fieldLine? r.header)
  let payload ← payloadHash? r.header
  some (Bytes.join [0x0A]
    ([r.method.token, Path.canonical r.path, queryLine r.query] ++ fields
      ++ [[], nameList names, payload]))

end SigV4.Canonical
