import SigV4.Digest.Hmac
import SigV4.Time.Format
/-!
# Credential scopes and signing keys

A signature is made for one day, region and service. The key comes from the secret by one
HMAC for each of them, and the string to sign names all three.
-/

namespace SigV4

/-- The name of the signature algorithm. -/
def algorithm : Bytes := utf8 "AWS4-HMAC-SHA256"

/-- The last word of every scope. -/
def scopeEnd : Bytes := utf8 "aws4_request"

structure Scope where
  time : Time
  region : String
  service : String
deriving DecidableEq, Repr

namespace Scope

def date (s : Scope) : Bytes := utf8 s.time.formatDate
def stamp (s : Scope) : Bytes := utf8 s.time.formatIso8601

def bytes (s : Scope) : Bytes :=
  Bytes.join [0x2F] [s.date, utf8 s.region, utf8 s.service, scopeEnd]

def signingKey (s : Scope) (secret : String) : Bytes :=
  [s.date, utf8 s.region, utf8 s.service, scopeEnd].foldl Hmac.tag (utf8 "AWS4" ++ utf8 secret)

def stringToSign (s : Scope) (canonicalRequest : Bytes) : Bytes :=
  Bytes.join [0x0A] [algorithm, s.stamp, s.bytes, Sha256.hex canonicalRequest]

def signature (s : Scope) (secret : String) (text : Bytes) : Bytes :=
  Hmac.hex (s.signingKey secret) text

end Scope

end SigV4
