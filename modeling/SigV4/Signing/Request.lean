import SigV4.Http.Message
import SigV4.Query.Form
import SigV4.Signing.Fault
/-!
# Requests being signed

A request whose URI is taken apart: the path stays as it is on the wire and the
query is a list of decoded pairs, until the signer encodes them. `ofRequest?` takes a request
apart and `toRequest` puts it together again.
-/

namespace SigV4

open Http

structure SigningRequest where
  method : Method
  scheme : Scheme
  authority : Authority
  path : Bytes
  query : List Form.Pair
  header : Header
deriving DecidableEq

namespace SigningRequest

/-- A request without an authority is none that can be signed. -/
def ofRequest? (r : Request) : Option SigningRequest :=
  match r.uri with
  | .path _ => none
  | .server a => some ⟨r.method, .http, a, [0x2F], [], r.header⟩
  | .full s a t =>
    some ⟨r.method, s, a, t.shownPath, (t.query.map Form.read).getD [], r.header⟩

/-- What stays of a request that is taken apart; without an authority that is more than the
method. -/
def remainder (r : Request) : Request :=
  match ofRequest? r with
  | some _ => { r.withoutUri with header := {} }
  | none => r.withoutUri

/-- A pair as it is written: an empty value leaves only the key. -/
def writePair (p : Form.Pair) : Bytes := if p.2.isEmpty then p.1 else p.1 ++ 0x3D :: p.2

/-- The path and the pairs behind it, which have to be encoded. -/
def targetBytes (s : SigningRequest) : Bytes :=
  if s.query.isEmpty then s.path
  else s.path ++ 0x3F :: Bytes.join [0x26] (s.query.map writePair)

def toRequest (s : SigningRequest) : Except Signing.Fault Request :=
  match Target.read s.targetBytes with
  | .ok t => .ok ⟨s.method, .full s.scheme s.authority t, s.header⟩
  | .error f => .error (.uri f)

/-- The bytes of all keys and values. -/
def querySize (s : SigningRequest) : Nat := (s.query.flatMap fun p => p.1 ++ p.2).length

def pushPair (s : SigningRequest) (key value : Bytes) : SigningRequest :=
  { s with query := s.query ++ [(key, value)] }

end SigningRequest

end SigV4
