import SigV4.Credential
import SigV4.Signing.Canonical
import SigV4.Signing.Scope
/-!
# Signing a request

A signature goes into the `authorization` field, or with its parameters into the query of a
URI that anyone may use until it expires. Either way an earlier `authorization` is dropped, a
`host` field is added, and what is written back is what was signed. A failed attempt leaves
the request without its URI, and from the moment it was taken apart without its fields.
-/

namespace SigV4

open Http

inductive Placement where
  | header
  /-- The signature is valid for this many seconds. -/
  | query (expiry : Nat)
deriving DecidableEq, Repr

/-- All that a signature depends on besides the request. -/
structure Mandate where
  credential : Credential
  scope : Scope
  placement : Placement
deriving DecidableEq, Repr

/-- How an attempt to sign ended, with the texts that it worked out on the way. -/
structure Attempt where
  request : Request
  fault : Option Signing.Fault := none
  scope : Option Bytes := none
  canonicalRequest : Option Bytes := none
  stringToSign : Option Bytes := none
deriving DecidableEq

namespace Mandate

/-- Who signs and for what. -/
def credentialText (m : Mandate) : Bytes :=
  utf8 m.credential.accessKeyId ++ 0x2F :: m.scope.bytes

def fieldValue (bs : Bytes) : Except Signing.Fault FieldValue :=
  match FieldValue.ofBytes? bs with
  | some v => .ok v
  | none => .error (.value .invalid)

/-- The fields as they are signed, but for those that only a signature in the header needs. -/
def commonHeader (a : Authority) (h : Header) : Except Signing.Fault Header := do
  let h := (h.erase .authorization).mapValues FieldValue.trim
  if h.contains .host then return h
  else return h.append .host (← fieldValue a.bytes)

/-- The date and the session token, as fields. -/
def stampHeader (m : Mandate) (h : Header) : Except Signing.Fault Header := do
  let h := (h.set .amzDate (← fieldValue m.scope.stamp)).erase .amzSecurityToken
  match m.credential.sessionToken with
  | some token => return h.append .amzSecurityToken (← fieldValue (utf8 token))
  | none => return h

/-- The parameters of a signature in the query, all but the signature. -/
def parameters (m : Mandate) (expiry : Nat) (names : List FieldName) : List Form.Pair :=
  [(utf8 "X-Amz-Algorithm", algorithm),
   (utf8 "X-Amz-Credential", m.credentialText),
   (utf8 "X-Amz-Date", m.scope.stamp),
   (utf8 "X-Amz-Expires", utf8 (toString expiry)),
   (utf8 "X-Amz-SignedHeaders", Canonical.nameList names)]
  ++ m.credential.sessionToken.toList.map fun t => (utf8 "X-Amz-Security-Token", utf8 t)

/-- The request as it is signed, with its query encoded. -/
def prepare (m : Mandate) (r : SigningRequest) : Except Signing.Fault SigningRequest := do
  let h ← commonHeader r.authority r.header
  match m.placement with
  | .header =>
    let h ← m.stampHeader h
    return { r with query := Canonical.encodeQuery r.query, header := h }
  | .query expiry =>
    let added := m.parameters expiry (Canonical.signedNames h)
    return { r with query := Canonical.encodeQuery (r.query ++ added), header := h }

def authorizationText (m : Mandate) (names : List FieldName) (signature : Bytes) : Bytes :=
  algorithm ++ utf8 " Credential=" ++ m.credentialText
    ++ utf8 ", SignedHeaders=" ++ Canonical.nameList names
    ++ utf8 ", Signature=" ++ signature

/-- The prepared request with its signature. -/
def attach (m : Mandate) (r : SigningRequest) (signature : Bytes) :
    Except Signing.Fault SigningRequest :=
  match m.placement with
  | .header => do
    let text := m.authorizationText (Canonical.signedNames r.header) signature
    return { r with header := r.header.set .authorization (← fieldValue text) }
  | .query _ => .ok (r.pushPair (utf8 "X-Amz-Signature") signature)

def sign (m : Mandate) (r : Request) : Attempt :=
  let remainder := SigningRequest.remainder r
  match SigningRequest.ofRequest? r with
  | none => { request := remainder, fault := some .noAuthority }
  | some taken =>
    let scope := some m.scope.bytes
    match m.prepare taken with
    | .error f => { request := remainder, fault := some f, scope }
    | .ok prepared =>
      match Canonical.request? prepared with
      | none => { request := remainder, fault := some (.value .notText), scope }
      | some canonical =>
        let text := m.scope.stringToSign canonical
        let signature := m.scope.signature m.credential.secretAccessKey text
        let request := m.attach prepared signature >>= SigningRequest.toRequest
        { request := request.toOption.getD remainder
          fault := match request with
            | .error f => some f
            | .ok _ => none
          scope
          canonicalRequest := some canonical
          stringToSign := some text }

end Mandate

end SigV4
