import SigV4.Region
import SigV4.Signing.Sign
import SigV4.Source.Default
/-!
# Signers

A signer is a credential that is good for use and a region, bound to one service. It signs
requests in their header or, for a limited time, in their URI. `Signer.create` and its relatives
check the region before they look for a credential.
-/

namespace SigV4

structure Signer where
  credential : Credential
  region : String
  /-- The time that requests are signed for, the current time when absent. -/
  time : Option Time := none
  keys : credential.hasKeys = true
  region_valid : Region.isValid region = true
deriving DecidableEq

namespace Signer

/-- The service that requests are signed for. -/
def service : String := "execute-api"

def atTime (s : Signer) (t : Time) : Signer := { s with time := some t }

/-! ## Signing -/

def scope (s : Signer) (now : Time) : Scope := ⟨s.time.getD now, s.region, service⟩

/-- The request with the hash of its body. -/
def withPayloadHash (r : Http.Request) (body : Bytes) : Http.Request :=
  { r with header := r.header.set .amzContentSha256 (.hex (Sha256.digest body)) }

def sign (s : Signer) (now : Time) (r : Http.Request) (body : Bytes) : Attempt :=
  (Mandate.mk s.credential (s.scope now) .header).sign (withPayloadHash r body)

/-- The attempt on a copy: when it fails the request stays as it was. -/
def signCopy (s : Signer) (now : Time) (r : Http.Request) (body : Bytes) : Attempt :=
  let attempt := s.sign now r body
  if attempt.fault.isSome then { attempt with request := r } else attempt

/-- How long a signature in a URI may be valid at most, in seconds: seven days. -/
def longestExpiry : Nat := 7 * 24 * 60 * 60

def nanosPerSecond : Nat := 1000000000

/-- Whether a signature may be valid for so many nanoseconds: a second at least. -/
def isExpiry (nanos : Nat) : Bool :=
  nanosPerSecond ≤ nanos && nanos ≤ longestExpiry * nanosPerSecond

/-- A signature in the URI, valid for the whole seconds of a number of nanoseconds. -/
def presign (s : Signer) (now : Time) (r : Http.Request) (nanos : Nat) : Attempt :=
  let seconds := nanos / nanosPerSecond
  if isExpiry nanos then (Mandate.mk s.credential (s.scope now) (.query seconds)).sign r
  else { request := r, fault := some (.expiryOutOfRange seconds) }

/-! ## Construction -/

def noCredential (region : String) : Error :=
  ⟨.credentialNotFound, "no credential found to sign execute-api requests", [s!"region: {region}"],
    none⟩

def expired (c : Credential) : Error :=
  ⟨.credentialExpired, "resolved credential is expired",
    [s!"expires_in: {Credential.expiryText c.expiry}"], none⟩

def noKeys : Error :=
  ⟨.credentialInvalid, "resolved credential has an empty access key or secret", [], none⟩

def noRegion : Error := ⟨.configInvalid, "region is required to build a signer", [], none⟩

/-- A signer with a credential, unless it is expired or has no keys. -/
def ofCredential (region : String) (valid : Region.isValid region = true) (now : Time)
    (c : Credential) : Except Error Signer :=
  if c.isExpired now then .error (expired c)
  else if keys : c.hasKeys = true then .ok ⟨c, region, none, keys, valid⟩
  else .error noKeys

/-- A signer with the credential of a source. -/
def create (source : Source) (region : String) : Resolve Signer :=
  if valid : Region.isValid region = true then do
    let c ← Resolve.orFail (noCredential region) (← source)
    Resolve.lift (ofCredential region valid (← Resolve.now) c)
  else Resolve.fail (Region.invalid region)

/-- A signer with the credential that a configuration leads to. -/
def ofConfig (c : Config) : Resolve Signer := do
  let region ← Resolve.orFail noRegion c.region
  create (Source.default (.ofConfig c)) region

/-- A signer for a region, with the credential of a profile or of the surroundings. -/
def ofRegion (region : String) (profile : Option String) : Resolve Signer :=
  create (Source.default (.ofConfig { region := some region, profile })) region

end Signer

end SigV4
