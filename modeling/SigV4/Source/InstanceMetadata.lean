import SigV4.Config
import SigV4.Format.Json
import SigV4.Source
import SigV4.Time.Rfc3339
/-!
# Keys from instance metadata

A virtual machine asks the metadata service for a session token, with it for the name of its role,
and with both for the keys of that role. Where no service answers the first request, there
are no keys.
-/

namespace SigV4.Source

namespace InstanceMetadata

structure Settings where
  endpoint : Option String := none
  disabled : Bool := false
deriving DecidableEq, Repr

def defaultEndpoint : String := "http://169.254.169.254"

def Settings.isDisabled (s : Settings) (w : World) : Bool :=
  s.disabled || (w.lookup Variable.metadataDisabled).any isTrue

def Settings.base (s : Settings) (w : World) : String :=
  Text.withoutSlashes
    ((s.endpoint <|> w.filled? Variable.metadataEndpoint).getD defaultEndpoint)

def refusal (step : String) (r : Http.Response) : Error :=
  let kind : ErrorKind :=
    if r.status = .unauthorized ∨ r.status = .forbidden then .credentialDenied
    else if r.status = .notFound then .configInvalid
    else .unexpected
  ⟨kind, s!"IMDS {step} failed: {r.text}", [s!"status: {r.status.display}"], none⟩

def unbuildable (what uri : String) : Error :=
  ⟨.requestInvalid, s!"failed to build IMDS {what}", [s!"url: {uri}"], none⟩

def unreachable (uri : String) (cause : Error) : Error :=
  ⟨.unexpected, "failed to send IMDS request", [s!"url: {uri}"], some cause⟩

/-! ## The three requests -/

def tokenUri (base : String) : String := s!"{base}/latest/api/token"

def rolesUri (base : String) : String := s!"{base}/latest/meta-data/iam/security-credentials/"

/-- Six hours. -/
def tokenLifetime : String := "21600"

/-- A token for the requests that follow; nothing when no service answers. -/
def openSession (base : String) : Resolve (Option String) := do
  let uri := tokenUri base
  let fields := [(.contentLength, "0"), (.metadataTokenTtl, tokenLifetime)]
  let request ←
    Resolve.orFail (unbuildable "token request" uri) (Http.Request.build? .put uri fields)
  match ← (Resolve.send request []).attempt with
  | .error _ => return none
  | .ok response =>
    if response.status = .ok then return some response.text
    else Resolve.fail (refusal "fetch token" response)

def get (uri token : String) : Resolve String := do
  let request ← Resolve.orFail (unbuildable "request" uri)
    (Http.Request.build? .get uri [(.metadataToken, token)])
  let response ← (Resolve.send request []).mapError (unreachable uri)
  if response.status = .ok then return response.text
  else Resolve.fail ((refusal "get metadata" response).during s!"url: {uri}")

/-- The first line that is not blank. -/
def firstRole? (listing : String) : Option String :=
  (((listing.toList.splitOnP (· == '\n')).map fun l => String.ofList (Text.strip l)).find?
    (· ≠ ""))

/-! ## The answer -/

structure Answer where
  accessKeyId : String
  secretAccessKey : String
  token : String
  expiration : String
  code : String
  message : String
deriving DecidableEq, Repr

/-- Whatever is missing is empty. -/
def Answer.read? (document : String) : Option Answer := do
  let record ← Json.record?
    ["AccessKeyId", "SecretAccessKey", "Token", "Expiration", "Code", "Message"] 0
    (← Json.read? (utf8 document))
  return ⟨← Json.defaultText? record "AccessKeyId", ← Json.defaultText? record "SecretAccessKey",
    ← Json.defaultText? record "Token", ← Json.defaultText? record "Expiration",
    ← Json.defaultText? record "Code", ← Json.defaultText? record "Message"⟩

/-- What a code other than success means. -/
def Answer.fault? (a : Answer) : Option Error :=
  if a.code = "Success" then none
  else if a.code = "AssumeRoleUnauthorizedAccess" then
    some ⟨.credentialDenied, s!"EC2 instance not authorized to assume role: {a.message}", [], none⟩
  else if Text.contains "Expired" a.code then
    some ⟨.credentialExpired, s!"IMDS credentials expired: {a.message}", [], none⟩
  else some ⟨.unexpected, s!"IMDS returned error: [{a.code}] {a.message}", [], none⟩

def noRole : Error := ⟨.configInvalid, "no IAM role attached to EC2 instance", [], none⟩

def unreadable (role : String) : Error :=
  ⟨.unexpected, "failed to parse IMDS credentials response", [s!"role: {role}"], none⟩

def fetch (base token : String) : Resolve Credential := do
  let role ← Resolve.orFail noRole (firstRole? (← get (rolesUri base) token))
  let document ← get (rolesUri base ++ role) token
  let answer ← Resolve.orFail (unreadable role) (Answer.read? document)
  if let some e := answer.fault? then Resolve.fail (e.during s!"role: {role}")
  let expiry ← Resolve.lift (Rfc3339.parse answer.expiration)
  return ⟨answer.accessKeyId, answer.secretAccessKey, Text.nonEmpty? answer.token, some expiry⟩

end InstanceMetadata

def instanceMetadata (s : InstanceMetadata.Settings) : Source := do
  let w ← read
  if s.isDisabled w then return none
  match ← InstanceMetadata.openSession (s.base w) with
  | none => return none
  | some token => some <$> InstanceMetadata.fetch (s.base w) token

end SigV4.Source
