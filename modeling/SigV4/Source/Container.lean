import SigV4.Format.Json
import SigV4.Source
import SigV4.Text.Blank
import SigV4.Time.Rfc3339
import SigV4.World.Variable
/-!
# Keys from a container's endpoint

A container platform leaves a URI in the environment, relative to an endpoint of its own or in
full, and maybe a token to send along.
-/

namespace SigV4.Source

namespace Container

structure Settings where
  endpoint : Option String := none
deriving DecidableEq, Repr

def defaultEndpoint : String := "http://169.254.170.2"

/-- The URI to ask; nothing outside a container. -/
def Settings.uri? (s : Settings) (w : World) : Option String :=
  match w.filled? Variable.containerRelativeUri with
  | some relative => some (Text.withoutSlashes (s.endpoint.getD defaultEndpoint) ++ relative)
  | none => w.filled? Variable.containerFullUri

structure Answer where
  accessKeyId : String
  secretAccessKey : String
  token : Option String
  expiration : Option String
deriving DecidableEq, Repr

def Answer.read? (document : String) : Option Answer := do
  let record ← Json.record? ["AccessKeyId", "SecretAccessKey", "Token", "Expiration"] 4
    (← Json.read? (utf8 document))
  return ⟨← Json.requiredText? record "AccessKeyId", ← Json.requiredText? record "SecretAccessKey",
    ← Json.optionalText? record "Token", ← Json.optionalText? record "Expiration"⟩

def refusal (r : Http.Response) : Error :=
  let status := s!"status: {r.status.display}"
  if r.status = .unauthorized ∨ r.status = .forbidden then
    ⟨.credentialDenied, s!"container credentials endpoint rejected the request: {r.text}", [status],
      none⟩
  else ⟨.unexpected, s!"request to container credentials endpoint failed: {r.text}", [status], none⟩

def unbuildable (uri : String) : Error :=
  ⟨.requestInvalid, "failed to build container credentials request", [s!"url: {uri}"], none⟩

def unreachable (uri : String) (cause : Error) : Error :=
  ⟨.unexpected, "failed to connect to container credentials endpoint", [s!"url: {uri}"], some cause⟩

def unreadable : Error := ⟨.unexpected, "failed to parse container credentials", [], none⟩

def fetch (uri : String) (token : Option String) : Resolve Credential := do
  let fields := token.toList.map (Http.FieldName.authorization, ·)
  let request ← Resolve.orFail (unbuildable uri) (Http.Request.build? .get uri fields)
  let response ← (Resolve.send request []).mapError (unreachable uri)
  if response.status ≠ .ok then Resolve.fail (refusal response)
  let answer ← Resolve.orFail unreadable (Answer.read? response.text)
  let expiry ← answer.expiration.mapM fun t => Resolve.lift (Rfc3339.parse t)
  return ⟨answer.accessKeyId, answer.secretAccessKey, answer.token.bind Text.nonEmpty?, expiry⟩

end Container

def container (s : Container.Settings) : Source := do
  match s.uri? (← read) with
  | none => return none
  | some uri => some <$> Container.fetch uri (← Resolve.filled? Variable.containerToken)

end SigV4.Source
