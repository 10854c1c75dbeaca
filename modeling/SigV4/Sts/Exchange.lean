import SigV4.Signing.Sign
import SigV4.Sts.Endpoint
import SigV4.Sts.Reply
import SigV4.Resolve
/-!
# Exchanges with the token service

A role is taken on by one request, whose parameters stand in its query. One action is signed with a
credential, the other proves its right with a token among the parameters and is not signed.
-/

namespace SigV4.Sts

inductive Action where
  | assumeRole
  | assumeRoleWithWebIdentity
deriving DecidableEq, Repr

def Action.name : Action → String
  | assumeRole => "AssumeRole"
  | assumeRoleWithWebIdentity => "AssumeRoleWithWebIdentity"

def version : String := "2011-06-15"

/-- The service that signed requests are signed for. -/
def service : String := "sts"

/-- All that one exchange depends on. -/
structure Exchange where
  endpoint : Endpoint
  action : Action
  parameters : List (String × String)
  /-- The credential to sign with, if the request is signed. -/
  signer : Option Credential

namespace Exchange

def query (x : Exchange) : Bytes :=
  Form.write <| ([("Action", x.action.name), ("Version", version)] ++ x.parameters).map
    fun p => (utf8 p.1, utf8 p.2)

def uri (x : Exchange) : Bytes := utf8 s!"https://{x.endpoint.host}/?" ++ x.query

def unsigned? (x : Exchange) : Option Http.Request :=
  (Http.Uri.read? x.uri).map fun uri =>
    ⟨.get, uri, ⟨[(.contentType, .form), (.amzContentSha256, .hex (Sha256.digest []))]⟩⟩

def unbuildable (x : Exchange) : Error :=
  ⟨.requestInvalid, s!"failed to build STS {x.action.name} request",
    [s!"endpoint: {x.endpoint.host}"], none⟩

def unreachable (x : Exchange) (cause : Error) : Error :=
  ⟨.unexpected, s!"failed to send {x.action.name} request to STS",
    [s!"endpoint: {x.endpoint.host}"], some cause⟩

def unreadable (x : Exchange) (document : String) : Error :=
  ⟨.unexpected, s!"failed to parse STS {x.action.name} response",
    [s!"response_length: {document.utf8ByteSize}"], none⟩

def noCredentials (x : Exchange) : Error :=
  ⟨.unexpected, s!"STS {x.action.name} response carries no credentials", [], none⟩

def mandate (x : Exchange) (c : Credential) (now : Time) : Mandate :=
  ⟨c, ⟨now, x.endpoint.region, service⟩, .header⟩

/-- The request as it is sent. -/
def request (x : Exchange) (now : Time) : Except Error Http.Request :=
  match x.unsigned?, x.signer with
  | none, _ => .error x.unbuildable
  | some r, none => .ok r
  | some r, some c =>
    let attempt := (x.mandate c now).sign r
    match attempt.fault with
    | some f => .error f.error
    | none => .ok attempt.request

/-- The credential in a reply. -/
def accept (x : Exchange) (reply : Http.Response) : Except Error Credential :=
  if reply.status ≠ .ok then .error (Refusal.error x.action.name reply)
  else match Grant.read? reply.text with
    | none => .error (x.unreadable reply.text)
    | some g => if g.hasKeys then g.credential else .error x.noCredentials

def run (x : Exchange) : Resolve Credential := do
  let request ← Resolve.lift (x.request (← Resolve.now))
  let reply ← (Resolve.send request []).mapError x.unreachable
  Resolve.lift (x.accept reply)

end Exchange

/-- The name of a session that nobody named. -/
def sessionName (now : Time) : String := s!"apisign-session-{now.seconds}"

end SigV4.Sts
