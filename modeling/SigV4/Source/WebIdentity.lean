import SigV4.Source
import SigV4.Sts.Exchange
import SigV4.World.Variable
/-!
# Roles taken on with a web identity

A platform puts a token into a file; with it a role is taken on without any keys. Without a role
and a token file there is nothing to take on.
-/

namespace SigV4.Source

namespace WebIdentity

structure Settings where
  roleArn : Option String := none
  tokenFile : Option String := none
  sessionName : Option String := none
  region : Option String := none
  regional : Option Bool := none
deriving DecidableEq, Repr

def unreadable (path : String) (cause : Error) : Error :=
  ⟨.credentialInvalid, "failed to read web identity token file", [s!"path: {path}"], some cause⟩

def empty (path : String) : Error :=
  ⟨.credentialInvalid, "web identity token file is empty", [s!"path: {path}"], none⟩

/-- The text of the token file without the blanks around it. A path that needs a home
directory is taken as it is when there is none. -/
def token (file : String) : Resolve String := do
  let path := (← Resolve.expandHome file).getD file
  let text ← (Resolve.fileText path).mapError (unreadable path)
  if (Text.trim text).isEmpty then Resolve.fail (empty path)
  return Text.trim text

def Settings.endpoint (s : Settings) (w : World) : Except Error Sts.Endpoint :=
  Sts.Endpoint.choose (s.region <|> w.filled? Variable.region)
    (s.regional.getD ((w.filled? Variable.regionalEndpoints).any Sts.isRegional))

def exchange (endpoint : Sts.Endpoint) (roleArn session token : String) : Sts.Exchange :=
  ⟨endpoint, .assumeRoleWithWebIdentity,
    [("RoleArn", roleArn), ("RoleSessionName", session), ("WebIdentityToken", token)], none⟩

/-- The credential of a role, for the token in a file. -/
def assume (s : Settings) (roleArn tokenFile : String) : Resolve Credential := do
  let token ← token tokenFile
  let session := (s.sessionName <|> (← Resolve.filled? Variable.roleSessionName)).getD
    (Sts.sessionName (← Resolve.now))
  let endpoint ← Resolve.lift (s.endpoint (← read))
  (exchange endpoint roleArn session token).run.mapError (·.during s!"role_arn: {roleArn}")

end WebIdentity

def webIdentity (s : WebIdentity.Settings) : Source := do
  let roleArn := s.roleArn <|> (← Resolve.filled? Variable.roleArn)
  let tokenFile := s.tokenFile <|> (← Resolve.filled? Variable.webIdentityTokenFile)
  match roleArn, tokenFile with
  | some roleArn, some tokenFile => some <$> WebIdentity.assume s roleArn tokenFile
  | _, _ => return none

end SigV4.Source
