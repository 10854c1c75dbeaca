import SigV4.Profile.Walk
import SigV4.Source.Container
import SigV4.Source.Environment
import SigV4.Source.InstanceMetadata
import SigV4.Source.Process
import SigV4.Source.WebIdentity
/-!
# Profiles

The shared files are read, a plan is made for the profile in question, and the plan is carried
out: its base credential is fetched and the roles are taken on one after the other. A file that
cannot be read counts as empty, a file that is read has to be well formed.
-/

namespace SigV4.Source

namespace Profile

structure Settings where
  /-- A profile that has to be there. -/
  name : Option String := none
  configFile : Option String := none
  credentialsFile : Option String := none
  region : Option String := none
  metadata : InstanceMetadata.Settings := {}
deriving DecidableEq, Repr

/-! ## Files -/

def malformed (path : String) : Error :=
  ⟨.credentialInvalid, "failed to parse profile file", [s!"path: {path}"], none⟩

/-- The sections of a file, none when it cannot be read. -/
def loadFile (path : String) : Resolve (List Ini.Section) := do
  match ← Resolve.expandHome path with
  | none => return []
  | some path =>
    match ← (Resolve.fileText path).attempt with
    | .error _ => return []
    | .ok text => Resolve.orFail (malformed path) (Ini.read? text)

def Settings.credentialsPath (s : Settings) (w : World) : String :=
  (s.credentialsFile <|> w.lookup Variable.credentialsFile).getD "~/.aws/credentials"

def Settings.configPath (s : Settings) (w : World) : String :=
  (s.configFile <|> w.lookup Variable.configFile).getD "~/.aws/config"

def loadFiles (s : Settings) : Resolve SharedFiles := do
  let credentials ← loadFile (s.credentialsPath (← read))
  let config ← loadFile (s.configPath (← read))
  return ⟨credentials, config⟩

/-! ## Plans -/

/-- What the exchanges of a plan have in common. -/
structure Exchanges where
  region : Option String
  regional : Bool
deriving DecidableEq, Repr

/-- The profile in question decides for the whole chain of roles. -/
def Settings.exchanges (s : Settings) (p : SigV4.Profile) (w : World) : Exchanges where
  region := s.region <|> p.get "region" <|> w.filled? Variable.region
  regional :=
    (p.get "sts_regional_endpoints" <|> w.lookup Variable.regionalEndpoints).any Sts.isRegional

def nothingAt (p : SigV4.Profile.Place) : Error :=
  ⟨.credentialNotFound, s!"credential_source {p.name} yielded no credential", [], none⟩

def place (s : Settings) : SigV4.Profile.Place → Source
  | .environment => environment
  | .instanceMetadata => instanceMetadata s.metadata
  | .container => container {}

def base (s : Settings) (x : Exchanges) : SigV4.Profile.Base → Resolve Credential
  | .keys c => return c
  | .webIdentity roleArn tokenFile sessionName =>
    WebIdentity.assume { sessionName, region := x.region, regional := some x.regional }
      roleArn tokenFile
  | .process command => Process.run command
  | .place p => do Resolve.orFail (nothingAt p) (← place s p)

def carryOut (s : Settings) (x : Exchanges) (plan : SigV4.Profile.Plan) : Resolve Credential := do
  let c ← base s x plan.base
  if plan.roles.isEmpty then return c
  let endpoint ← Resolve.lift (Sts.Endpoint.choose x.region x.regional)
  plan.roles.foldlM (fun c r => r.assume endpoint c) c

/-- The credential that a profile leads to. -/
def resolve (s : Settings) (files : SharedFiles) (p : SigV4.Profile) : Source := do
  let x := s.exchanges p (← read)
  match ← Resolve.lift ((files.plan p).mapError SigV4.Profile.Fault.error) with
  | none => return none
  | some plan => some <$> carryOut s x plan

def notFound (name : String) : Error :=
  ⟨.credentialNotFound, s!"profile {name} not found", [], none⟩

end Profile

def profile (s : Profile.Settings) : Source := do
  let name := (s.name <|> (← Resolve.filled? Variable.profile)).getD "default"
  let files ← Profile.loadFiles s
  match files.profile? name with
  | none => if s.name.isSome then Resolve.fail (Profile.notFound name) else return none
  | some p => Profile.resolve s files p

end SigV4.Source
