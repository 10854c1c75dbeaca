import SigV4.Credential
import SigV4.Profile.Files
import SigV4.Source.AssumedRole
/-!
# From a profile to its credential

A profile may name a role, and then another profile to take it on with, which may name a role
again. The walk along these links makes no calls: it ends in a plan, the base credential and the
roles to take on with it, in nothing, or in a fault of the files.
-/

namespace SigV4.Profile

inductive Fault where
  | halfKeys (profile present absent : String)
  | unsupported (profile key : String)
  | duration (profile value : String)
  | bothLinks (profile : String)
  | noLink (profile : String)
  | unknownLink (name : String)
  | ownKeysMissing (profile : String)
  | loop (visited : List String) (source : String)
  | missing (profile source : String)
  | nothing (profile : String)
deriving DecidableEq, Repr

def Fault.message : Fault → String
  | halfKeys p present absent => s!"profile {p} sets {present} but not {absent}"
  | unsupported p key => s!"profile {p} uses {key}, which is not supported"
  | duration p v => s!"profile {p} has invalid duration_seconds {v}"
  | bothLinks p => s!"profile {p} sets both source_profile and credential_source"
  | noLink p => s!"profile {p} sets role_arn without source_profile or credential_source"
  | unknownLink name => s!"unsupported credential_source {name}"
  | ownKeysMissing p => s!"profile {p} is its own source_profile but has no static keys"
  | loop visited source => "source_profile loop: " ++ " -> ".intercalate (visited ++ [source])
  | missing p source => s!"source_profile {source} of profile {p} not found"
  | nothing p => s!"source_profile {p} has no credential configured"

def Fault.error (f : Fault) : Error := ⟨.credentialInvalid, f.message, [], none⟩

@[simp] theorem Fault.kind_error (f : Fault) : f.error.kind = .credentialInvalid := rfl

/-- A place outside the files where a credential may be. -/
inductive Place where
  | environment
  | instanceMetadata
  | container
deriving DecidableEq, Repr

def Place.name : Place → String
  | environment => "Environment"
  | instanceMetadata => "Ec2InstanceMetadata"
  | container => "EcsContainer"

def Place.ofName? (name : String) : Option Place :=
  [environment, instanceMetadata, container].find? (·.name = name)

/-- Where the first credential comes from. -/
inductive Base where
  | keys (c : Credential)
  | webIdentity (roleArn tokenFile : String) (sessionName : Option String)
  | process (command : String)
  | place (p : Place)
deriving DecidableEq, Repr

/-- A base credential and the roles to take on one after the other, the first with it. -/
structure Plan where
  base : Base
  roles : List Role := []
deriving DecidableEq, Repr

/-! ## One profile -/

/-- Both keys or neither have to be there. -/
def keys (p : Profile) : Except Fault (Option Credential) :=
  match p.get "aws_access_key_id", p.get "aws_secret_access_key" with
  | some key, some secret => .ok (some ⟨key, secret, p.get "aws_session_token", none⟩)
  | none, none => .ok none
  | some _, none => .error (.halfKeys p.name "aws_access_key_id" "aws_secret_access_key")
  | none, some _ => .error (.halfKeys p.name "aws_secret_access_key" "aws_access_key_id")

/-- Keys of ways to a credential that need a person or a cache. -/
def unsupportedKeys : List String :=
  ["sso_start_url", "sso_session", "sso_account_id", "sso_role_name", "mfa_serial"]

/-- Decimal digits of a number of 32 bits; a plus sign may stand in front. -/
def duration? (value : String) : Option Nat :=
  let digits := if value.toList.head? = some '+' then value.toList.tail else value.toList
  if !digits.isEmpty && digits.all Char.isDigit then
    let n := digits.foldl (fun n c => n * 10 + (c.toNat - 0x30)) 0
    if n < UInt32.size then some n else none
  else none

def role (p : Profile) (arn : String) : Except Fault Role := do
  let duration ← match p.get "duration_seconds" with
    | none => pure none
    | some v =>
      match duration? v with
      | some n => pure (some n)
      | none => throw (.duration p.name v)
  return ⟨arn, p.get "role_session_name", p.get "external_id", duration⟩

/-- What a profile leads to. -/
inductive Step where
  | nothing
  | base (b : Base)
  /-- A role, and a base to take it on with. -/
  | role (r : Role) (b : Base)
  /-- A role, and the name of the profile to take it on with. -/
  | link (r : Role) (source : String)
deriving DecidableEq, Repr

/-- What the role of a profile is taken on with. -/
def roleStep (p : Profile) (r : Role) : Except Fault Step :=
  match p.get "source_profile", p.get "credential_source" with
  | some _, some _ => .error (.bothLinks p.name)
  | none, none => .error (.noLink p.name)
  | none, some name =>
    match Place.ofName? name with
    | some place => .ok (.role r (.place place))
    | none => .error (.unknownLink name)
  | some source, none =>
    if source = p.name then do
      match ← p.keys with
      | some c => return .role r (.keys c)
      | none => throw (.ownKeysMissing p.name)
    else .ok (.link r source)

/-- The step behind the profile's keys: its role, or else its program. -/
def stepBehindKeys (p : Profile) : Except Fault Step :=
  match unsupportedKeys.find? p.has with
  | some key => .error (.unsupported p.name key)
  | none =>
    match p.get "role_arn" with
    | some arn =>
      match p.get "web_identity_token_file" with
      | some file => .ok (.base (.webIdentity arn file (p.get "role_session_name")))
      | none => do p.roleStep (← p.role arn)
    | none =>
      match p.get "credential_process" with
      | some command => .ok (.base (.process command))
      | none => .ok .nothing

/-- Keys come first, except those of the profile in question when it names a role. -/
def step (p : Profile) (first : Bool) : Except Fault Step :=
  if first && p.has "role_arn" then p.stepBehindKeys
  else do
    match ← p.keys with
    | some c => return .base (.keys c)
    | none => p.stepBehindKeys

end Profile

/-! ## The walk -/

namespace SharedFiles

open Profile

/-- The plan for a profile that `visited` ends in, with the roles passed on the way there, the last
one first. -/
def walk (f : SharedFiles) (visited : List String) (roles : List Role) (p : Profile) :
    Except Fault (Option Plan) :=
  match p.step roles.isEmpty with
  | .error e => .error e
  | .ok .nothing => if roles.isEmpty then .ok none else .error (.nothing p.name)
  | .ok (.base b) => .ok (some ⟨b, roles⟩)
  | .ok (.role r b) => .ok (some ⟨b, r :: roles⟩)
  | .ok (.link r source) =>
    if _new : source ∉ visited then
      match _found : f.profile? source with
      | none => .error (.missing p.name source)
      | some q => f.walk (visited ++ [source]) (r :: roles) q
    else .error (.loop visited source)
termination_by (f.unvisited visited).length
decreasing_by exact length_unvisited_lt (mem_names _found) _new

def plan (f : SharedFiles) (p : Profile) : Except Fault (Option Plan) := f.walk [p.name] [] p

end SharedFiles

end SigV4
