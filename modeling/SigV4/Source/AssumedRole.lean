import SigV4.Source
import SigV4.Sts.Exchange
import SigV4.World.Variable
/-!
# Roles taken on with another credential

A credential is exchanged for that of a role. The source of the first one has to have it.
-/

namespace SigV4

/-- A role and how it is to be taken on. -/
structure Role where
  arn : String
  sessionName : Option String := none
  externalId : Option String := none
  /-- How many seconds the credential is to be valid. -/
  duration : Option Nat := none
deriving DecidableEq, Repr

namespace Role

def parameters (r : Role) (now : Time) : List (String × String) :=
  [("RoleArn", r.arn), ("RoleSessionName", r.sessionName.getD (Sts.sessionName now))]
    ++ (r.externalId.toList.map fun id => ("ExternalId", id))
    ++ (r.duration.toList.map fun n => ("DurationSeconds", toString n))

def exchange (r : Role) (endpoint : Sts.Endpoint) (c : Credential) (now : Time) : Sts.Exchange :=
  ⟨endpoint, .assumeRole, r.parameters now, some c⟩

/-- The credential of the role, for another credential. -/
def assume (r : Role) (endpoint : Sts.Endpoint) (c : Credential) : Resolve Credential := do
  (r.exchange endpoint c (← Resolve.now)).run.mapError (·.during s!"role_arn: {r.arn}")

end Role

namespace Source

structure AssumedRole where
  role : Role
  base : Source
  region : Option String := none
  regional : Option Bool := none

namespace AssumedRole

def noBase (r : Role) : Error :=
  ⟨.credentialNotFound, "no source credential to assume role with", [s!"role_arn: {r.arn}"], none⟩

def endpoint (a : AssumedRole) (w : World) : Except Error Sts.Endpoint :=
  Sts.Endpoint.choose (a.region <|> w.lookup Variable.region)
    (a.regional.getD ((w.lookup Variable.regionalEndpoints).any Sts.isRegional))

end AssumedRole

def assumedRole (a : AssumedRole) : Source := do
  let c ← Resolve.orFail (AssumedRole.noBase a.role) (← a.base)
  let endpoint ← Resolve.lift (a.endpoint (← read))
  some <$> a.role.assume endpoint c

end Source

end SigV4
