import SigV4.Redaction
import SigV4.Time.Format
/-!
# Credentials

An access key, its secret, and for temporary credentials a session token and an expiry.
-/

namespace SigV4

structure Credential where
  accessKeyId : String := ""
  secretAccessKey : String := ""
  sessionToken : Option String := none
  expiry : Option Time := none
deriving DecidableEq, Repr

namespace Credential

def hasKeys (c : Credential) : Bool := !c.accessKeyId.isEmpty && !c.secretAccessKey.isEmpty

/-- Seconds before the expiry at which a credential counts as expired. -/
def margin : Int := 120

def isExpired (now : Time) (c : Credential) : Bool :=
  c.expiry.any fun t => t.notAfter (now.plusSeconds margin)

def isValid (now : Time) (c : Credential) : Bool := c.hasKeys && !c.isExpired now

/-- An optional expiry as logs show it. -/
def expiryText : Option Time → String
  | none => "None"
  | some t => s!"Some({t.formatPrecise})"

/-- What logs show of a credential. -/
def describe (c : Credential) : String :=
  s!"Credential \x7b access_key_id: {Redaction.redact c.accessKeyId}, "
    ++ s!"secret_access_key: {Redaction.redact c.secretAccessKey}, "
    ++ s!"session_token: {Redaction.redactOption c.sessionToken}, "
    ++ s!"expires_in: {expiryText c.expiry} \x7d"

end Credential

end SigV4
