import SigV4.Credential
import SigV4.Format.Xml
import SigV4.Http.Message
import SigV4.Text.Blank
import SigV4.Time.Rfc3339
/-!
# Replies of the token service

A reply is an XML document with a credential in it, or with the code and the message of an
error. Elements that are missing are empty.
-/

namespace SigV4.Sts

/-! ## Credentials -/

/-- The texts of a credential element. -/
structure Grant where
  accessKeyId : String := ""
  secretAccessKey : String := ""
  sessionToken : String := ""
  expiration : String := ""
deriving DecidableEq, Repr

namespace Grant

def ofNode? (n : Xml.Node) : Option Grant := do
  let members ← n.members? ["AccessKeyId", "SecretAccessKey", "SessionToken", "Expiration"]
  return ⟨← Xml.memberText? members "AccessKeyId", ← Xml.memberText? members "SecretAccessKey",
    ← Xml.memberText? members "SessionToken", ← Xml.memberText? members "Expiration"⟩

/-- What `read` makes of the only member with one of the names, nothing when there is none. -/
def memberOr {α : Type} (names : List String) (nothing : α) (read : Xml.Node → Option α)
    (n : Xml.Node) : Option α := do
  match ← Xml.only? names (← n.members? names) with
  | some m => read m
  | none => some nothing

/-- The element that holds the credential has a name of its own for each action. -/
def read? (document : String) : Option Grant := do
  let root ← Xml.read? document
  memberOr ["AssumeRoleResult", "AssumeRoleWithWebIdentityResult"] {}
    (memberOr ["Credentials"] {} ofNode?) root

def hasKeys (g : Grant) : Bool := !g.accessKeyId.isEmpty && !g.secretAccessKey.isEmpty

/-- The credential, its texts without the blanks around them. -/
def credential (g : Grant) : Except Error Credential := do
  let expiry ← Rfc3339.parse (Text.trim g.expiration)
  return ⟨Text.trim g.accessKeyId, Text.trim g.secretAccessKey,
    Text.nonEmpty? (Text.trim g.sessionToken), some expiry⟩

end Grant

/-! ## Errors -/

structure Refusal where
  code : String := ""
  message : String := ""
deriving DecidableEq, Repr

namespace Refusal

def ofNode? (n : Xml.Node) : Option Refusal := do
  let members ← n.members? ["Code", "Message"]
  return ⟨← Xml.memberText? members "Code", ← Xml.memberText? members "Message"⟩

def read? (document : String) : Option Refusal := do
  Grant.memberOr ["Error"] {} ofNode? (← Xml.read? document)

/-- The code decides before the status does. -/
def kind (r : Refusal) (status : Http.Status) : ErrorKind :=
  if r.code ∈ ["ExpiredToken", "ExpiredTokenException"] then .credentialExpired
  else if r.code ∈ ["InvalidClientTokenId", "SignatureDoesNotMatch", "InvalidIdentityToken",
      "IDPRejectedClaim"] then .credentialInvalid
  else if status = .forbidden ∨ r.code = "AccessDenied" then .credentialDenied
  else if status = .badRequest then .configInvalid
  else .unexpected

/-- The error that a reply without success stands for; a document that cannot be read has neither
code nor message. -/
def error (action : String) (reply : Http.Response) : Error :=
  let r := (read? reply.text).getD {}
  ⟨r.kind reply.status, s!"STS {action} failed: [{r.code}] {r.message}",
    [s!"status: {reply.status.display}"], none⟩

end Refusal

end SigV4.Sts
