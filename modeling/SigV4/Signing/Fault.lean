import SigV4.Error
import SigV4.Http.Header
import SigV4.Http.Uri
/-!
# What can go wrong while signing

Every fault is the request's: it cannot be signed as it is.
-/

namespace SigV4.Signing

inductive Fault where
  | expiryOutOfRange (seconds : Nat)
  | noAuthority
  | value (fault : Http.ValueFault)
  | uri (fault : Http.UriFault)
deriving DecidableEq, Repr

namespace Fault

def message : Fault → String
  | expiryOutOfRange _ => "presign expiration must be between 1 second and 7 days"
  | noAuthority => "request without authority is invalid for signing"
  | value f => f.message
  | uri f => f.message

def context : Fault → List String
  | expiryOutOfRange seconds => [s!"expires_in: {seconds}s"]
  | _ => []

def error (f : Fault) : Error := ⟨.requestInvalid, f.message, f.context, none⟩

end Fault

end SigV4.Signing
