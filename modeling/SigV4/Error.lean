/-!
# Errors

An error has a kind that callers can act on, a message, notes on what was being done
(oldest first), and sometimes the error that caused it. Each module names its own faults and
says here what they become.
-/

namespace SigV4

inductive ErrorKind where
  | credentialNotFound
  | credentialInvalid
  | credentialExpired
  | credentialDenied
  | requestInvalid
  | configInvalid
  | unexpected
deriving DecidableEq, Repr

namespace ErrorKind

def description : ErrorKind → String
  | credentialNotFound => "credentials not found"
  | credentialInvalid => "invalid credentials"
  | credentialExpired => "expired credentials"
  | credentialDenied => "credential access denied"
  | requestInvalid => "invalid request"
  | configInvalid => "invalid configuration"
  | unexpected => "unexpected error"

/-- Whether the caller should look at its credentials. -/
def isCredential : ErrorKind → Bool
  | credentialNotFound | credentialInvalid | credentialExpired | credentialDenied => true
  | _ => false

end ErrorKind

structure Error where
  kind : ErrorKind
  message : String
  context : List String := []
  source : Option Error := none
deriving Repr, BEq

namespace Error

def display (e : Error) : String := s!"{e.kind.description}: {e.message}"

/-- A note on what was being done, after those already there. -/
def during (e : Error) (note : String) : Error := { e with context := e.context ++ [note] }

/-- A failure about which only its text is known. -/
def ofMessage (message : String) : Error := ⟨.unexpected, message, [], none⟩

/-- A value refused to be written as text. -/
def formatting : Error := ofMessage "an error occurred when formatting an argument"

@[simp] theorem kind_during (e : Error) (note : String) : (e.during note).kind = e.kind := rfl
@[simp] theorem message_during (e : Error) (note : String) : (e.during note).message = e.message :=
  rfl

end Error

end SigV4
