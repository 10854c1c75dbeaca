import SigV4.Credential
import SigV4.Resolve
/-!
# Credential sources

A source looks for a credential in the world around it: it has one, it has none because nothing is
configured for it, or it fails. Sources are tried in order, and the first that does not
come back with nothing decides.
-/

namespace SigV4

abbrev Source := Resolve (Option Credential)

namespace Source

def firstOf : List Source → Source
  | [] => pure none
  | s :: rest => do
    match ← s with
    | some c => pure (some c)
    | none => firstOf rest

end Source

end SigV4
