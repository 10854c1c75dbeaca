import SigV4.Source
import SigV4.World.Variable
/-!
# Keys in the environment

Both keys or neither have to be set; an empty variable counts as one that is not set.
-/

namespace SigV4.Source

def halfSet (present absent : String) : Error :=
  ⟨.credentialInvalid, s!"{present} is set but {absent} is not", [], none⟩

def environment : Source := do
  let key ← Resolve.filled? Variable.accessKeyId
  let secret ← Resolve.filled? Variable.secretAccessKey
  let token ← Resolve.filled? Variable.sessionToken
  match key, secret with
  | some key, some secret => return some ⟨key, secret, token, none⟩
  | none, none => return none
  | some _, none => Resolve.fail (halfSet Variable.accessKeyId Variable.secretAccessKey)
  | none, some _ => Resolve.fail (halfSet Variable.secretAccessKey Variable.accessKeyId)

end SigV4.Source
