import SigV4.Format.Json
import SigV4.Source
import SigV4.Text.Blank
import SigV4.Time.Rfc3339
/-!
# Keys from a program

A command line is split at blanks and run; the program prints a JSON document with the keys on its
output.
-/

namespace SigV4.Source

namespace Process

structure Output where
  version : Nat
  accessKeyId : String
  secretAccessKey : String
  sessionToken : Option String
  expiration : Option String
deriving DecidableEq, Repr

/-- The version is a number of 32 bits; token and expiration may be left out. -/
def Output.read? (document : Bytes) : Option Output := do
  let record ← Json.record?
    ["Version", "AccessKeyId", "SecretAccessKey", "SessionToken", "Expiration"] 3
    (← Json.read? document)
  let version ← record.lookup "Version" >>= Json.Value.nat?
  if version < UInt32.size then
    return ⟨version, ← Json.requiredText? record "AccessKeyId",
      ← Json.requiredText? record "SecretAccessKey", ← Json.optionalText? record "SessionToken",
      ← Json.optionalText? record "Expiration"⟩
  else none

def noProgram : Error := ⟨.credentialInvalid, "credential_process is empty", [], none⟩

/-- What can be wrong with what a program did. -/
inductive Fault where
  | exit (status : Int) (stderr : String)
  | unreadable
  | version (n : Nat)
  | noKeys
deriving DecidableEq, Repr

def Fault.error (program : String) : Fault → Error
  | exit status stderr =>
    ⟨.unexpected, s!"credential process exited with status {status}",
      [s!"program: {program}", s!"stderr: {stderr}"], none⟩
  | unreadable =>
    ⟨.credentialInvalid, "failed to parse credential process output",
      [s!"program: {program}"], none⟩
  | version n =>
    ⟨.credentialInvalid, s!"unsupported credential process output version {n}",
      [s!"program: {program}"], none⟩
  | noKeys =>
    ⟨.credentialInvalid, "credential process output carries no keys",
      [s!"program: {program}"], none⟩

/-- What the program printed, unless it failed or printed no keys. -/
def check (o : CommandOutput) : Except Fault Output :=
  if o.status ≠ 0 then .error (.exit o.status (Text.trim (Utf8.decodeLossy o.stderr)))
  else match Output.read? o.stdout with
    | none => .error .unreadable
    | some out =>
      if out.version ≠ 1 then .error (.version out.version)
      else if out.accessKeyId.isEmpty || out.secretAccessKey.isEmpty then .error .noKeys
      else .ok out

def run (command : String) : Resolve Credential := do
  match Text.words command with
  | [] => Resolve.fail noProgram
  | program :: arguments =>
    let output ← Resolve.execute program arguments
    let out ← Resolve.lift ((check output).mapError (Fault.error program))
    let expiry ← (out.expiration.bind Text.nonEmpty?).mapM fun t => Resolve.lift (Rfc3339.parse t)
    return ⟨out.accessKeyId, out.secretAccessKey, out.sessionToken.bind Text.nonEmpty?, expiry⟩

end Process

def process (command : String) : Source := some <$> Process.run command

end SigV4.Source
