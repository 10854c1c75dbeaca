import SigV4.Time
import SigV4.Http.Message
/-!
# The world outside

Whoever looks for credentials sees environment variables, a home directory and a clock, and
may read files, send requests and run programs. How the world answers a call may depend on
all calls before it. A capability may also not be installed at all.
-/

namespace SigV4

inductive Call where
  | file (path : String)
  | http (request : Http.Request) (body : Bytes)
  | command (program : String) (arguments : List String)
deriving DecidableEq

structure CommandOutput where
  status : Int := 0
  stdout : Bytes := []
  stderr : Bytes := []
deriving DecidableEq, Repr

/-- The functions get the calls made so far, oldest first. -/
structure World where
  now : Time
  environment : List (String × String) := []
  home : Option String := none
  file : Option (List Call → String → Except Error Bytes) := none
  http : Option (List Call → Http.Request → Bytes → Except Error Http.Response) := none
  command : Option (List Call → String → List String → Except Error CommandOutput) := none

namespace World

def lookup (w : World) (name : String) : Option String := w.environment.lookup name

/-- A variable that is set to more than the empty text. -/
def filled? (w : World) (name : String) : Option String := (w.lookup name).filter (· ≠ "")

end World

end SigV4
