import SigV4.World
import SigV4.World.Variable
import SigV4.Text.Blank
/-!
# Configurations

What a caller may settle before credentials are looked for. Fields left open can be filled from the
environment.
-/

namespace SigV4

structure Config where
  region : Option String := none
  /-- The only profile to take credentials from. -/
  profile : Option String := none
  configFile : Option String := none
  credentialsFile : Option String := none
  metadataDisabled : Bool := false
deriving DecidableEq, Repr

/-- How the environment switches a thing on. -/
def isTrue (value : String) : Bool := Text.equalsIgnoringCase value "true"

/-- Open fields filled from the variables of a world. -/
def Config.completed (c : Config) (w : World) : Config :=
  { c with
    region := c.region <|> w.filled? Variable.region <|> w.filled? Variable.defaultRegion
    configFile := c.configFile <|> w.lookup Variable.configFile
    credentialsFile := c.credentialsFile <|> w.lookup Variable.credentialsFile
    metadataDisabled := c.metadataDisabled || (w.lookup Variable.metadataDisabled).any isTrue }

end SigV4
