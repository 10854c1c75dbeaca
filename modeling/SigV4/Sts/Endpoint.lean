import SigV4.Error
import SigV4.Text.Blank
/-!
# Endpoints of the token service

The security token service has one global host for each of two partitions, and regional hosts.
Requests to a global host are signed for the partition's home region.
-/

namespace SigV4.Sts

structure Endpoint where
  host : String
  /-- The region that requests are signed for. -/
  region : String
deriving DecidableEq, Repr

/-- Whether a setting asks for the regional host. -/
def isRegional (setting : String) : Bool := Text.equalsIgnoringCase (Text.trim setting) "regional"

/-- Whether a region belongs to the China partition. -/
def isChina (region : String) : Bool := "cn-".toList.isPrefixOf region.toList

/-- What the names of hosts end in. -/
def domain (china : Bool) : String := if china then "amazonaws.com.cn" else "amazonaws.com"

namespace Endpoint

def regional (region : String) : Endpoint := ⟨s!"sts.{region}.{domain (isChina region)}", region⟩

def global (china : Bool) : Endpoint :=
  ⟨s!"sts.{domain china}", if china then "cn-north-1" else "us-east-1"⟩

def noRegion : Error := ⟨.configInvalid, "regional STS endpoint requires a region", [], none⟩

/-- An empty region counts as none. -/
def choose (region : Option String) (wantsRegional : Bool) : Except Error Endpoint :=
  match region.filter (· ≠ ""), wantsRegional with
  | some r, true => .ok (regional r)
  | none, true => .error noRegion
  | r, false => .ok (global (r.any isChina))

end Endpoint

end SigV4.Sts
