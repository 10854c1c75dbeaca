import SigV4.Error
import SigV4.Text.Quoted
/-!
# Regions

A region is part of the credential scope, so only lower-case letters, digits and inner
hyphens may make one up.
-/

namespace SigV4.Region

def isRegionChar (c : Char) : Bool :=
  ('a' ≤ c && c ≤ 'z') || ('0' ≤ c && c ≤ '9') || c == '-'

def isValid (s : String) : Bool :=
  let cs := s.toList
  !cs.isEmpty && cs.all isRegionChar && cs.head? != some '-' && cs.getLast? != some '-'

def invalid (s : String) : Error :=
  ⟨.configInvalid, "region is not a valid AWS region", [s!"region: {Text.quoted s}"], none⟩

def validate (s : String) : Except Error Unit := if isValid s then .ok () else .error (invalid s)

end SigV4.Region
