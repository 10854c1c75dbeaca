import SigV4.Query.Percent
/-!
# Canonical paths

A path is walked segment by segment: empty segments and `.` stay where they are and `..` goes
one up. The path that is reached is then percent-encoded once more, escapes included.
-/

namespace SigV4.Path

def dot : Bytes := [0x2E]
def dotDot : Bytes := [0x2E, 0x2E]

/-- One step of the walk; the segments passed are kept with the innermost first. -/
def enter (passed : List Bytes) (segment : Bytes) : List Bytes :=
  if segment = [] ∨ segment = dot then passed
  else if segment = dotDot then passed.tail
  else segment :: passed

def walk (segments : List Bytes) : List Bytes := (segments.foldl enter []).reverse

/-- Whether the path ends in a directory rather than in a named segment. -/
def endsInDirectory (segments : List Bytes) : Bool :=
  match segments.getLast? with
  | some s => s = [] || s = dot || s = dotDot
  | none => true

def normalize (path : Bytes) : Bytes :=
  let segments := Bytes.splitOn 0x2F path
  let kept := walk segments
  0x2F :: Bytes.join [0x2F] kept
    ++ if endsInDirectory segments && !kept.isEmpty then [0x2F] else []

def isPlain (b : UInt8) : Bool := Percent.isUnreserved b || b == 0x2F

def canonical (path : Bytes) : Bytes := Percent.encode isPlain (normalize path)

end SigV4.Path
