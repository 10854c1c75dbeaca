import SigV4.Bytes
/-!
# Authorities

The part of a URI that names the server: an optional user, a host and an optional port. The
rule here looks at bytes, brackets and colons only: an IPv6 host stands in brackets, there is at
most one colon after it, and percent signs belong to the user part or into brackets.
-/

namespace SigV4.Http

/-- The bytes an authority may hold besides letters and digits. -/
def authorityMarks : Bytes := utf8 "!$%&'()*+,-.:;=@[]_~"

namespace Authority

/-- What has been seen since the user part ended. -/
structure Scan where
  colons : Nat := 0
  opened : Bool := false
  closed : Bool := false
  percent : Bool := false
deriving DecidableEq, Repr

/-- The most colons that may stand inside brackets. -/
def mostColons : Nat := 8

def Scan.step (s : Scan) (b : UInt8) : Option Scan :=
  if b == 0x3A then
    if mostColons ≤ s.colons then none else some { s with colons := s.colons + 1 }
  else if b == 0x5B then
    if s.percent || s.opened then none else some { s with opened := true }
  else if b == 0x5D then
    if !s.opened || s.closed then none
    else some { s with closed := true, colons := 0, percent := false }
  else if b == 0x40 then some { s with colons := 0, percent := false }
  else if b == 0x25 then some { s with percent := true }
  else if Bytes.isAlphanumeric b || authorityMarks.contains b then some s
  else none

def isValid (bs : Bytes) : Bool :=
  !bs.isEmpty && bs.getLast? != some 0x40 &&
    match bs.foldlM Scan.step {} with
    | some s => s.opened == s.closed && s.colons ≤ 1 && !s.percent
    | none => false

end Authority

structure Authority where
  bytes : Bytes
  valid : Authority.isValid bytes = true
deriving DecidableEq

namespace Authority

def ofBytes? (bs : Bytes) : Option Authority :=
  if h : isValid bs = true then some ⟨bs, h⟩ else none

/-- What follows the last `@`: the host with its port. -/
def hostAndPort (a : Authority) : Bytes := (a.bytes.reverse.takeWhile (· != 0x40)).reverse

end Authority

end SigV4.Http
