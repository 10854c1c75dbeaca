import SigV4.Http.Authority
import SigV4.Text.Utf8
/-!
# URIs

A request names its resource in one of three forms: a path on the server it is sent to, a
server alone, or a server with the scheme in front and a path behind. A fragment is dropped.
`Uri.read?` takes a URI apart and `Uri.bytes` writes it.
-/

namespace SigV4.Http

inductive UriFault where
  | tooLong
  | relativePath
  | invalidCharacter
deriving DecidableEq, Repr

def UriFault.message : UriFault → String
  | tooLong => "uri too long"
  | relativePath => "path does not start with slash"
  | invalidCharacter => "invalid uri character"

/-- The most bytes a URI may have. -/
def longestUri : Nat := 65534

/-- Bytes that may stand in a path. -/
def isPathByte (b : UInt8) : Bool :=
  b == 0x21 || b == 0x22 || (0x24 ≤ b && b ≤ 0x3B) || b == 0x3D || (0x40 ≤ b && b ≤ 0x5F)
    || (0x61 ≤ b && b ≤ 0x7E) || 0x80 ≤ b

/-- Bytes that may stand in a query. -/
def isQueryByte (b : UInt8) : Bool :=
  b == 0x21 || (0x24 ≤ b && b ≤ 0x3B) || b == 0x3D || (0x3F ≤ b && b ≤ 0x7E) || 0x80 ≤ b

/-! ## Path and query -/

namespace Target

def isPath (bs : Bytes) : Bool := bs.all isPathByte && Utf8.isValid bs
def isQuery (bs : Bytes) : Bool := bs.all isQueryByte && Utf8.isValid bs

end Target

/-- A path and a query as they are written, the path possibly empty. -/
structure Target where
  path : Bytes
  query : Option Bytes
  path_valid : Target.isPath path = true
  query_valid : query.all Target.isQuery = true
deriving DecidableEq

namespace Target

def root : Target := ⟨utf8 "/", none, by decide +kernel, rfl⟩
def asterisk : Target := ⟨utf8 "*", none, by decide +kernel, rfl⟩

/-- The text up to the fragment, if it has one. -/
def withoutFragment (bs : Bytes) : Bytes := bs.takeWhile (· != 0x23)

def pathPart (bs : Bytes) : Bytes := bs.takeWhile (· != 0x3F)

/-- What follows the first question mark. -/
def queryPart (bs : Bytes) : Option Bytes :=
  match bs.dropWhile (· != 0x3F) with
  | [] => none
  | _ :: q => some q

/-- Whether a path may start like this; an asterisk may stand alone. -/
def startsPath : Bytes → Bool
  | [] => true
  | [0x2A] => true
  | b :: _ => b == 0x2F || b == 0x3F || b == 0x23

def read (bs : Bytes) : Except UriFault Target :=
  if longestUri < bs.length then .error .tooLong
  else if !startsPath bs then .error .relativePath
  else
    let path := pathPart (withoutFragment bs)
    let query := queryPart (withoutFragment bs)
    if h : isPath path = true ∧ query.all isQuery = true then .ok ⟨path, query, h.1, h.2⟩
    else .error .invalidCharacter

/-- An empty path stands for the root. -/
def shownPath (t : Target) : Bytes := if t.path.isEmpty then [0x2F] else t.path

def bytes (t : Target) : Bytes :=
  t.shownPath ++ match t.query with
    | some q => 0x3F :: q
    | none => []

end Target

/-! ## Schemes -/

structure Scheme where
  name : Bytes
deriving DecidableEq, Repr

namespace Scheme

def http : Scheme := ⟨utf8 "http"⟩
def https : Scheme := ⟨utf8 "https"⟩

/-- The longest scheme. -/
def longest : Nat := 64

def isSchemeByte (b : UInt8) : Bool := Bytes.isAlphanumeric b || (utf8 "+-.~").contains b

/-- Two schemes are known in any case; others are kept as they are written. -/
def ofName (bs : Bytes) : Scheme :=
  let name := bs.map Bytes.lower
  if name = utf8 "http" then http else if name = utf8 "https" then https else ⟨bs⟩

/-- The scheme before the first colon and what follows its two slashes, if a text starts so. -/
def split? (bs : Bytes) : Option (Bytes × Bytes) :=
  match bs.dropWhile isSchemeByte with
  | 0x3A :: 0x2F :: 0x2F :: rest => some (bs.takeWhile isSchemeByte, rest)
  | _ => none

end Scheme

/-! ## URIs -/

inductive Uri where
  | path (target : Target)
  | server (authority : Authority)
  | full (scheme : Scheme) (authority : Authority) (target : Target)
deriving DecidableEq

namespace Uri

/-- The URI that stands where there is none. -/
def none : Uri := .path .root

def bytes : Uri → Bytes
  | path t => t.bytes
  | server a => a.bytes
  | full s a t => s.name ++ utf8 "://" ++ a.bytes ++ t.bytes

def authority? : Uri → Option Authority
  | path _ => Option.none
  | server a | full _ a _ => some a

def endsAuthority (b : UInt8) : Bool := b == 0x2F || b == 0x3F || b == 0x23

/-- A server and what follows it, after a scheme. -/
def readFull? (scheme rest : Bytes) : Option Uri := do
  if Scheme.longest < scheme.length then Option.none
  else
    let a ← Authority.ofBytes? (rest.takeWhile (!endsAuthority ·))
    match Target.read (rest.dropWhile (!endsAuthority ·)) with
    | .ok t => some (.full (.ofName scheme) a t)
    | .error _ => Option.none

def read? (bs : Bytes) : Option Uri :=
  if longestUri < bs.length then Option.none
  else if bs = utf8 "*" then some (.path .asterisk)
  else if bs.head? = some 0x2F then
    match Target.read bs with
    | .ok t => some (.path t)
    | .error _ => Option.none
  else match Scheme.split? bs with
    | some (scheme, rest) => readFull? scheme rest
    | Option.none => (Authority.ofBytes? bs).map .server

def ofText? (s : String) : Option Uri := read? (utf8 s)

end Uri

end SigV4.Http
