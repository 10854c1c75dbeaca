import SigV4.Bytes
/-!
# Tokens and methods

A token is a name in a message head: letters, digits and fifteen marks. Methods are
tokens, and field names are tokens in lower case.
-/

namespace SigV4.Http

/-- The marks that RFC 9110 allows in a token. -/
def tokenMarks : Bytes := utf8 "!#$%&'*+-.^_`|~"

def isTokenByte (b : UInt8) : Bool := Bytes.isAlphanumeric b || tokenMarks.contains b

structure Method where
  token : Bytes
  valid : (!token.isEmpty && token.all isTokenByte) = true
deriving DecidableEq

namespace Method

def ofBytes? (bs : Bytes) : Option Method :=
  if h : (!bs.isEmpty && bs.all isTokenByte) = true then some ⟨bs, h⟩ else none

def get : Method := ⟨utf8 "GET", by decide⟩
def put : Method := ⟨utf8 "PUT", by decide⟩

end Method

end SigV4.Http
