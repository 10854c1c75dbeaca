import SigV4.Http.Token
import SigV4.Error
/-!
# Header fields

Field names are lower-case tokens and field values hold no control but the tab. A header is
the list of its fields in the order of arrival; a name may occur several times. `names` gives
every name once in ascending order, and `values` what stands under one of them.
-/

namespace SigV4.Http

/-- Names longer than this are refused. -/
def longestName : Nat := 65535

structure FieldName where
  bytes : Bytes
  valid : (!bytes.isEmpty && bytes.all (fun b => isTokenByte b && !Bytes.isUpper b)) = true
deriving DecidableEq

namespace FieldName

/-- Upper-case letters are taken as lower-case ones. -/
def ofBytes? (bs : Bytes) : Option FieldName :=
  let name := bs.map Bytes.lower
  if h : (!name.isEmpty && name.all (fun b => isTokenByte b && !Bytes.isUpper b)) = true then
    if name.length ≤ longestName then some ⟨name, h⟩ else none
  else none

/-- What a name that is none gives. -/
def invalid : Error := ⟨.requestInvalid, "invalid HTTP header name", [], none⟩

def authorization : FieldName := ⟨utf8 "authorization", by decide⟩
def contentLength : FieldName := ⟨utf8 "content-length", by decide⟩
def contentType : FieldName := ⟨utf8 "content-type", by decide⟩
def expect : FieldName := ⟨utf8 "expect", by decide⟩
def host : FieldName := ⟨utf8 "host", by decide⟩
def userAgent : FieldName := ⟨utf8 "user-agent", by decide⟩
def amzContentSha256 : FieldName := ⟨utf8 "x-amz-content-sha256", by decide⟩
def amzDate : FieldName := ⟨utf8 "x-amz-date", by decide⟩
def amzSecurityToken : FieldName := ⟨utf8 "x-amz-security-token", by decide⟩
def amznTraceId : FieldName := ⟨utf8 "x-amzn-trace-id", by decide⟩
def metadataToken : FieldName := ⟨utf8 "x-aws-ec2-metadata-token", by decide⟩
def metadataTokenTtl : FieldName := ⟨utf8 "x-aws-ec2-metadata-token-ttl-seconds", by decide⟩

end FieldName

def isValueByte (b : UInt8) : Bool := (0x20 ≤ b && b != 0x7F) || b == 0x09

/-- The value bytes that are ASCII. -/
def isTextByte (b : UInt8) : Bool := (0x20 ≤ b && b < 0x7F) || b == 0x09

inductive ValueFault where
  /-- The bytes cannot be a value. -/
  | invalid
  /-- The value is not all ASCII. -/
  | notText
deriving DecidableEq, Repr

namespace ValueFault

def message : ValueFault → String
  | invalid => "failed to parse header value"
  | notText => "failed to convert header to a str"

def error (f : ValueFault) : Error := ⟨.requestInvalid, f.message, [], none⟩

end ValueFault

structure FieldValue where
  bytes : Bytes
  valid : bytes.all isValueByte = true
deriving DecidableEq

theorem isValueByte_hexDigits (b : UInt8) :
    isValueByte (Hex.lowerDigit (b >>> 4)) = true ∧
      isValueByte (Hex.lowerDigit (b &&& 0x0F)) = true :=
  have all : ∀ n : Fin 256, isValueByte (Hex.lowerDigit (UInt8.ofFin n >>> 4)) = true ∧
      isValueByte (Hex.lowerDigit (UInt8.ofFin n &&& 0x0F)) = true := by decide +kernel
  all b.toFin

namespace FieldValue

def ofBytes? (bs : Bytes) : Option FieldValue :=
  if h : bs.all isValueByte = true then some ⟨bs, h⟩ else none

/-- A hash in hexadecimal digits. -/
def hex (digest : Bytes) : FieldValue :=
  ⟨Hex.encode digest, by
    simp only [Hex.encode, List.all_flatMap, List.all_cons, List.all_nil, Bool.and_true,
      List.all_eq_true, Bool.and_eq_true]
    exact fun b _ => isValueByte_hexDigits b⟩

/-- The media type of a form. -/
def form : FieldValue := ⟨utf8 "application/x-www-form-urlencoded", by decide⟩

/-- The value as text, if it is ASCII. -/
def text? (v : FieldValue) : Option Bytes := if v.bytes.all isTextByte then some v.bytes else none

/-- Why bytes cannot be a value that is read as text. -/
def textFault? (bs : Bytes) : Option ValueFault :=
  match ofBytes? bs with
  | none => some .invalid
  | some v => if v.text?.isNone then some .notText else none

def isPadding (b : UInt8) : Bool := b == 0x20 || b == 0x09

theorem all_dropWhile {p q : UInt8 → Bool} {bs : Bytes} (h : bs.all p = true) :
    (bs.dropWhile q).all p = true :=
  List.all_eq_true.2 fun b hb => List.all_eq_true.1 h b (List.dropWhile_sublist q |>.subset hb)

/-- Spaces and tabs taken off both ends. -/
def trim (v : FieldValue) : FieldValue :=
  ⟨((v.bytes.dropWhile isPadding).reverse.dropWhile isPadding).reverse, by
    rw [List.all_reverse]
    exact all_dropWhile (by rw [List.all_reverse]; exact all_dropWhile v.valid)⟩

end FieldValue

structure Header where
  fields : List (FieldName × FieldValue) := []
deriving DecidableEq

namespace Header

/-- The values under a name, in order of arrival. -/
def values (h : Header) (n : FieldName) : List FieldValue :=
  h.fields.filterMap fun f => if f.1 = n then some f.2 else none

def first? (h : Header) (n : FieldName) : Option FieldValue := (h.values n).head?

def contains (h : Header) (n : FieldName) : Bool := h.fields.any (·.1 = n)

def append (h : Header) (n : FieldName) (v : FieldValue) : Header := ⟨h.fields ++ [(n, v)]⟩

def erase (h : Header) (n : FieldName) : Header := ⟨h.fields.filter (·.1 ≠ n)⟩

/-- The only value under a name. -/
def set (h : Header) (n : FieldName) (v : FieldValue) : Header := (h.erase n).append n v

def mapValues (f : FieldValue → FieldValue) (h : Header) : Header :=
  ⟨h.fields.map fun p => (p.1, f p.2)⟩

/-- A name put into an ascending list that it may already be in. -/
def insertName (n : FieldName) : List FieldName → List FieldName
  | [] => [n]
  | m :: ms =>
    if n.bytes < m.bytes then n :: m :: ms
    else if n = m then m :: ms
    else m :: insertName n ms

/-- The names that occur, each once, in ascending order. -/
def names (h : Header) : List FieldName := h.fields.foldr (fun f ns => insertName f.1 ns) []

/-- The fields by ascending name; values of one name stay in order of arrival. -/
def sorted (h : Header) : List (FieldName × FieldValue) :=
  h.names.flatMap fun n => (h.values n).map (n, ·)

end Header

end SigV4.Http
