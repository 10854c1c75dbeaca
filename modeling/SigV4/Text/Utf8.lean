import SigV4.Bytes
import SigV4.Error
/-!
# Reading UTF-8

A byte string is cut into pieces: well-formed characters, and broken pieces, each
the longest start of a character that stands at its place, or a single byte. `decode?`
takes well-formed strings only, and `decodeLossy` puts U+FFFD in place of
every broken piece.
-/

namespace SigV4.Utf8

/-- For a lead byte: the least and greatest second byte, and how many continuation
bytes follow that one. -/
def lead? (b : UInt8) : Option (UInt8 × UInt8 × Nat) :=
  if 0xC2 ≤ b && b ≤ 0xDF then some (0x80, 0xBF, 0)
  else if b == 0xE0 then some (0xA0, 0xBF, 1)
  else if b == 0xED then some (0x80, 0x9F, 1)
  else if 0xE1 ≤ b && b ≤ 0xEF then some (0x80, 0xBF, 1)
  else if b == 0xF0 then some (0x90, 0xBF, 2)
  else if 0xF1 ≤ b && b ≤ 0xF3 then some (0x80, 0xBF, 2)
  else if b == 0xF4 then some (0x80, 0x8F, 2)
  else none

def isContinuation (b : UInt8) : Bool := 0x80 ≤ b && b ≤ 0xBF

inductive Verdict where
  | character
  | broken
  /-- The input ends inside a character that is well formed so far. -/
  | cut
deriving DecidableEq, Repr

/-- How many of `n` continuation bytes stand at the front, and what that makes of the character. -/
def continuation : Nat → Bytes → Verdict × Nat
  | 0, _ => (.character, 0)
  | _ + 1, [] => (.cut, 0)
  | n + 1, b :: bs =>
    if isContinuation b then ((continuation n bs).1, (continuation n bs).2 + 1) else (.broken, 0)

/-- What the piece that starts with `b` is, and how many bytes of `bs` belong to it. -/
def piece (b : UInt8) (bs : Bytes) : Verdict × Nat :=
  if b < 0x80 then (.character, 0)
  else match lead? b, bs with
    | none, _ => (.broken, 0)
    | some _, [] => (.cut, 0)
    | some (low, high, more), c :: cs =>
      if low ≤ c && c ≤ high then ((continuation more cs).1, (continuation more cs).2 + 1)
      else (.broken, 0)

/-- The pieces of a byte string, in order. -/
def pieces : Bytes → List (Verdict × Bytes)
  | [] => []
  | b :: bs =>
    ((piece b bs).1, b :: bs.take (piece b bs).2) :: pieces (bs.drop (piece b bs).2)
termination_by bs => bs.length
decreasing_by simp only [List.length_drop, List.length_cons]; omega

def isValid (bs : Bytes) : Bool := (pieces bs).all (·.1 == .character)

/-- The scalar value of a well-formed character. -/
def scalar : Bytes → Nat
  | [a] => a.toNat
  | [a, b] => (a.toNat % 0x20) * 0x40 + b.toNat % 0x40
  | [a, b, c] => ((a.toNat % 0x10) * 0x40 + b.toNat % 0x40) * 0x40 + c.toNat % 0x40
  | [a, b, c, d] =>
    (((a.toNat % 0x08) * 0x40 + b.toNat % 0x40) * 0x40 + c.toNat % 0x40) * 0x40 + d.toNat % 0x40
  | _ => 0

def replacement : Char := Char.ofNat 0xFFFD

/-- The text, with U+FFFD in place of every broken piece. -/
def decodeLossy (bs : Bytes) : String :=
  String.ofList ((pieces bs).map fun p =>
    if p.1 == .character then Char.ofNat (scalar p.2) else replacement)

def decode? (bs : Bytes) : Option String :=
  if isValid bs then some (decodeLossy bs) else none

/-- The bytes of a text that `decodeLossy` reads, without decoding it. -/
def repair (bs : Bytes) : Bytes :=
  (pieces bs).flatMap fun p => if p.1 == .character then p.2 else [0xEF, 0xBF, 0xBD]

/-- Where a byte string first fails to be UTF-8: the offset, and the length of the broken
piece unless the string ends in it. -/
structure Fault where
  offset : Nat
  length : Option Nat
deriving DecidableEq, Repr

def fault? (bs : Bytes) : Option Fault :=
  let good := (pieces bs).takeWhile (·.1 == .character)
  match (pieces bs).dropWhile (·.1 == .character) with
  | [] => none
  | (v, bad) :: _ =>
    some ⟨(good.flatMap (·.2)).length, if v == .cut then none else some bad.length⟩

def Fault.message (f : Fault) : String :=
  match f.length with
  | some n => s!"invalid utf-8 sequence of {n} bytes from index {f.offset}"
  | none => s!"incomplete utf-8 byte sequence from index {f.offset}"

def Fault.error (f : Fault) : Error := .ofMessage f.message

end SigV4.Utf8
