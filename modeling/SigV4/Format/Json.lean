import SigV4.Text.Utf8
/-!
# JSON documents

A document is read into a tree that keeps numbers and strings as they were written, so that a
member nobody asks for needs to be well formed and no more. A record is an object
with known members, each at most once, or an array of their values in order.
-/

namespace SigV4.Json

/-- A part of a string: a byte, or a UTF-16 unit that was escaped. -/
inductive Piece where
  | byte (b : UInt8)
  | unit (n : Nat)
deriving DecidableEq, Repr

inductive Value where
  | null
  | bool (b : Bool)
  | number (literal : Bytes)
  | string (pieces : List Piece)
  | array (items : List Value)
  | object (members : List (List Piece × Value))

/-- What is left when something was read off the front of `bs`. -/
abbrev Left (bs : Bytes) := { rest : Bytes // rest.length < bs.length }

/-- The same rest, seen from further in front. -/
def Left.within {bs cs : Bytes} (r : Left cs) (h : cs.length ≤ bs.length) : Left bs :=
  ⟨r.1, Nat.lt_of_lt_of_le r.2 h⟩

def isBlank (b : UInt8) : Bool := b == 0x20 || b == 0x0A || b == 0x09 || b == 0x0D

def skip (bs : Bytes) : Bytes := bs.dropWhile isBlank

theorem length_skip_le (bs : Bytes) : (skip bs).length ≤ bs.length :=
  (List.dropWhile_sublist _).length_le

/-! ## Strings -/

/-- The byte that a letter behind a backslash stands for. -/
def unescape? (b : UInt8) : Option UInt8 :=
  if b == 0x22 || b == 0x5C || b == 0x2F then some b
  else if b == 0x62 then some 0x08
  else if b == 0x66 then some 0x0C
  else if b == 0x6E then some 0x0A
  else if b == 0x72 then some 0x0D
  else if b == 0x74 then some 0x09
  else none

def codeUnit? (a b c d : UInt8) : Option Nat := do
  let digits ← [a, b, c, d].mapM Hex.value?
  some (digits.foldl (fun n h => n * 16 + h.toNat) 0)

/-- The pieces up to the closing quote. -/
def string : (bs : Bytes) → Option (List Piece × Left bs)
  | [] => none
  | 0x22 :: rest => some ([], ⟨rest, by simp⟩)
  | 0x5C :: 0x75 :: a :: b :: c :: d :: rest => do
    let n ← codeUnit? a b c d
    let (pieces, r) ← string rest
    some (.unit n :: pieces, r.within (by simp; omega))
  | 0x5C :: e :: rest => do
    let b ← unescape? e
    let (pieces, r) ← string rest
    some (.byte b :: pieces, r.within (by simp; omega))
  | b :: rest =>
    if b < 0x20 || b == 0x5C then none
    else do
      let (pieces, r) ← string rest
      some (.byte b :: pieces, r.within (by simp))

def highSurrogate (n : Nat) : Bool := 0xD800 ≤ n && n < 0xDC00
def lowSurrogate (n : Nat) : Bool := 0xDC00 ≤ n && n < 0xE000

/-- Surrogates count in pairs only. -/
def bytes? : List Piece → Option Bytes
  | [] => some []
  | .byte b :: ps => (b :: ·) <$> bytes? ps
  | .unit n :: .unit m :: ps =>
    if highSurrogate n then
      if lowSurrogate m then
        (String.utf8EncodeChar (Char.ofNat (0x10000 + (n - 0xD800) * 0x400 + (m - 0xDC00))) ++ ·)
          <$> bytes? ps
      else none
    else if lowSurrogate n then none
    else (String.utf8EncodeChar (Char.ofNat n) ++ ·) <$> bytes? (.unit m :: ps)
  | .unit n :: ps =>
    if highSurrogate n || lowSurrogate n then none
    else (String.utf8EncodeChar (Char.ofNat n) ++ ·) <$> bytes? ps

def decode? (ps : List Piece) : Option String := bytes? ps >>= Utf8.decode?

/-! ## Numbers -/

def isNumberByte (b : UInt8) : Bool :=
  Bytes.isDigit b || b == 0x2D || b == 0x2B || b == 0x2E || b == 0x45 || b == 0x65

/-- Digits, at least one of them. -/
def isDigits (bs : Bytes) : Bool := !bs.isEmpty && bs.all Bytes.isDigit

/-- Digits without a zero in front. -/
def isInteger (bs : Bytes) : Bool := isDigits bs && (bs.length == 1 || bs.head? != some 0x30)

def isExponent : Bytes → Bool
  | [] => true
  | _ :: 0x2B :: ds => isDigits ds
  | _ :: 0x2D :: ds => isDigits ds
  | _ :: ds => isDigits ds

def isFraction : Bytes → Bool
  | 0x2E :: ds => isDigits ds
  | ds => ds.isEmpty

/-- An integer with an optional sign, fraction and exponent. -/
def isNumber (bs : Bytes) : Bool :=
  let bs := if bs.head? == some 0x2D then bs.tail else bs
  let isMark (b : UInt8) : Bool := b == 0x45 || b == 0x65
  let mantissa := bs.takeWhile (!isMark ·)
  isInteger (mantissa.takeWhile (· != 0x2E)) && isFraction (mantissa.dropWhile (· != 0x2E))
    && isExponent (bs.dropWhile (!isMark ·))

/-! ## Documents -/

/-- What a word stands for. -/
def word? (bs : Bytes) : Option Value :=
  if bs = utf8 "null" then some .null
  else if bs = utf8 "true" then some (.bool true)
  else if bs = utf8 "false" then some (.bool false)
  else if isNumber bs then some (.number bs)
  else none

def isWordByte (b : UInt8) : Bool := Bytes.isAlphanumeric b || isNumberByte b

/-- A word or number that starts with `b`. -/
def word (b : UInt8) (bs : Bytes) : Option (Value × Left (b :: bs)) :=
  (word? (b :: bs.takeWhile isWordByte)).map fun v =>
    (v, ⟨bs.dropWhile isWordByte, Nat.lt_succ_of_le (List.dropWhile_sublist _).length_le⟩)

mutual

/-- The value behind some blanks. -/
def value (bs : Bytes) : Option (Value × Left bs) :=
  match h : skip bs with
  | [] => none
  | b :: rest =>
    have le : (b :: rest).length ≤ bs.length := h ▸ length_skip_le bs
    if b == 0x22 then do
      let (pieces, r) ← string rest
      some (.string pieces, r.within (Nat.le_of_succ_le le))
    else if b == 0x5B then
      match h' : skip rest with
      | 0x5D :: rest' =>
        some (.array [], ⟨rest', by have := length_skip_le rest; simp [h'] at *; omega⟩)
      | _ => do
        let (items, r) ← elements rest
        some (.array items, r.within (Nat.le_of_succ_le le))
    else if b == 0x7B then
      match h' : skip rest with
      | 0x7D :: rest' =>
        some (.object [], ⟨rest', by have := length_skip_le rest; simp [h'] at *; omega⟩)
      | _ => do
        let (members, r) ← members rest
        some (.object members, r.within (Nat.le_of_succ_le le))
    else do
      let (v, r) ← word b rest
      some (v, r.within le)
termination_by 2 * bs.length
decreasing_by all_goals simp only [List.length_cons] at le; omega

/-- Values separated by commas, and the bracket that ends them. -/
def elements (bs : Bytes) : Option (List Value × Left bs) :=
  match value bs with
  | none => none
  | some (v, r) =>
    match h : skip r.1 with
    | 0x5D :: rest =>
      some ([v], ⟨rest, by have := length_skip_le r.1; have := r.2; simp [h] at *; omega⟩)
    | 0x2C :: rest => do
      have : rest.length < bs.length := by
        have := length_skip_le r.1; have := r.2; simp [h] at *; omega
      let (vs, s) ← elements rest
      some (v :: vs, s.within (Nat.le_of_lt this))
    | _ => none
termination_by 2 * bs.length + 1
decreasing_by all_goals omega

/-- Members separated by commas, and the brace that ends them. -/
def members (bs : Bytes) : Option (List (List Piece × Value) × Left bs) :=
  match h : skip bs with
  | 0x22 :: rest =>
    match string rest with
    | none => none
    | some (key, r) =>
      match h' : skip r.1 with
      | 0x3A :: rest' =>
        have lt : rest'.length < bs.length := by
          have := length_skip_le bs; have := length_skip_le r.1; have := r.2
          simp [h, h'] at *; omega
        match value rest' with
        | none => none
        | some (v, s) =>
          match h'' : skip s.1 with
          | 0x7D :: tail =>
            some ([(key, v)], ⟨tail, by
              have := length_skip_le s.1; have := s.2; simp [h''] at *; omega⟩)
          | 0x2C :: tail => do
            have : tail.length < bs.length := by
              have := length_skip_le s.1; have := s.2; simp [h''] at *; omega
            let (more, t) ← members tail
            some ((key, v) :: more, t.within (Nat.le_of_lt this))
          | _ => none
      | _ => none
  | _ => none
termination_by 2 * bs.length + 1
decreasing_by all_goals omega

end

/-- The tree of a whole document. -/
def read? (bs : Bytes) : Option Value :=
  (value bs).bind fun (v, r) => if (skip r.1).isEmpty then some v else none

/-! ## Records -/

def Value.text? : Value → Option String
  | .string pieces => decode? pieces
  | _ => none

/-- A text or null. -/
def Value.optionalText? : Value → Option (Option String)
  | .null => some none
  | v => v.text?.map some

/-- A number written in digits alone. -/
def Value.nat? : Value → Option Nat
  | .number ds =>
    if isInteger ds then some (ds.foldl (fun n d => n * 10 + (d - 0x30).toNat) 0) else none
  | _ => none

/-- The values that stand under the names, in any order and with other members between them, or
one after the other in an array of at least `least` items. -/
def record? (names : List String) (least : Nat) : Value → Option (List (String × Value))
  | .object members => do
    let members ← members.mapM fun m => (decode? m.1).map (·, m.2)
    let known := members.filter (names.contains ·.1)
    if (known.map (·.1)).Nodup then some known else none
  | .array items =>
    if least ≤ items.length ∧ items.length ≤ names.length then some (names.zip items) else none
  | _ => none

/-- A member that has to be a text. -/
def requiredText? (record : List (String × Value)) (name : String) : Option String :=
  record.lookup name >>= Value.text?

/-- A member that may be absent or null. -/
def optionalText? (record : List (String × Value)) (name : String) : Option (Option String) :=
  ((record.lookup name).map Value.optionalText?).getD (some none)

/-- A member that is `""` when absent. -/
def defaultText? (record : List (String × Value)) (name : String) : Option String :=
  ((record.lookup name).map Value.text?).getD (some "")

end SigV4.Json
