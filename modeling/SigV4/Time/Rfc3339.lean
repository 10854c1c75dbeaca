import SigV4.Time
import SigV4.Time.Calendar
/-!
# Reading RFC 3339

The date and the time of day are separated by `T`, `t` or a blank, the offset is `Z`, `z` or
signed hours and minutes (U+2212 is a minus sign too), a fraction may have any number of
digits, of which nine count, and second 60 is a leap second. Every reader takes what it reads
off the front of the characters.
-/

namespace SigV4.Rfc3339

def digitValue? (c : Char) : Option Nat :=
  if '0' ≤ c ∧ c ≤ '9' then some (c.toNat - '0'.toNat) else none

/-- Exactly `n` digits, read on from the number `acc`. -/
def number (n acc : Nat) (cs : List Char) : Option (Nat × List Char) :=
  match n, cs with
  | 0, cs => some (acc, cs)
  | _ + 1, [] => none
  | n + 1, c :: cs => do number n (acc * 10 + (← digitValue? c)) cs

def char (c : Char) : List Char → Option (List Char)
  | [] => none
  | d :: cs => if d = c then some cs else none

def date (cs : List Char) : Option (Calendar.Date × List Char) := do
  let (year, cs) ← number 4 0 cs
  let (month, cs) ← number 2 0 (← char '-' cs)
  let (day, cs) ← number 2 0 (← char '-' cs)
  if Calendar.Date.isValid ⟨year, month, day⟩ then some (⟨year, month, day⟩, cs) else none

def separator : List Char → Option (List Char)
  | c :: cs => if c = 'T' ∨ c = 't' ∨ c = ' ' then some cs else none
  | [] => none

/-- Nanoseconds, when a point stands at the front; digits after the ninth do not count. -/
def fraction : List Char → Option (Nat × List Char)
  | '.' :: cs =>
    let digits := cs.takeWhile fun c => (digitValue? c).isSome
    let first := (digits.take 9).filterMap digitValue?
    if digits.isEmpty then none
    else some ((first.rightpad 9 0).foldl (· * 10 + ·) 0,
      cs.dropWhile fun c => (digitValue? c).isSome)
  | cs => some (0, cs)

/-- Seconds since midnight and nanoseconds. -/
def timeOfDay (cs : List Char) : Option ((Nat × Nat) × List Char) := do
  let (hour, cs) ← number 2 0 cs
  let (minute, cs) ← number 2 0 (← char ':' cs)
  let (second, cs) ← number 2 0 (← char ':' cs)
  let (nanos, cs) ← fraction cs
  if hour ≤ 23 ∧ minute ≤ 59 ∧ second ≤ 60 then
    let leap := if second = 60 then 1 else 0
    some ((hour * 3600 + minute * 60 + second - leap, nanos + leap * 1000000000), cs)
  else none

def sign? (c : Char) : Option Int :=
  if c = '+' then some 1
  else if c = '-' ∨ c = Char.ofNat 0x2212 then some (-1)
  else none

/-- Seconds east of Greenwich. -/
def offset : List Char → Option (Int × List Char)
  | [] => none
  | c :: cs =>
    if c = 'Z' ∨ c = 'z' then some (0, cs)
    else do
      let sign ← sign? c
      let (hours, cs) ← number 2 0 cs
      let (minutes, cs) ← number 2 0 (← char ':' cs)
      if hours ≤ 23 ∧ minutes ≤ 59 then some (sign * (hours * 3600 + minutes * 60), cs) else none

/-- The point in time that the whole text names. -/
def read? (s : String) : Option Time := do
  let (day, cs) ← date s.toList
  let ((seconds, nanos), cs) ← timeOfDay (← separator cs)
  let (east, cs) ← offset cs
  if cs.isEmpty then some ⟨Calendar.dayNumber day * 86400 + seconds - east, nanos⟩ else none

def parse (s : String) : Except Error Time :=
  match read? s with
  | some t => .ok t
  | none => .error ⟨.unexpected, "failed to parse rfc3339 time", [s!"value: {s}"], none⟩

end SigV4.Rfc3339
