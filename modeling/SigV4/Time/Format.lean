import SigV4.Time
import SigV4.Time.Calendar
/-!
# Time texts

The three texts a signature and a credential need: the date, the basic and the extended
ISO 8601 form, all in UTC and to the second. A year outside 0 to 9999 has a sign.
-/

namespace SigV4.Time

/-- Decimal digits, zeros in front up to `width` characters. -/
def padded (width n : Nat) : String :=
  let digits := (Nat.toDigits 10 n)
  String.ofList (List.replicate (width - digits.length) '0' ++ digits)

def yearText (y : Int) : String :=
  if 0 ≤ y ∧ y ≤ 9999 then padded 4 y.toNat
  else (if y < 0 then "-" else "+") ++ padded 4 y.natAbs

def date (t : Time) : Calendar.Date := Calendar.ofDayNumber (t.seconds / 86400)

def secondOfDay (t : Time) : Nat := (t.seconds % 86400).toNat

/-- Hour, minute and second, which is 60 in a leap second. -/
def clock (t : Time) : Nat × Nat × Nat :=
  (t.secondOfDay / 3600, t.secondOfDay / 60 % 60, t.secondOfDay % 60 + t.nanos / 1000000000)

/-- Year, month and day with `dash` between them. -/
def dateText (dash : String) (t : Time) : String :=
  let d := t.date
  yearText d.year ++ dash ++ padded 2 d.month ++ dash ++ padded 2 d.day

def clockText (colon : String) (t : Time) : String :=
  let (h, m, s) := t.clock
  padded 2 h ++ colon ++ padded 2 m ++ colon ++ padded 2 s

/-- For instance `20240501`. -/
def formatDate (t : Time) : String := t.dateText ""

/-- For instance `20240501T102030Z`. -/
def formatIso8601 (t : Time) : String := t.dateText "" ++ "T" ++ t.clockText "" ++ "Z"

/-- For instance `2024-05-01T10:20:30Z`. -/
def formatRfc3339 (t : Time) : String := t.dateText "-" ++ "T" ++ t.clockText ":" ++ "Z"

/-- The fraction of the second in three, six or nine digits, nothing when it is zero. -/
def fractionText (t : Time) : String :=
  let n := t.nanos % 1000000000
  if n == 0 then ""
  else if n % 1000000 == 0 then "." ++ padded 3 (n / 1000000)
  else if n % 1000 == 0 then "." ++ padded 6 (n / 1000)
  else "." ++ padded 9 n

/-- The extended form with the fraction of the second. -/
def formatPrecise (t : Time) : String :=
  t.dateText "-" ++ "T" ++ t.clockText ":" ++ t.fractionText ++ "Z"

end SigV4.Time
