import SigV4.Error
/-!
# Points in time

A point in time counts seconds since 1970-01-01T00:00:00Z. The nanoseconds of a leap
second reach past one second: `:60` is `:59` with a whole second more.
-/

namespace SigV4

structure Time where
  seconds : Int
  nanos : Nat := 0
deriving DecidableEq, Repr

namespace Time

/-- Not later than. -/
def notAfter (s t : Time) : Bool :=
  s.seconds < t.seconds || (s.seconds == t.seconds && s.nanos ≤ t.nanos)

/-- A positive number of seconds later; a leap second counts as the second before it. -/
def plusSeconds (t : Time) (n : Int) : Time := ⟨t.seconds + n, t.nanos % 1000000000⟩

end Time

end SigV4
