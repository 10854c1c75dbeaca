import SigV4.Bytes
/-!
# Redaction

What a log may show of a secret: nothing of a short one, three bytes at each end of a
long one, and never a part of a character.
-/

namespace SigV4.Redaction

/-- Fewer bytes than this are not shown at all. -/
def shortest : Nat := 12

/-- The first characters that make up exactly `n` bytes of UTF-8. -/
def leading : Nat → List Char → Option (List Char)
  | 0, _ => some []
  | _ + 1, [] => none
  | n + 1, c :: cs =>
    if c.utf8Size ≤ n + 1 then (leading (n + 1 - c.utf8Size) cs).map (c :: ·) else none
termination_by n _ => n
decreasing_by have := c.utf8Size_pos; omega

/-- The last characters that make up exactly `n` bytes of UTF-8. -/
def trailing (n : Nat) (cs : List Char) : Option (List Char) :=
  (leading n cs.reverse).map List.reverse

def mask : String := "***"

def redact (s : String) : String :=
  if s.isEmpty then "EMPTY"
  else if s.utf8ByteSize < shortest then mask
  else match leading 3 s.toList, trailing 3 s.toList with
    | some front, some back => String.ofList front ++ mask ++ String.ofList back
    | _, _ => mask

/-- An absent secret shows as an empty one. -/
def redactOption (s : Option String) : String := redact (s.getD "")

end SigV4.Redaction
