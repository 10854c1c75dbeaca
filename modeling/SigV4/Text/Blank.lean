/-!
# Blank and empty text

Blank is Unicode's White_Space property. `trim` takes blanks off both ends of a
text, and `words` gives the runs of other characters in it. Some small questions about
text stand here too.
-/

namespace SigV4.Text

def isBlank (c : Char) : Bool :=
  let n := c.toNat
  (9 ≤ n && n ≤ 13) || n == 0x20 || n == 0x85 || n == 0xA0 || n == 0x1680
    || (0x2000 ≤ n && n ≤ 0x200A) || n == 0x2028 || n == 0x2029 || n == 0x202F || n == 0x205F
    || n == 0x3000

/-- The blanks at the end of a list of characters dropped. -/
def dropBlankEnd (cs : List Char) : List Char := (cs.reverse.dropWhile isBlank).reverse

/-- The blanks at both ends of a list of characters dropped. -/
def strip (cs : List Char) : List Char := dropBlankEnd (cs.dropWhile isBlank)

def trim (s : String) : String := String.ofList (strip s.toList)

/-- The runs of characters that are not blank. -/
def wordsOf : List Char → List (List Char)
  | [] => []
  | c :: cs =>
    if isBlank c then wordsOf cs
    else match cs with
      | [] => [[c]]
      | d :: _ =>
        if isBlank d then [c] :: wordsOf cs
        else match wordsOf cs with
          | w :: ws => (c :: w) :: ws
          | [] => [[c]]

def words (s : String) : List String := (wordsOf s.toList).map String.ofList

def isBlankText (s : String) : Bool := s.toList.all isBlank

/-- Equal up to the case of ASCII letters. -/
def equalsIgnoringCase (s t : String) : Bool :=
  s.toList.map Char.toLower == t.toList.map Char.toLower

/-- `some s` unless `s` is empty. -/
def nonEmpty? (s : String) : Option String := if s.isEmpty then none else some s

/-- The slashes at the end of `s` dropped. -/
def withoutSlashes (s : String) : String :=
  String.ofList (s.toList.reverse.dropWhile (· == '/')).reverse

/-- Whether `part` stands somewhere in the characters. -/
def occursIn (part : List Char) : List Char → Bool
  | [] => part.isEmpty
  | c :: cs => part.isPrefixOf (c :: cs) || occursIn part cs

def contains (part s : String) : Bool := occursIn part.toList s.toList

end SigV4.Text
