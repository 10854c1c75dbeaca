import SigV4.Text.Blank
/-!
# INI files

A file of sections, each a header `[name]` and the entries below it. A key runs up to `=` or
`:`, over line ends if need be; a value may start with quoted parts and ends with its line; a
backslash escapes a character anywhere. A comment fills a whole line and starts in its first
column; headers and keys may be indented. Of sections with one name the first counts, and of
entries with one key the last.
-/

namespace SigV4.Ini

/-- What is left when something was read off the front of `cs`. -/
abbrev Left (cs : List Char) := { rest : List Char // rest.length ≤ cs.length }

/-! ## Escapes -/

/-- What a letter behind a backslash stands for; other characters stand for themselves. -/
def unescape (c : Char) : Char :=
  if c = '0' then '\x00'
  else if c = 'a' then '\x07'
  else if c = 'b' then '\x08'
  else if c = 't' then '\t'
  else if c = 'r' then '\r'
  else if c = 'n' then '\n'
  else c

def hexDigit? (c : Char) : Option Nat :=
  if '0' ≤ c ∧ c ≤ '9' then some (c.toNat - 0x30)
  else if 'a' ≤ c ∧ c ≤ 'f' then some (c.toNat - 0x57)
  else if 'A' ≤ c ∧ c ≤ 'F' then some (c.toNat - 0x37)
  else none

/-- The character with a code point of four digits; a plus sign may replace the first. -/
def codePoint? (cs : List Char) : Option Char := do
  if cs.length ≠ 4 then none
  let digits ← (if cs.head? = some '+' then cs.tail else cs).mapM hexDigit?
  let n := digits.foldl (fun n d => n * 16 + d) 0
  if n.isValidChar then some (Char.ofNat n) else none

/-- Where the reading of a code point of `n` characters is given up: at the last of them, or
behind a backslash that does not join two lines. -/
def giveUp : Nat → List Char → List Char
  | n + 2, '\\' :: '\n' :: cs => giveUp (n + 1) cs
  | _, '\\' :: cs => cs
  | n + 2, _ :: cs => giveUp (n + 1) cs
  | _, cs => cs

theorem length_giveUp_le (n : Nat) (cs : List Char) : (giveUp n cs).length ≤ cs.length := by
  fun_induction giveUp n cs <;> simp_all <;> omega

/-- The characters that one character `c` of the file gives, or an escape that it starts; fails at
the place where an escape goes wrong. -/
def unit (c : Char) (cs : List Char) : Except (Left cs) (List Char × Left cs) :=
  if c ≠ '\\' then .ok ([c], ⟨cs, Nat.le_refl _⟩)
  else match cs with
    | [] => .ok (['\\'], ⟨[], Nat.le_refl _⟩)
    | d :: rest =>
      if d = '\n' then .ok ([], ⟨rest, by simp⟩)
      else if d ≠ 'x' then .ok ([unescape d], ⟨rest, by simp⟩)
      else match codePoint? (rest.take 4) with
        | some e => .ok ([e], ⟨rest.drop 4, Nat.le_succ_of_le (List.drop_sublist 4 rest).length_le⟩)
        | none => .error ⟨giveUp 4 rest, Nat.le_succ_of_le (length_giveUp_le 4 rest)⟩

/-- The text before the first character in `stops`, which is left; it may also end with the file
if `mayEnd` says so. -/
def textUntil (stops : List Char) (mayEnd : Bool) (cs : List Char) :
    Except (Left cs) (List Char × Left cs) :=
  match cs with
  | [] => if mayEnd then .ok ([], ⟨[], Nat.le_refl _⟩) else .error ⟨[], Nat.le_refl _⟩
  | c :: rest =>
    if stops.contains c then .ok ([], ⟨c :: rest, Nat.le_refl _⟩)
    else match unit c rest with
      | .error r => .error ⟨r.1, Nat.le_succ_of_le r.2⟩
      | .ok (piece, r) =>
        match textUntil stops mayEnd r.1 with
        | .error s => .error ⟨s.1, Nat.le_succ_of_le (Nat.le_trans s.2 r.2)⟩
        | .ok (text, s) => .ok (piece ++ text, ⟨s.1, Nat.le_succ_of_le (Nat.le_trans s.2 r.2)⟩)
termination_by cs.length
decreasing_by exact Nat.lt_succ_of_le r.2

/-! ## Values -/

def isLineEnd (c : Char) : Bool := c == '\n' || c == '\r'

def isQuote (c : Char) : Bool := c == '"' || c == '\x27'

/-- Quoted parts that follow each other, then the rest of the line without the blanks
at its end, and without those at its start unless a quoted part stands there. -/
def parts (first : Bool) (cs : List Char) : Option (List Char × Left cs) :=
  match cs with
  | [] => some ([], ⟨[], Nat.le_refl _⟩)
  | c :: rest =>
    if isQuote c then
      match textUntil [c] false rest with
      | .error _ => none
      | .ok (part, r) =>
        match parts false (r.1.drop 1) with
        | none => none
        | some (text, s) =>
          some (part ++ text, ⟨s.1, by have := s.2; have := r.2; simp at *; omega⟩)
    else
      match textUntil ['\n', '\r'] true (c :: rest) with
      | .error _ => none
      | .ok (text, r) => some (if first then Text.strip text else Text.dropBlankEnd text, r)
termination_by cs.length
decreasing_by have := r.2; simp; omega

/-- The value that starts behind the sign that ends a key. -/
def value (cs : List Char) : Option (List Char × Left cs) :=
  (parts true (cs.dropWhile fun c => Text.isBlank c && !isLineEnd c)).map fun (text, r) =>
    (text, ⟨r.1, Nat.le_trans r.2 (List.dropWhile_sublist _).length_le⟩)

/-! ## Lines -/

/-- A place in a file: what is left, and whether a line starts there. -/
structure Place where
  fresh : Bool
  rest : List Char
deriving DecidableEq, Repr

def skipBlank (fresh : Bool) : List Char → Place
  | [] => ⟨fresh, []⟩
  | c :: cs => if Text.isBlank c then skipBlank (c == '\n') cs else ⟨fresh, c :: cs⟩

def isIndent (c : Char) : Bool := c == ' ' || c == '\t'

/-- Past the blanks up to a line that is indented. -/
def skipToLine (fresh : Bool) : List Char → Place
  | [] => ⟨fresh, []⟩
  | c :: cs =>
    if !Text.isBlank c then ⟨fresh, c :: cs⟩
    else if isLineEnd c && cs.head?.any isIndent then ⟨c == '\n', cs⟩
    else skipToLine (c == '\n') cs

theorem length_skipBlank_le (fresh : Bool) (cs : List Char) :
    (skipBlank fresh cs).rest.length ≤ cs.length := by
  fun_induction skipBlank fresh cs <;> simp_all; omega

theorem length_skipToLine_le (fresh : Bool) (cs : List Char) :
    (skipToLine fresh cs).rest.length ≤ cs.length := by
  fun_induction skipToLine fresh cs <;> simp_all; omega

/-! ## Files -/

inductive Item where
  | header (name : String)
  | entry (key value : String)
deriving DecidableEq, Repr

/-- A place further on. -/
abbrev Ahead (cs : List Char) := { p : Place // p.rest.length < cs.length }

/-- The same place, seen from further in front. -/
def Ahead.within {cs ds : List Char} (p : Ahead ds) (h : ds.length ≤ cs.length) : Ahead cs :=
  ⟨p.1, Nat.lt_of_lt_of_le p.2 h⟩

/-- Past the comment that starts with `c`. -/
def comment (c : Char) (cs : List Char) : Ahead (c :: cs) :=
  ⟨skipToLine true ((cs.dropWhile (· != '\n')).drop 1), by
    have a := length_skipToLine_le true ((cs.dropWhile (· != '\n')).drop 1)
    have b := (List.dropWhile_sublist (· != '\n') (l := cs)).length_le
    simp only [List.length_drop, List.length_cons] at *; omega⟩

/-- The header that starts with the bracket `c`. -/
def header? (c : Char) (cs : List Char) : Option (Item × Ahead (c :: cs)) :=
  match textUntil [']'] false cs with
  | .error _ => none
  | .ok (name, r) =>
    some (.header (String.ofList (Text.strip name)), ⟨skipToLine false (r.1.drop 1), by
      have := length_skipToLine_le false (r.1.drop 1)
      have := r.2
      simp only [List.length_drop, List.length_cons] at *; omega⟩)

def keySigns : List Char := ['=', ':']

/-- The entry whose key was read up to the sign in front of `cs`. -/
def assignment? (key cs : List Char) : Option (Item × Ahead cs) :=
  if (Text.strip key).isEmpty then none
  else match cs with
    | [] => none
    | _ :: rest =>
      (value rest).map fun (text, r) =>
        (.entry (String.ofList (Text.strip key)) (String.ofList text),
          ⟨skipToLine false r.1,
            Nat.lt_succ_of_le (Nat.le_trans (length_skipToLine_le false r.1) r.2)⟩)

/-- Where the reading goes on when there is no key between `cs` and `rest`. -/
def resume (cs rest : List Char) : Place :=
  skipBlank ((cs.take (cs.length - rest.length)).getLast? == some '\n') rest

/-- What starts with `c`, and the place behind it; nothing when that is neither a header nor an
entry nor a comment. An indented line may hold blanks only, and one without a key is passed over;
behind its indentation a comment sign is part of a key. -/
def step (fresh : Bool) (c : Char) (cs : List Char) : Option (Option Item × Ahead (c :: cs)) :=
  if c == ';' || c == '#' then
    if fresh then some (none, comment c cs) else none
  else if c == '[' then (header? c cs).map fun (item, p) => (some item, p)
  else if isLineEnd c then
    some (none, ⟨skipBlank (c == '\n') cs, Nat.lt_succ_of_le (length_skipBlank_le _ cs)⟩)
  else if isIndent c then
    have le : (cs.dropWhile isIndent).length ≤ cs.length := (List.dropWhile_sublist _).length_le
    match cs.dropWhile isIndent, le with
    | [], _ => some (none, ⟨⟨false, []⟩, by simp⟩)
    | d :: line, le =>
      if d == '[' then
        (header? d line).map fun (item, p) => (some item, p.within (Nat.le_succ_of_le le))
      else if isLineEnd d then some (none, ⟨⟨d == '\n', line⟩, by simp at *; omega⟩)
      else
        match textUntil keySigns false (d :: line) with
        | .error r => some (none, ⟨resume (d :: line) r.1, Nat.lt_succ_of_le
            (Nat.le_trans (length_skipBlank_le _ r.1) (Nat.le_trans r.2 le))⟩)
        | .ok (key, r) => (assignment? key r.1).map fun (item, p) =>
            (some item, p.within (Nat.le_succ_of_le (Nat.le_trans r.2 le)))
  else
    match textUntil keySigns false (c :: cs) with
    | .error _ => none
    | .ok (key, r) => (assignment? key r.1).map fun (item, p) => (some item, p.within r.2)

/-- The headers and entries in the text from a place on. -/
def items (p : Place) : Option (List Item) :=
  match _h : p.rest with
  | [] => some []
  | c :: cs =>
    match step p.fresh c cs with
    | none => none
    | some (item, next) => (items next.1).map (item.toList ++ ·)
termination_by p.rest.length
decreasing_by rw [_h]; exact next.2

structure Section where
  name : String
  entries : List (String × String)
deriving DecidableEq, Repr

/-- The entries in front of the next header. -/
def leading : List Item → List (String × String)
  | .entry key value :: items => (key, value) :: leading items
  | _ => []

/-- Entries in front of the first header belong to no section. -/
def sections : List Item → List Section
  | [] => []
  | .header name :: items => ⟨name, leading items⟩ :: sections items
  | .entry .. :: items => sections items

def read? (text : String) : Option (List Section) := (items ⟨true, text.toList⟩).map sections

def section? (file : List Section) (name : String) : Option Section :=
  file.find? (·.name == name)

def Section.value? (s : Section) (key : String) : Option String := s.entries.reverse.lookup key

end SigV4.Ini
