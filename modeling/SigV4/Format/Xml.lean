import SigV4.Bytes
/-!
# XML documents

A document is cut into tokens as far as they can be read, and the root element is built from
them; nothing behind the root counts. Comments and instructions are left out, names lose their
namespace prefix, and the text of an element may be put together from several pieces. A reader
looks one node ahead, and every element that it sees has to bind its prefixes as it may.
-/

namespace SigV4.Xml

def isBlank (c : Char) : Bool := c == ' ' || c == '\t' || c == '\r' || c == '\n'

def dropBlankEnd (cs : List Char) : List Char := (cs.reverse.dropWhile isBlank).reverse

/-! ## Tokens -/

inductive Token where
  /-- The start of an element; an empty element has no `closing`. -/
  | opening (name attributes : List Char) (empty : Bool)
  | closing (name : List Char)
  /-- Text with references in it. -/
  | text (raw : List Char)
  /-- Text that stands for itself. -/
  | verbatim (text : List Char)
  /-- A declaration of the type of the document. -/
  | doctype
  /-- A comment or an instruction. -/
  | aside
  /-- Something that is no token; none follows it. -/
  | fault
deriving DecidableEq, Repr

/-- What stands in front of the first `mark`, and what follows it. -/
def splitAt? (mark : List Char) : List Char → Option (List Char × List Char)
  | [] => if mark.isEmpty then some ([], []) else none
  | c :: cs =>
    if mark.isPrefixOf (c :: cs) then some ([], (c :: cs).drop mark.length)
    else (splitAt? mark cs).map fun p => (c :: p.1, p.2)

/-- The inside of a tag up to the `>` that stands in no quotes, and what follows it. -/
def tagBody? (quote : Option Char) : List Char → Option (List Char × List Char)
  | [] => none
  | c :: cs =>
    let next (quote : Option Char) := (tagBody? quote cs).map fun p => (c :: p.1, p.2)
    match quote with
    | some q => next (if c = q then none else some q)
    | none =>
      if c = '>' then some ([], cs)
      else next (if c = '"' ∨ c = '\x27' then some c else none)

/-- A declaration up to the `>` that closes it, and what follows; `depth` brackets are open. -/
def declaration? (depth : Nat) : List Char → Option (List Char × List Char)
  | [] => none
  | c :: cs =>
    let next (depth : Nat) := (declaration? depth cs).map fun p => (c :: p.1, p.2)
    if c = '<' then next (depth + 1)
    else if c ≠ '>' then next depth
    else if depth = 0 then some ([], cs)
    else next (depth - 1)

def isDoctype (body : List Char) : Bool :=
  (body.take 7).map Char.toUpper == "DOCTYPE".toList && (body.drop 7).any (!isBlank ·)

/-- The name of a closing tag without the blanks behind it. -/
def closingName (body : List Char) : List Char :=
  if body.all isBlank then body else dropBlankEnd body

def openingToken (body : List Char) : Token :=
  let empty := body.getLast? == some '/'
  let inside := if empty then body.dropLast else body
  .opening (inside.takeWhile (!isBlank ·)) (inside.dropWhile (!isBlank ·)) empty

/-- The token behind a `<`, and what follows it. -/
def markup? (cs : List Char) : Option (Token × List Char) :=
  match cs with
  | '!' :: '-' :: '-' :: rest => (splitAt? "-->".toList rest).map fun p => (.aside, p.2)
  | '!' :: '[' :: 'C' :: 'D' :: 'A' :: 'T' :: 'A' :: '[' :: rest =>
    (splitAt? "]]>".toList rest).map fun p => (.verbatim p.1, p.2)
  | '!' :: rest =>
    ((declaration? 0 rest).filter fun p => isDoctype p.1).map fun p => (.doctype, p.2)
  | '?' :: '>' :: _ => none
  | '?' :: rest => (splitAt? "?>".toList rest).map fun p => (.aside, p.2)
  | '/' :: rest => (tagBody? none rest).map fun p => (.closing (closingName p.1), p.2)
  | cs => (tagBody? none cs).map fun p => (openingToken p.1, p.2)

/-! The readers leave no more than they are given. -/

theorem length_splitAt {mark cs : List Char} {p : List Char × List Char}
    (h : splitAt? mark cs = some p) : p.2.length ≤ cs.length := by
  induction cs generalizing p with
  | nil =>
    simp only [splitAt?] at h
    split at h <;> cases h
    simp
  | cons c cs ih =>
    simp only [splitAt?] at h
    split at h
    · cases h; simp
    · obtain ⟨q, hq, rfl⟩ := Option.map_eq_some_iff.1 h
      have := ih hq
      exact Nat.le_succ_of_le this

theorem length_tagBody {quote : Option Char} {cs : List Char} {p : List Char × List Char}
    (h : tagBody? quote cs = some p) : p.2.length ≤ cs.length := by
  induction cs generalizing quote p with
  | nil => simp [tagBody?] at h
  | cons c cs ih =>
    have next {q : Option Char} (h : (tagBody? q cs).map (fun p => (c :: p.1, p.2)) = some p) :
        p.2.length ≤ (c :: cs).length := by
      obtain ⟨_, hq, rfl⟩ := Option.map_eq_some_iff.1 h
      have := ih hq
      exact Nat.le_succ_of_le this
    cases quote with
    | some q => exact next h
    | none =>
      simp only [tagBody?] at h
      split at h
      · cases h; simp
      · exact next h

theorem length_declaration {depth : Nat} {cs : List Char} {p : List Char × List Char}
    (h : declaration? depth cs = some p) : p.2.length ≤ cs.length := by
  induction cs generalizing depth p with
  | nil => simp [declaration?] at h
  | cons c cs ih =>
    have next {d : Nat} (h : (declaration? d cs).map (fun p => (c :: p.1, p.2)) = some p) :
        p.2.length ≤ (c :: cs).length := by
      obtain ⟨_, hq, rfl⟩ := Option.map_eq_some_iff.1 h
      have := ih hq
      exact Nat.le_succ_of_le this
    simp only [declaration?] at h
    split at h
    · exact next h
    · split at h
      · exact next h
      · split at h
        · cases h; simp
        · exact next h

theorem length_markup {cs after : List Char} {t : Token} (h : markup? cs = some (t, after)) :
    after.length ≤ cs.length := by
  have last {r : Option (List Char × List Char)} {f : List Char × List Char → Token}
      (h : r.map (fun p => (f p, p.2)) = some (t, after)) : ∃ p, r = some p ∧ p.2 = after := by
    obtain ⟨p, hp, e⟩ := Option.map_eq_some_iff.1 h
    exact ⟨p, hp, (Prod.mk.inj e).2⟩
  unfold markup? at h
  split at h
  · obtain ⟨_, hp, rfl⟩ := last h; have := length_splitAt hp; simp; omega
  · obtain ⟨_, hp, rfl⟩ := last h; have := length_splitAt hp; simp; omega
  · obtain ⟨_, hp, rfl⟩ := last h
    exact Nat.le_succ_of_le (length_declaration (Option.eq_some_of_filter_eq_some hp))
  · cases h
  · obtain ⟨_, hp, rfl⟩ := last h; exact Nat.le_succ_of_le (length_splitAt hp)
  · obtain ⟨_, hp, rfl⟩ := last h; exact Nat.le_succ_of_le (length_tagBody hp)
  · obtain ⟨_, hp, rfl⟩ := last h; exact length_tagBody hp

/-- The tokens of a document. -/
def tokens (cs : List Char) : List Token :=
  match cs with
  | [] => []
  | c :: rest =>
    if c = '<' then
      match _h : markup? rest with
      | some (t, after) => t :: tokens after
      | none => [.fault]
    else .text (c :: rest.takeWhile (· != '<')) :: tokens (rest.dropWhile (· != '<'))
termination_by cs.length
decreasing_by
  · have := length_markup _h; simp; omega
  · exact Nat.lt_succ_of_le (List.dropWhile_sublist _).length_le

/-! ## Elements -/

inductive Node where
  | element (name attributes : List Char) (children : List Node)
  | text (raw : List Char)
  | verbatim (text : List Char)
  | doctype

/-- An element whose end has not come yet, its children so far with the last one first. -/
structure Pending where
  name : List Char
  attributes : List Char
  children : List Node := []

namespace Pending

def node (p : Pending) : Node := .element p.name p.attributes p.children.reverse

def add (p : Pending) (n : Node) : Pending := { p with children := n :: p.children }

end Pending

/-- The root element, when the elements of `stack` are open, the innermost first. In
front of the root there may be blanks, asides and declarations only. -/
def root? : List Pending → List Token → Option Node
  | _, [] => none
  | _, .fault :: _ => none
  | stack, .aside :: ts => root? stack ts
  | [], .doctype :: ts => root? [] ts
  | p :: stack, .doctype :: ts => root? (p.add .doctype :: stack) ts
  | [], .text raw :: ts => if raw.all isBlank then root? [] ts else none
  | [], .verbatim _ :: _ => none
  | [], .closing _ :: _ => none
  | [], .opening name attributes empty :: ts =>
    if empty then some (.element name attributes []) else root? [⟨name, attributes, []⟩] ts
  | p :: stack, .text raw :: ts => root? (p.add (.text raw) :: stack) ts
  | p :: stack, .verbatim text :: ts => root? (p.add (.verbatim text) :: stack) ts
  | p :: stack, .opening name attributes empty :: ts =>
    if empty then root? (p.add (.element name attributes []) :: stack) ts
    else root? (⟨name, attributes, []⟩ :: p :: stack) ts
  | [p], .closing name :: _ => if name = p.name then some p.node else none
  | p :: q :: stack, .closing name :: ts =>
    if name = p.name then root? (q.add p.node :: stack) ts else none

namespace Node

def isElement : Node → Bool
  | element .. => true
  | _ => false

def children : Node → List Node
  | element _ _ nodes => nodes
  | _ => []

/-- Whether a node is a piece of a text. -/
def isPiece : Node → Bool
  | text _ | verbatim _ => true
  | _ => false

/-- Whether a node is blank text. -/
def isBlank : Node → Bool
  | text raw => raw.all Xml.isBlank
  | _ => false

end Node

/-! ## References -/

def digit? (base : Nat) (c : Char) : Option Nat :=
  let n :=
    if '0' ≤ c ∧ c ≤ '9' then c.toNat - 0x30
    else if 'a' ≤ c ∧ c ≤ 'z' then c.toNat - 0x57
    else if 'A' ≤ c ∧ c ≤ 'Z' then c.toNat - 0x37
    else base
  if n < base then some n else none

def number? (base : Nat) (cs : List Char) : Option Nat := do
  if cs.isEmpty then none
  return (← cs.mapM (digit? base)).foldl (fun n d => n * base + d) 0

/-- The character with a code point, which is not zero. -/
def character? (n : Nat) : Option Char :=
  if n ≠ 0 ∧ n.isValidChar then some (Char.ofNat n) else none

/-- What stands between `&` and `;`. -/
def reference? : List Char → Option Char
  | '#' :: 'x' :: digits => number? 16 digits >>= character?
  | '#' :: digits => number? 10 digits >>= character?
  | name =>
    [("lt", '<'), ("gt", '>'), ("amp", '&'), ("apos", '\x27'), ("quot", '"')].lookup
      (String.ofList name)

/-- The text with its references replaced. -/
def unescape? (cs : List Char) : Option (List Char) :=
  match cs with
  | [] => some []
  | c :: rest =>
    if c ≠ '&' then (unescape? rest).map (c :: ·)
    else
      let isEnd (c : Char) : Bool := c == '&' || c == ';'
      match _h : rest.dropWhile (!isEnd ·) with
      | ';' :: after => do
        let c ← reference? (rest.takeWhile (!isEnd ·))
        (unescape? after).map (c :: ·)
      | _ => none
termination_by cs.length
decreasing_by
  · simp
  · have := (List.dropWhile_sublist (fun c => !isEnd c) (l := rest)).length_le
    rw [_h] at this; simp at *; omega

/-! ## Runs of text -/

/-- The pieces without the blanks in front of the first text. -/
def dropLeading : List Node → List Node
  | .text raw :: ns =>
    match raw.dropWhile isBlank with
    | [] => dropLeading ns
    | cs => .text cs :: ns
  | ns => ns

/-- The pieces without the blanks at the end of a last text. -/
def dropTrailing : List Node → List Node
  | [] => []
  | [.text raw] => [.text (dropBlankEnd raw)]
  | n :: ns => n :: dropTrailing ns

/-- The runs of text between other nodes, without the blanks around them and without those that
are all blank. -/
def runs (nodes : List Node) : List (List Node) :=
  ((nodes.splitOnP (!·.isPiece)).map fun run => dropTrailing (dropLeading run)).filter
    (!·.isEmpty)

/-- The text that pieces give. -/
def joinText? : List Node → Option (List Char)
  | [] => some []
  | .text raw :: ns => do return (← unescape? raw) ++ (← joinText? ns)
  | .verbatim text :: ns => (joinText? ns).map (text ++ ·)
  | _ :: _ => none

def isReadable (run : List Node) : Bool := (joinText? run).isSome

/-! ## Attributes -/

structure Attribute where
  name : List Char
  value : List Char
deriving DecidableEq, Repr

/-- The attributes of an element up to the first that is malformed, and whether there is none. -/
def attributes (cs : List Char) : List Attribute × Bool :=
  match cs with
  | [] => ([], true)
  | c :: rest =>
    if isBlank c then attributes rest
    else
      let isEnd (c : Char) : Bool := c == '=' || isBlank c
      match _name : (rest.dropWhile (!isEnd ·)).dropWhile isBlank with
      | '=' :: value =>
        match _value : value.dropWhile isBlank with
        | quote :: inside =>
          match _inside : inside.dropWhile (· != quote) with
          | _ :: after =>
            if quote == '"' || quote == '\x27' then
              let more := attributes after
              (⟨c :: rest.takeWhile (!isEnd ·), inside.takeWhile (· != quote)⟩ :: more.1, more.2)
            else ([], false)
          | [] => ([], false)
        | [] => ([], false)
      | _ => ([], false)
termination_by cs.length
decreasing_by
  · simp
  · have a := (List.dropWhile_sublist (· != quote) (l := inside)).length_le
    have b := (List.dropWhile_sublist isBlank (l := value)).length_le
    have c := (List.dropWhile_sublist isBlank (l := rest.dropWhile fun c => !isEnd c)).length_le
    have d := (List.dropWhile_sublist (fun c => !isEnd c) (l := rest)).length_le
    rw [_inside] at a; rw [_value] at b; rw [_name] at c
    simp at *; omega

/-- Attributes that are well formed, no two of them with one name. -/
def areDistinct (cs : List Char) : Bool :=
  let (found, complete) := attributes cs
  complete && decide (found.map Attribute.name).Nodup

/-- A namespace that is bound to one prefix by definition. -/
def reservedNamespace (path : String) : List Char := ("http://" ++ "www.w3.org/" ++ path).toList

/-- The namespace of the prefix `xml`. -/
def xmlNamespace : List Char := reservedNamespace "XML/1998/namespace"

/-- The namespace of the prefix `xmlns`. -/
def xmlnsNamespace : List Char := reservedNamespace "2000/xmlns/"

/-- Whether an attribute, if it binds a prefix, may do so: `xmlns` is never bound, and `xml` and
its namespace belong together. -/
def Attribute.isLawful (a : Attribute) : Bool :=
  if "xmlns:".toList.isPrefixOf a.name then
    let bound := a.name.drop 6
    if bound = "xml".toList then a.value = xmlNamespace
    else bound ≠ "xmlns".toList && a.value ≠ xmlNamespace && a.value ≠ xmlnsNamespace
  else true

/-- Whether an element, if the node is one, can be looked at. -/
def Node.isLawful : Node → Bool
  | .element _ attrs _ => (attributes attrs).1.all Attribute.isLawful
  | _ => true

/-- A mark of the byte order may stand in front of the document. -/
def read? (document : String) : Option Node :=
  let cs := document.toList
  (root? [] (tokens (if cs.head? = some (Char.ofNat 0xFEFF) then cs.tail else cs))).filter
    Node.isLawful

/-! ## Looking ahead -/

/-- The next node, which has to be lawful; blank text in front of it does not count if `skip` says
so. -/
def nextIsLawful (skip : Bool) (nodes : List Node) : Bool :=
  (nodes.dropWhile fun n => skip && n.isBlank).head?.all Node.isLawful

/-- Whether the next node but for blank text is a piece of a text. -/
def startsWithPiece (nodes : List Node) : Bool :=
  (nodes.dropWhile Node.isBlank).head?.any Node.isPiece

/-- Whether an element with such children can be left unread. A text in front of them is read, and
what follows it looked at; an element in front is looked at, and so are its first child and
what follows the element, where blank text counts if the last look was at a text. -/
def skippable (children : List Node) : Bool :=
  match children with
  | [] => true
  | .doctype :: rest => skippable rest
  | .element name attrs inner :: rest =>
    (Node.element name attrs inner).isLawful && nextIsLawful true inner
      && nextIsLawful (!startsWithPiece inner) rest
  | .text raw :: rest =>
    if raw.all isBlank then skippable rest
    else
      let run := .text raw :: rest.takeWhile Node.isPiece
      isReadable run && nextIsLawful false (rest.dropWhile Node.isPiece)
  | .verbatim text :: rest =>
    let run := .verbatim text :: rest.takeWhile Node.isPiece
    isReadable run && nextIsLawful false (rest.dropWhile Node.isPiece)

/-! ## Records -/

/-- A name without its namespace prefix. -/
def localName (name : List Char) : String :=
  String.ofList (if name.contains ':' then (name.dropWhile (· != ':')).tail else name)

def Node.name : Node → String
  | .element name .. => localName name
  | _ => ""

/-- The child elements of a record, provided that those with other names can be skipped. -/
def Node.members? (names : List String) : Node → Option (List Node)
  | .element _ attrs children =>
    let elements := children.filter Node.isElement
    let others := elements.filter (!names.contains ·.name)
    if areDistinct attrs && (runs children).all isReadable && elements.all Node.isLawful
        && others.all (skippable ·.children) then
      some (elements.filter (names.contains ·.name))
    else none
  | _ => none

/-- The text of an element that holds at most one run of text and no element. -/
def Node.text? : Node → Option String
  | .element _ _ children =>
    if children.any Node.isElement then none
    else match runs children with
      | [] => some ""
      | [run] => (joinText? run).map String.ofList
      | _ => none
  | _ => none

/-- The only one of some members that has one of the names, if there is one; none when there are
more. -/
def only? (names : List String) (members : List Node) : Option (Option Node) :=
  match members.filter (names.contains ·.name) with
  | [] => some none
  | [n] => some (some n)
  | _ => none

/-- The text of a member, empty when it is missing. -/
def memberText? (members : List Node) (name : String) : Option String := do
  match ← only? [name] members with
  | some n => n.text?
  | none => some ""

end SigV4.Xml
