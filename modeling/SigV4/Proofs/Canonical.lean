import SigV4.Proofs.Header
import SigV4.Proofs.Query
import SigV4.Proofs.Words
/-!
# The lines of a canonical request

A canonical request is its lines, joined, and no line holds a line end: it can be taken apart again.
`request?_eq_iff` says what two equal texts have in common, `request?_congr` what is enough for two
texts to be equal.
-/

namespace SigV4.Canonical

open Http

/-! ## The lines -/

/-- The canonical value under a name: the values one by one, in words, with commas between them. -/
def fieldText (h : Header) (n : FieldName) : Bytes :=
  Bytes.join [0x2C] ((h.values n).map fun v => collapse v.bytes)

/-- A field with one value. -/
theorem fieldText_of_values {h : Header} {n : FieldName} {v : Bytes} (hv : (h.values n).map (·.bytes) = [v]) :
    fieldText h n = collapse v := by
  have hcollapsed := congrArg (List.map collapse) hv
  rw [List.map_map] at hcollapsed
  exact congrArg (Bytes.join [0x2C]) hcollapsed

def fieldRow (h : Header) (n : FieldName) : Bytes := n.bytes ++ 0x3A :: fieldText h n

/-- All values that are signed are ASCII. -/
def Readable (h : Header) : Prop := ∀ n ∈ signedNames h, ∀ v ∈ h.values n, v.bytes.all isTextByte = true

def lines (r : SigningRequest) (payload : Bytes) : List Bytes :=
  [r.method.token, Path.canonical r.path, queryLine r.query] ++ (signedNames r.header).map (fieldRow r.header)
    ++ [[], nameList (signedNames r.header), payload]

theorem mapM_option_eq_some {α β : Type} {f : α → Option β} {g : α → β} {P : α → Prop}
    (h : ∀ a b, f a = some b ↔ P a ∧ b = g a) {l : List α} {bs : List β} :
    l.mapM f = some bs ↔ (∀ a ∈ l, P a) ∧ bs = l.map g := by
  induction l generalizing bs with
  | nil => simp [eq_comm]
  | cons a l ih =>
    rw [List.mapM_cons]
    simp only [Option.bind_eq_bind, Option.bind_eq_some_iff, Option.pure_def, Option.some.injEq, h, ih,
      List.forall_mem_cons, List.map_cons]
    constructor
    · rintro ⟨b, ⟨ha, rfl⟩, cs, ⟨hl, rfl⟩, rfl⟩
      exact ⟨⟨ha, hl⟩, rfl⟩
    · rintro ⟨⟨ha, hl⟩, rfl⟩
      exact ⟨_, ⟨ha, rfl⟩, _, ⟨hl, rfl⟩, rfl⟩

theorem value?_eq_some {v : FieldValue} {bs : Bytes} :
    value? v = some bs ↔ v.bytes.all isTextByte = true ∧ bs = collapse v.bytes := by
  by_cases h : v.bytes.all isTextByte = true <;> simp [value?, FieldValue.text?, h, eq_comm]

theorem fieldLine?_eq_some {h : Header} {n : FieldName} {bs : Bytes} :
    fieldLine? h n = some bs ↔ (∀ v ∈ h.values n, v.bytes.all isTextByte = true) ∧ bs = fieldRow h n := by
  simp only [fieldLine?, Option.map_eq_some_iff, mapM_option_eq_some fun v bs => value?_eq_some]
  constructor
  · rintro ⟨vs, ⟨hv, rfl⟩, rfl⟩
    exact ⟨hv, rfl⟩
  · rintro ⟨hv, rfl⟩
    exact ⟨_, ⟨hv, rfl⟩, rfl⟩

theorem request?_eq_some {r : SigningRequest} {t : Bytes} :
    request? r = some t ↔
      Readable r.header ∧
        ∃ payload, payloadHash? r.header = some payload ∧ t = Bytes.join [0x0A] (lines r payload) := by
  simp only [request?, Option.bind_eq_bind, Option.bind_eq_some_iff, Option.some.injEq,
    mapM_option_eq_some fun n bs => @fieldLine?_eq_some r.header n bs]
  constructor
  · rintro ⟨rows, ⟨hr, rfl⟩, payload, hp, rfl⟩
    exact ⟨hr, payload, hp, rfl⟩
  · rintro ⟨hr, payload, hp, rfl⟩
    exact ⟨_, ⟨hr, rfl⟩, payload, hp, rfl⟩

/-! ## No line end in a line -/

theorem notMem_canonical {b : UInt8} (h : Path.isPlain b = false) (hb : b ≠ 0x25) (path : Bytes) :
    b ∉ Path.canonical path := by
  intro hm
  have hu : ∀ c, Percent.isUnreserved c = true → Path.isPlain c = true := fun c hc => by simp [Path.isPlain, hc]
  rcases Percent.mem_encode hu hm with hp | rfl
  · rw [h] at hp; cases hp
  · exact hb rfl

theorem notMem_fieldText {b : UInt8} {h : Header} {n : FieldName}
    (hv : ∀ v ∈ h.values n, v.bytes.all isTextByte = true) (hb : isTextByte b = false) : b ∉ fieldText h n := by
  intro hm
  rcases Bytes.mem_join hm with hm | ⟨bs, hbs, hm⟩
  · obtain rfl := List.mem_singleton.1 hm
    exact absurd hb (by decide)
  · obtain ⟨v, hvm, rfl⟩ := List.mem_map.1 hbs
    rcases mem_collapse hm with rfl | hm
    · exact absurd hb (by decide)
    · rw [List.all_eq_true.1 (hv v hvm) b hm] at hb
      cases hb

theorem notMem_payload {b : UInt8} {h : Header} {payload : Bytes} (hp : payloadHash? h = some payload)
    (hb : isTextByte b = false) (hx : Hex.isLowerHex b = false) : b ∉ payload := by
  unfold payloadHash? at hp
  split at hp
  · rename_i v _
    by_cases ht : v.bytes.all isTextByte = true
    · simp only [FieldValue.text?, ht, if_true, Option.some.injEq] at hp
      intro hm
      rw [← hp] at hm
      rw [List.all_eq_true.1 ht b hm] at hb
      cases hb
    · simp [FieldValue.text?, ht] at hp
  · rw [← Option.some.inj hp]
    exact Hex.notMem_encode hx _

theorem notMem_lines {r : SigningRequest} {payload : Bytes} {ps : List Form.Pair} (hq : r.query = encodeQuery ps)
    (hr : Readable r.header) (hp : payloadHash? r.header = some payload) :
    ∀ l ∈ lines r payload, (0x0A : UInt8) ∉ l := by
  intro l hl
  simp only [lines, List.mem_append, List.mem_cons, List.not_mem_nil, or_false, List.mem_map] at hl
  rcases hl with ((rfl | rfl | rfl) | ⟨n, hn, rfl⟩) | rfl | rfl | rfl
  · exact r.method.notMem (by decide)
  · exact notMem_canonical (by decide) (by decide) r.path
  · exact hq ▸ queryLine_notMem (by decide) (by decide) (by decide) (by decide) ps
  · simp only [fieldRow, List.mem_append, List.mem_cons, not_or]
    exact ⟨n.notMem (by decide), by decide, notMem_fieldText (hr n hn) (by decide)⟩
  · simp
  · intro hm
    rcases Bytes.mem_join hm with hm | ⟨bs, hbs, hm⟩
    · exact absurd hm (by decide)
    · obtain ⟨n, -, rfl⟩ := List.mem_map.1 hbs
      exact n.notMem (by decide) hm
  · exact notMem_payload hp (by decide) (by decide)

/-! ## Equal texts -/

theorem fieldRow_inj {h h' : Header} {n n' : FieldName} :
    fieldRow h n = fieldRow h' n' ↔ n = n' ∧ fieldText h n = fieldText h' n' := by
  constructor
  · intro e
    have hn : ∀ k : FieldName, (0x3A : UInt8) ∉ k.bytes := fun k => k.notMem (by decide)
    have hs := congrArg (Bytes.splitOn 0x3A) e
    simp only [fieldRow, Bytes.splitOn_append_cons, Bytes.splitOn_of_notMem (hn _), List.singleton_append,
      List.cons.injEq] at hs
    refine ⟨FieldName.ext_bytes hs.1, ?_⟩
    rw [← Bytes.join_splitOn 0x3A (fieldText h n), hs.2, Bytes.join_splitOn]
  · rintro ⟨rfl, e⟩
    rw [fieldRow, fieldRow, e]

theorem map_fieldRow_inj {h h' : Header} {ns ms : List FieldName} :
    ns.map (fieldRow h) = ms.map (fieldRow h') ↔ ns = ms ∧ ∀ n ∈ ns, fieldText h n = fieldText h' n := by
  induction ns generalizing ms with
  | nil => cases ms <;> simp
  | cons n ns ih =>
    cases ms with
    | nil => simp
    | cons m ms =>
      simp only [List.map_cons, List.cons.injEq, fieldRow_inj, ih, List.forall_mem_cons]
      constructor
      · rintro ⟨⟨rfl, hn⟩, rfl, hns⟩
        exact ⟨⟨rfl, rfl⟩, hn, hns⟩
      · rintro ⟨⟨rfl, rfl⟩, hn, hns⟩
        exact ⟨⟨rfl, hn⟩, rfl, hns⟩

theorem canonical_inj {path path' : Bytes} :
    Path.canonical path = Path.canonical path' ↔ Path.normalize path = Path.normalize path' :=
  Percent.encode_inj (by decide)

/-- What two canonical requests with one text have in common. -/
theorem request?_eq_iff {r r' : SigningRequest} {ps ps' : List Form.Pair} {t t' : Bytes}
    (hq : r.query = encodeQuery ps) (hq' : r'.query = encodeQuery ps')
    (ht : request? r = some t) (ht' : request? r' = some t') :
    t = t' ↔ r.method = r'.method ∧ Path.normalize r.path = Path.normalize r'.path ∧ ps.Perm ps' ∧
      signedNames r.header = signedNames r'.header ∧
      (∀ n ∈ signedNames r.header, fieldText r.header n = fieldText r'.header n) ∧
      payloadHash? r.header = payloadHash? r'.header := by
  obtain ⟨hr, payload, hp, rfl⟩ := request?_eq_some.1 ht
  obtain ⟨hr', payload', hp', rfl⟩ := request?_eq_some.1 ht'
  rw [Bytes.join_inj (by simp [lines]) (by simp [lines]) (notMem_lines hq hr hp) (notMem_lines hq' hr' hp'), hp, hp',
    Option.some.injEq]
  constructor
  · intro e
    simp only [lines, List.cons_append, List.nil_append, List.cons.injEq] at e
    obtain ⟨hm, hpath, hquery, e⟩ := e
    -- the number of rows is not known, but three lines follow them
    obtain ⟨hrows, htail⟩ := List.append_inj' e rfl
    obtain ⟨hnames, htexts⟩ := map_fieldRow_inj.1 hrows
    simp only [List.cons.injEq, true_and, and_true] at htail
    exact ⟨Method.ext_token hm, canonical_inj.1 hpath, queryLine_inj.1 (hq ▸ hq' ▸ hquery), hnames, htexts, htail.2⟩
  · rintro ⟨hm, hpath, hquery, hnames, hrows, rfl⟩
    rw [lines, lines, hm, canonical_inj.2 hpath, hq, hq', queryLine_inj.2 hquery, map_fieldRow_inj.2 ⟨hnames, hrows⟩,
      hnames]

/-! ## What decides about a text -/

theorem mem_signedNames {h : Header} {n : FieldName} : n ∈ signedNames h ↔ h.values n ≠ [] ∧ n ∉ unsignedNames := by
  simp [signedNames, Header.mem_names]

theorem sorted_signedNames (h : Header) : (signedNames h).Pairwise (·.bytes < ·.bytes) :=
  (Header.sorted_names h).sublist List.filter_sublist

/-- All that a canonical request shows of the values under a name. -/
def wordsOf (h : Header) (n : FieldName) : List (List Bytes) := (h.values n).map fun v => words v.bytes

theorem wordsOf_eq_nil {h : Header} {n : FieldName} : wordsOf h n = [] ↔ h.values n = [] := List.map_eq_nil_iff

theorem fieldText_eq (h : Header) (n : FieldName) :
    fieldText h n = Bytes.join [0x2C] ((wordsOf h n).map (Bytes.join [0x20])) := by
  rw [fieldText, wordsOf, List.map_map]; rfl

theorem isText_iff_wordsOf {h : Header} {n : FieldName} :
    (∀ v ∈ h.values n, v.bytes.all isTextByte = true) ↔ ∀ ws ∈ wordsOf h n, ∀ w ∈ ws, w.all isTextByte = true := by
  simp only [wordsOf, List.forall_mem_map]
  exact forall₂_congr fun v _ => isText_iff_words v.bytes

theorem signedNames_congr {h h' : Header} (hw : ∀ n, n ∉ unsignedNames → wordsOf h n = wordsOf h' n) :
    signedNames h = signedNames h' := by
  refine Header.eq_of_sorted (sorted_signedNames h) (sorted_signedNames h') fun n => ?_
  rw [mem_signedNames, mem_signedNames]
  refine and_congr_left fun hn => ?_
  rw [Ne, Ne, ← wordsOf_eq_nil, ← wordsOf_eq_nil, hw n hn]

/-- The words under the signed names, the declared hash, the method and the sets of pairs and
segments decide. -/
theorem request?_congr {r r' : SigningRequest} (hm : r.method = r'.method)
    (hpath : Path.canonical r.path = Path.canonical r'.path) (hq : queryLine r.query = queryLine r'.query)
    (hw : ∀ n, n ∉ unsignedNames → wordsOf r.header n = wordsOf r'.header n)
    (hp : payloadHash? r.header = payloadHash? r'.header) : request? r = request? r' := by
  have hnames := signedNames_congr hw
  have hs : ∀ n ∈ signedNames r'.header, wordsOf r.header n = wordsOf r'.header n :=
    fun n hn => hw n (mem_signedNames.1 hn).2
  have hread : Readable r.header ↔ Readable r'.header := by
    unfold Readable
    rw [hnames]
    refine forall₂_congr fun n hn => ?_
    rw [isText_iff_wordsOf, isText_iff_wordsOf, hs n hn]
  have hlines : ∀ payload, lines r payload = lines r' payload := by
    intro payload
    have htexts : ∀ n ∈ signedNames r.header, fieldText r.header n = fieldText r'.header n :=
      fun n hn => by rw [fieldText_eq, fieldText_eq, hs n (hnames ▸ hn)]
    rw [lines, lines, hm, hpath, hq, map_fieldRow_inj.2 ⟨hnames, htexts⟩, hnames]
  refine Option.ext fun t => ?_
  rw [request?_eq_some, request?_eq_some, hread, hp]
  simp only [hlines]

end SigV4.Canonical
