import SigV4.Proofs.Sent
import SigV4.Signer
/-!
# Verifiers

A verifier knows the secret key and sees a request as it arrived. What was signed, and by whom, it
reads off the request itself: `Ticket.read?` takes an `authorization` field apart and
`Ticket.ofPairs?` the parameters of a URI, both from the right, since an access key may hold any text.
-/

namespace SigV4.Verifier

open Http Canonical

/-! ## Who signed for what -/

/-- What follows a text. -/
def after? (front bs : Bytes) : Option Bytes :=
  if bs.take front.length = front then some (bs.drop front.length) else none

theorem after?_append (front bs : Bytes) : after? front (front ++ bs) = some bs := by simp [after?]

/-- An access key and the scope behind it. -/
structure Issuer where
  accessKeyId : Bytes
  date : Bytes
  region : Bytes
  service : Bytes
deriving DecidableEq, Repr

namespace Issuer

def read? (bs : Bytes) : Option Issuer :=
  match (Bytes.splitOn 0x2F bs).reverse with
  | last :: service :: region :: date :: k :: ks =>
    if last = scopeEnd then some ⟨Bytes.join [0x2F] (k :: ks).reverse, date, region, service⟩ else none
  | _ => none

def scope (i : Issuer) : Bytes := Bytes.join [0x2F] [i.date, i.region, i.service, scopeEnd]

def signingKey (i : Issuer) (secret : String) : Bytes :=
  [i.date, i.region, i.service, scopeEnd].foldl Hmac.tag (utf8 "AWS4" ++ utf8 secret)

def stringToSign (i : Issuer) (stamp canonicalRequest : Bytes) : Bytes :=
  Bytes.join [0x0A] [algorithm, stamp, i.scope, Sha256.hex canonicalRequest]

end Issuer

/-- An issuer with the names of the fields it signed and the signature. -/
structure Ticket where
  issuer : Issuer
  names : List Bytes
  signature : Bytes
deriving DecidableEq, Repr

namespace Ticket

/-- The ticket in an `authorization` field. -/
def read? (text : Bytes) : Option Ticket :=
  match (Bytes.splitOn 0x2C text).reverse with
  | signature :: names :: front => do
    let issuer ← (after? (utf8 "AWS4-HMAC-SHA256 Credential=") (Bytes.join [0x2C] front.reverse)).bind Issuer.read?
    let names ← after? (utf8 " SignedHeaders=") names
    let signature ← after? (utf8 " Signature=") signature
    some ⟨issuer, Bytes.splitOn 0x3B names, signature⟩
  | _ => none

/-- The ticket in the parameters of a URI, with the time it was issued. -/
def ofPairs? (ps : List Form.Pair) (signature : Bytes) : Option (Ticket × Bytes) := do
  let issuer ← (ps.lookup (utf8 "X-Amz-Credential")).bind Issuer.read?
  let names ← ps.lookup (utf8 "X-Amz-SignedHeaders")
  let stamp ← ps.lookup (utf8 "X-Amz-Date")
  some (⟨issuer, Bytes.splitOn 0x3B names, signature⟩, stamp)

end Ticket

/-! ## What was signed -/

def valuesOf (h : Header) (name : Bytes) : List Bytes :=
  h.fields.filterMap fun f => if f.1.bytes = name then some f.2.bytes else none

/-- The values under a name with blanks settled and commas between them. -/
def fieldLine (h : Header) (name : Bytes) : Bytes :=
  name ++ 0x3A :: Bytes.join [0x2C] ((valuesOf h name).map collapse)

def payloadHash (h : Header) : Bytes := (valuesOf h (utf8 "x-amz-content-sha256")).head?.getD (Sha256.hex [])

def lines (r : SigningRequest) (names : List Bytes) : List Bytes :=
  [r.method.token, Path.canonical r.path, queryLine (encodeQuery r.query)] ++ names.map (fieldLine r.header)
    ++ [[], Bytes.join [0x3B] names, payloadHash r.header]

/-- The canonical request of a request as it was taken apart. -/
def canonicalRequest (r : SigningRequest) (names : List Bytes) : Bytes := Bytes.join [0x0A] (lines r names)

/-- All that a verifier works out. -/
structure Reading where
  ticket : Ticket
  canonicalRequest : Bytes
  stringToSign : Bytes
  payloadHash : Bytes
deriving DecidableEq, Repr

/-- A request with a signature in its header, as it arrived. -/
def read? (sent : Request) : Option Reading := do
  let r ← SigningRequest.ofRequest? sent
  let ticket ← (valuesOf r.header (utf8 "authorization")).head?.bind Ticket.read?
  let stamp ← (valuesOf r.header (utf8 "x-amz-date")).head?
  let text := canonicalRequest r ticket.names
  some ⟨ticket, text, ticket.issuer.stringToSign stamp text, payloadHash r.header⟩

/-- The payload is the one that was hashed and the signature the one that the secret gives. -/
def accepts (secret : String) (sent : Request) (body : Bytes) : Bool :=
  match read? sent with
  | some d =>
    d.payloadHash = Sha256.hex body &&
      d.ticket.signature = Hmac.hex (d.ticket.issuer.signingKey secret) d.stringToSign
  | none => false

/-! ## Reading the canonical request -/

theorem valuesOf_bytes (h : Header) (n : FieldName) : valuesOf h n.bytes = (h.values n).map (·.bytes) := by
  simp only [valuesOf, Header.values, List.map_filterMap]
  refine List.filterMap_congr fun f _ => ?_
  by_cases hf : f.1 = n
  · simp [hf]
  · have hb : f.1.bytes ≠ n.bytes := fun e => hf (FieldName.ext_bytes e)
    simp [hf, hb]

theorem fieldLine_bytes (h : Header) (n : FieldName) : fieldLine h n.bytes = fieldRow h n := by
  rw [fieldLine, fieldRow, fieldText, valuesOf_bytes, List.map_map]
  rfl

theorem payloadHash_values (h : Header) :
    payloadHash h = ((h.values .amzContentSha256).map (·.bytes)).head?.getD (Sha256.hex []) := by
  rw [← valuesOf_bytes]
  rfl

theorem payloadHash_eq {h : Header} {payload : Bytes} (hp : payloadHash? h = some payload) :
    payloadHash h = payload := by
  unfold payloadHash? at hp
  rw [payloadHash_values, List.head?_map]
  change (Option.map _ (h.first? .amzContentSha256)).getD _ = _
  cases hf : h.first? .amzContentSha256 with
  | none =>
    rw [hf] at hp
    exact Option.some.inj hp
  | some v =>
    rw [hf] at hp
    simp only [FieldValue.text?] at hp
    split at hp
    · exact Option.some.inj hp
    · cases hp

/-- A request with the signed values rebuilds the signed text exactly when it has the signed pairs. -/
theorem canonicalRequest_eq_iff {p r : SigningRequest} {ps : List Form.Pair} {text : Bytes}
    (hq : p.query = encodeQuery ps) (ht : request? p = some text) (hm : r.method = p.method) (hpath : r.path = p.path)
    (hv : ∀ n ∈ .amzContentSha256 :: signedNames p.header, r.header.values n = p.header.values n) :
    canonicalRequest r ((signedNames p.header).map (·.bytes)) = text ↔ r.query.Perm ps := by
  obtain ⟨hread, payload, hp, rfl⟩ := request?_eq_some.1 ht
  rw [List.forall_mem_cons] at hv
  have hpayload : payloadHash r.header = payload := by
    refine payloadHash_eq ?_
    rw [← hp, payloadHash?, payloadHash?, Header.first?, Header.first?, hv.1]
  have hrows : (signedNames p.header).map (fun n => fieldLine r.header n.bytes) =
      (signedNames p.header).map (fieldRow p.header) := by
    refine List.map_congr_left fun n hn => ?_
    rw [fieldLine_bytes, fieldRow, fieldRow, fieldText, fieldText, hv.2 n hn]
  have hlines : lines r ((signedNames p.header).map (·.bytes)) =
      Canonical.lines { p with query := encodeQuery r.query } payload := by
    rw [lines, Canonical.lines, hm, hpath, hpayload, List.map_map]
    change _ ++ (signedNames p.header).map (fun n => fieldLine r.header n.bytes) ++ _ = _
    rw [hrows]
    rfl
  have hends : ∀ l ∈ Canonical.lines { p with query := encodeQuery r.query } payload, (0x0A : UInt8) ∉ l :=
    notMem_lines rfl hread hp
  rw [canonicalRequest, hlines, Bytes.join_inj (by simp [Canonical.lines]) (by simp [Canonical.lines]) hends
    (notMem_lines hq hread hp), ← queryLine_inj, ← hq]
  simp [Canonical.lines]

/-! ## Texts without slashes -/

theorem notMem_utf8 {s : String} {b : UInt8} (h : ∀ c ∈ s.toList, c.toNat < 0x80 ∧ c.toNat ≠ b.toNat) : b ∉ utf8 s := by
  intro hb
  obtain ⟨c, hc, hb⟩ := List.mem_flatMap.1 hb
  obtain ⟨hlt, hne⟩ := h c hc
  rcases Utf8.utf8EncodeChar_cases c with ⟨-, hone⟩ | ⟨hge, -⟩
  · rw [hone, List.mem_singleton] at hb
    refine hne ?_
    rw [hb, UInt8.toNat_ofNat', Nat.mod_eq_of_lt (by omega)]
  · omega

/-- A character of a date or a region. -/
def isScopeChar (c : Char) : Bool := Region.isRegionChar c || c == '+'

theorem toNat_of_isRegionChar {c : Char} (h : Region.isRegionChar c = true) :
    (97 ≤ c.toNat ∧ c.toNat ≤ 122) ∨ (48 ≤ c.toNat ∧ c.toNat ≤ 57) ∨ c.toNat = 45 := by
  simp only [Region.isRegionChar, Bool.or_eq_true, Bool.and_eq_true, decide_eq_true_eq, beq_iff_eq, or_assoc] at h
  rcases h with ⟨hl, hu⟩ | ⟨hl, hu⟩ | rfl
  · exact .inl ⟨hl, hu⟩
  · exact .inr (.inl ⟨hl, hu⟩)
  · exact .inr (.inr rfl)

theorem toNat_of_isScopeChar {c : Char} (h : isScopeChar c = true) :
    (97 ≤ c.toNat ∧ c.toNat ≤ 122) ∨ (48 ≤ c.toNat ∧ c.toNat ≤ 57) ∨ c.toNat = 45 ∨ c.toNat = 43 := by
  rw [isScopeChar, Bool.or_eq_true, beq_iff_eq] at h
  rcases h with h | rfl
  · have hregion := toNat_of_isRegionChar h
    omega
  · exact .inr (.inr (.inr rfl))

theorem notMem_of_isScopeChar {s : String} {b : UInt8} (h : ∀ c ∈ s.toList, isScopeChar c = true)
    (hb : isScopeChar (Char.ofNat b.toNat) = false) : b ∉ utf8 s := by
  refine notMem_utf8 fun c hc => ⟨?_, fun e => ?_⟩
  · have hs := toNat_of_isScopeChar (h c hc)
    omega
  · rw [← e, Char.ofNat_toNat, h c hc] at hb
    cases hb

theorem slash_notMem {s : String} (h : ∀ c ∈ s.toList, isScopeChar c = true) : (0x2F : UInt8) ∉ utf8 s :=
  notMem_of_isScopeChar h (by decide)

theorem isScopeChar_of_padded {w n : Nat} {c : Char} (h : c ∈ (Time.padded w n).toList) : isScopeChar c = true := by
  have hd : c.isDigit = true := by
    simp only [Time.padded, String.toList_ofList, List.mem_append, List.mem_replicate] at h
    rcases h with ⟨-, rfl⟩ | h
    · rfl
    · exact Nat.isDigit_of_mem_toDigits (by decide) (by decide) h
  simp only [Char.isDigit, Bool.and_eq_true, decide_eq_true_eq] at hd
  simp only [isScopeChar, Region.isRegionChar, Bool.or_eq_true, Bool.and_eq_true, decide_eq_true_eq]
  exact .inl (.inl (.inr ⟨hd.1, hd.2⟩))

theorem isScopeChar_of_formatDate {t : Time} {c : Char} (h : c ∈ t.formatDate.toList) : isScopeChar c = true := by
  have hy : ∀ y, c ∈ (Time.yearText y).toList → isScopeChar c = true := by
    intro y hy
    unfold Time.yearText at hy
    split at hy
    · exact isScopeChar_of_padded hy
    · rw [String.toList_append, List.mem_append] at hy
      rcases hy with hy | hy
      · split at hy <;> (obtain rfl := List.mem_singleton.1 hy; rfl)
      · exact isScopeChar_of_padded hy
  simp only [Time.formatDate, Time.dateText, String.toList_append, List.mem_append] at h
  rcases h with (((h | h) | h) | h) | h
  · exact hy _ h
  · simp at h
  · exact isScopeChar_of_padded h
  · simp at h
  · exact isScopeChar_of_padded h

theorem isScopeChar_of_region {s : String} (h : Region.isValid s = true) : ∀ c ∈ s.toList, isScopeChar c = true := by
  intro c hc
  simp only [Region.isValid, Bool.and_eq_true, List.all_eq_true] at h
  simp [isScopeChar, h.1.1.2 c hc]

/-! ## Reading tickets -/

theorem Issuer.read?_eq {i : Issuer} (hd : (0x2F : UInt8) ∉ i.date) (hr : (0x2F : UInt8) ∉ i.region)
    (hs : (0x2F : UInt8) ∉ i.service) : read? (i.accessKeyId ++ 0x2F :: i.scope) = some i := by
  have hend : (0x2F : UInt8) ∉ scopeEnd := by decide
  have hscope : Bytes.splitOn 0x2F i.scope = [i.date, i.region, i.service, scopeEnd] := by
    refine Bytes.splitOn_join (by simp) ?_
    simp only [List.forall_mem_cons]
    exact ⟨hd, hr, hs, hend, by simp⟩
  -- the access key may hold slashes: whatever precedes the four parts of the scope is put together again
  have hkey := Bytes.splitOn_ne_nil 0x2F i.accessKeyId
  have hjoin := Bytes.join_splitOn 0x2F i.accessKeyId
  rw [read?, Bytes.splitOn_append_cons, hscope, List.reverse_append]
  generalize Bytes.splitOn 0x2F i.accessKeyId = key at hkey hjoin ⊢
  rw [← List.reverse_reverse key] at hkey hjoin
  generalize key.reverse = yek at hkey hjoin ⊢
  cases yek with
  | nil => exact absurd rfl hkey
  | cons k ks =>
    rw [List.reverse_cons] at hjoin
    simp [hjoin]

theorem splitOn_nameList {names : List FieldName} (h : names ≠ []) :
    Bytes.splitOn 0x3B (nameList names) = names.map (·.bytes) := by
  refine Bytes.splitOn_join (by simpa using h) fun bs hbs => ?_
  obtain ⟨n, -, rfl⟩ := List.mem_map.1 hbs
  exact n.notMem (by decide)

/-- The issuer that a mandate signs as. -/
def issuerOf (m : Mandate) : Issuer :=
  ⟨utf8 m.credential.accessKeyId, m.scope.date, utf8 m.scope.region, utf8 m.scope.service⟩

theorem scope_issuerOf (m : Mandate) : (issuerOf m).scope = m.scope.bytes := by
  unfold Issuer.scope Scope.bytes
  rfl

theorem Issuer.read?_credentialText {m : Mandate} (hr : Region.isValid m.scope.region = true)
    (hs : (0x2F : UInt8) ∉ utf8 m.scope.service) : read? m.credentialText = some (issuerOf m) := by
  have hdate : (0x2F : UInt8) ∉ (issuerOf m).date := slash_notMem fun _ => isScopeChar_of_formatDate
  have hregion : (0x2F : UInt8) ∉ (issuerOf m).region := slash_notMem (isScopeChar_of_region hr)
  rw [Mandate.credentialText, ← scope_issuerOf]
  exact read?_eq hdate hregion hs

/-- Names and signature hold no comma, so the last two commas are those in front of them. -/
theorem Ticket.read?_parts {credential sig : Bytes} {i : Issuer} {names : List Bytes}
    (hi : Issuer.read? credential = some i) (hn : names ≠ [])
    (hnames : ∀ n ∈ names, (0x2C : UInt8) ∉ n ∧ (0x3B : UInt8) ∉ n) (hsig : (0x2C : UInt8) ∉ sig) :
    read? (algorithm ++ utf8 " Credential=" ++ credential ++ utf8 ", SignedHeaders=" ++ Bytes.join [0x3B] names ++
      utf8 ", Signature=" ++ sig) = some ⟨i, names, sig⟩ := by
  have hlist : (0x2C : UInt8) ∉ utf8 " SignedHeaders=" ++ Bytes.join [0x3B] names := by
    rw [List.mem_append, not_or]
    refine ⟨by decide, fun hm => ?_⟩
    rcases Bytes.mem_join hm with hm | ⟨n, hn, hm⟩
    · exact absurd hm (by decide)
    · exact (hnames n hn).1 hm
  have hsignature : (0x2C : UInt8) ∉ utf8 " Signature=" ++ sig := by
    rw [List.mem_append, not_or]
    exact ⟨by decide, hsig⟩
  have htext : algorithm ++ utf8 " Credential=" ++ credential ++ utf8 ", SignedHeaders=" ++ Bytes.join [0x3B] names ++
      utf8 ", Signature=" ++ sig = utf8 "AWS4-HMAC-SHA256 Credential=" ++ credential ++
        0x2C :: (utf8 " SignedHeaders=" ++ Bytes.join [0x3B] names ++ 0x2C :: (utf8 " Signature=" ++ sig)) := by
    have h1 : utf8 "AWS4-HMAC-SHA256 Credential=" = algorithm ++ utf8 " Credential=" := by decide
    have h2 : utf8 ", SignedHeaders=" = 0x2C :: utf8 " SignedHeaders=" := by decide
    have h3 : utf8 ", Signature=" = 0x2C :: utf8 " Signature=" := by decide
    simp [h1, h2, h3]
  rw [read?, htext, Bytes.splitOn_append_cons, Bytes.splitOn_append_cons, Bytes.splitOn_of_notMem hlist,
    Bytes.splitOn_of_notMem hsignature]
  simp only [List.reverse_append, List.reverse_cons, List.reverse_nil, List.nil_append, List.cons_append,
    List.reverse_reverse, Bytes.join_splitOn, after?_append, Option.bind_some, hi, Option.bind_eq_bind,
    Bytes.splitOn_join hn fun n hm => (hnames n hm).2]

theorem notMem_names {names : List FieldName} :
    ∀ n ∈ names.map (·.bytes), (0x2C : UInt8) ∉ n ∧ (0x3B : UInt8) ∉ n := by
  rw [List.forall_mem_map]
  exact fun n _ => ⟨n.notMem (by decide), n.notMem (by decide)⟩

theorem Ticket.read?_authorizationText {m : Mandate} {names : List FieldName} {sig : Bytes}
    (hi : Issuer.read? m.credentialText = some (issuerOf m)) (hn : names ≠ []) (hsig : (0x2C : UInt8) ∉ sig) :
    read? (m.authorizationText names sig) = some ⟨issuerOf m, names.map (·.bytes), sig⟩ :=
  read?_parts hi (by simpa using hn) notMem_names hsig

theorem Ticket.ofPairs?_parameters {m : Mandate} {names : List FieldName} (sig : Bytes) (expiry : Nat)
    (hi : Issuer.read? m.credentialText = some (issuerOf m)) (hn : names ≠ []) :
    ofPairs? (m.parameters expiry names) sig = some (⟨issuerOf m, names.map (·.bytes), sig⟩, m.scope.stamp) := by
  have hc : (m.parameters expiry names).lookup (utf8 "X-Amz-Credential") = some m.credentialText := rfl
  have hs : (m.parameters expiry names).lookup (utf8 "X-Amz-SignedHeaders") = some (nameList names) := rfl
  have hd : (m.parameters expiry names).lookup (utf8 "X-Amz-Date") = some m.scope.stamp := rfl
  simp only [ofPairs?, hc, hs, hd, Option.bind_some, hi, Option.bind_eq_bind, splitOn_nameList hn]

end SigV4.Verifier
