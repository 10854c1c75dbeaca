import SigV4.Proofs.Aftermath
import SigV4.Proofs.Coverage
/-!
# When no signature is made

A request is signed unless one of a few things stands in the way: a missing authority, a value that is no
text, an access key that no field may hold, a URI that gets too long. Each of them is told by the request and
the credential alone. Neither the body nor the time nor the signature has an influence.
-/

namespace SigV4

open Http Canonical

/-! ## Characters and bytes -/

/-- A tab, a space or a visible ASCII character. -/
def Http.isTextChar (c : Char) : Bool := c.toNat == 0x09 || (0x20 ≤ c.toNat && c.toNat ≤ 0x7E)

/-- A character that a field value may hold: any but the controls, of which it may hold the tab. -/
def Http.isValueChar (c : Char) : Bool := c.toNat == 0x09 || (0x20 ≤ c.toNat && c.toNat != 0x7F)

theorem Http.isTextChar_iff (c : Char) :
    isTextChar c = true ↔ c.toNat = 0x09 ∨ 0x20 ≤ c.toNat ∧ c.toNat ≤ 0x7E := by
  simp [isTextChar]

theorem Http.isValueChar_iff (c : Char) :
    isValueChar c = true ↔ c.toNat = 0x09 ∨ 0x20 ≤ c.toNat ∧ c.toNat ≠ 0x7F := by
  simp [isValueChar]

theorem Http.isTextByte_iff (b : UInt8) : isTextByte b = true ↔ b.toNat = 0x09 ∨ 0x20 ≤ b.toNat ∧ b.toNat ≤ 0x7E := by
  simp [isTextByte, UInt8.le_iff_toNat_le, UInt8.lt_iff_toNat_lt, ← UInt8.toNat_inj]
  omega

theorem Http.isValueByte_iff (b : UInt8) : isValueByte b = true ↔ b.toNat = 0x09 ∨ 0x20 ≤ b.toNat ∧ b.toNat ≠ 0x7F := by
  simp [isValueByte, UInt8.le_iff_toNat_le, ← UInt8.toNat_inj]
  omega

theorem Http.isText_iff_ascii {b : UInt8} (h : isValueByte b = true) : isTextByte b = true ↔ b < 0x80 := by
  rw [isValueByte_iff] at h
  rw [isTextByte_iff, UInt8.lt_iff_toNat_lt]
  change _ ↔ b.toNat < 0x80
  omega

theorem Http.all_isValueByte_of_isText {bs : Bytes} (h : bs.all isTextByte = true) : bs.all isValueByte = true := by
  rw [List.all_eq_true] at h ⊢
  intro b hb
  have ht := (isTextByte_iff b).1 (h b hb)
  rw [isValueByte_iff]
  omega

/-- What is asked of each byte of a text can be asked of its characters. The bytes of a character that is not ASCII
are not ASCII either. -/
theorem all_utf8 {p : UInt8 → Bool} {q : Char → Bool}
    (hascii : ∀ (c : Char) (b : UInt8), b.toNat = c.toNat → (p b = true ↔ q c = true))
    (hrest : ∀ (c : Char) (b : UInt8), 0x80 ≤ c.toNat → 0x80 ≤ b.toNat → (p b = true ↔ q c = true)) (s : String) :
    (utf8 s).all p = true ↔ ∀ c ∈ s.toList, q c = true := by
  rw [utf8, List.all_flatMap, List.all_eq_true]
  apply forall₂_congr
  intro c _
  rw [List.all_eq_true]
  rcases Utf8.utf8EncodeChar_cases c with ⟨hlt, hone⟩ | ⟨hge, hne, hbytes⟩
  · rw [hone, List.forall_mem_singleton]
    exact hascii c _ (UInt8.toNat_ofNat_of_lt' (Nat.lt_trans hlt (by decide)))
  · have hbyte : ∀ b ∈ String.utf8EncodeChar c, (p b = true ↔ q c = true) :=
      fun b hb => hrest c b hge (UInt8.le_iff_toNat_le.1 (hbytes b hb))
    constructor
    · intro h
      obtain ⟨b, hb⟩ := List.exists_mem_of_ne_nil _ hne
      exact (hbyte b hb).1 (h b hb)
    · intro h b hb
      exact (hbyte b hb).2 h

theorem Http.isText_utf8 (s : String) :
    (utf8 s).all isTextByte = true ↔ ∀ c ∈ s.toList, isTextChar c = true := by
  apply all_utf8
  · intro c b hb
    rw [isTextByte_iff, isTextChar_iff, hb]
  · intro c b hc hb
    rw [isTextByte_iff, isTextChar_iff]
    omega

theorem Http.isValue_utf8 (s : String) :
    (utf8 s).all isValueByte = true ↔ ∀ c ∈ s.toList, isValueChar c = true := by
  apply all_utf8
  · intro c b hb
    rw [isValueByte_iff, isValueChar_iff, hb]
  · intro c b hc hb
    rw [isValueByte_iff, isValueChar_iff]
    omega

theorem Http.FieldValue.isText_iff (v : FieldValue) : v.bytes.all isTextByte = true ↔ ∀ b ∈ v.bytes, b < 0x80 := by
  rw [List.all_eq_true]
  apply forall₂_congr
  intro b hb
  exact isText_iff_ascii (List.all_eq_true.1 v.valid b hb)

theorem Http.FieldValue.isText_trim (v : FieldValue) :
    v.trim.bytes.all isTextByte = true ↔ v.bytes.all isTextByte = true := by
  rw [isText_iff_words, words_trim, ← isText_iff_words]

/-! ## Times and scopes are texts -/

theorem Verifier.isTextChar_of_isScopeChar {c : Char} (h : isScopeChar c = true) : isTextChar c = true := by
  have hc := toNat_of_isScopeChar h
  rw [isTextChar_iff]
  omega

theorem Scope.isText_stamp (x : Scope) : x.stamp.all isTextByte = true := by
  unfold stamp
  rw [isText_utf8]
  intro c hc
  have hpadded : ∀ w n, c ∈ (Time.padded w n).toList → isTextChar c = true :=
    fun w n h => Verifier.isTextChar_of_isScopeChar (Verifier.isScopeChar_of_padded h)
  simp only [Time.formatIso8601, Time.clockText, String.toList_append, List.mem_append] at hc
  rcases hc with ((hc | hc) | ((((hc | hc) | hc) | hc) | hc)) | hc
  · exact Verifier.isTextChar_of_isScopeChar (Verifier.isScopeChar_of_formatDate hc)
  · obtain rfl := List.mem_singleton.1 hc
    rfl
  · exact hpadded _ _ hc
  · cases hc
  · exact hpadded _ _ hc
  · cases hc
  · exact hpadded _ _ hc
  · obtain rfl := List.mem_singleton.1 hc
    rfl

theorem Scope.isValue_bytes {x : Scope} (hr : Region.isValid x.region = true)
    (hs : (utf8 x.service).all isValueByte = true) : x.bytes.all isValueByte = true := by
  have hscope : ∀ s : String, (∀ c ∈ s.toList, Verifier.isScopeChar c = true) → (utf8 s).all isValueByte = true := by
    intro s h
    apply all_isValueByte_of_isText
    rw [isText_utf8]
    exact fun c hc => Verifier.isTextChar_of_isScopeChar (h c hc)
  have hdate : x.date.all isValueByte = true := hscope x.time.formatDate fun _ => Verifier.isScopeChar_of_formatDate
  have hregion : (utf8 x.region).all isValueByte = true := hscope x.region (Verifier.isScopeChar_of_region hr)
  have hend : scopeEnd.all isValueByte = true := by decide
  have hslash : isValueByte 0x2F = true := by decide
  simp only [bytes, Bytes.join, List.all_append, List.all_cons, List.all_nil, hdate, hregion, hs, hend, hslash,
    Bool.and_self]

/-! ## Admitted URIs -/

/-- A URI whose path and query were read from somewhere. -/
def Http.Uri.IsAdmitted : Uri → Prop
  | .path t | .full _ _ t => ∃ bs, Target.read bs = .ok t
  | .server _ => True

theorem Http.Target.read_asterisk : read (utf8 "*") = .ok .asterisk := by decide +kernel

theorem Http.Uri.isAdmitted_of_read? {bs : Bytes} {u : Uri} (h : read? bs = some u) : u.IsAdmitted := by
  unfold read? at h
  split at h
  · cases h
  split at h
  · obtain rfl := Option.some.inj h
    exact ⟨_, Target.read_asterisk⟩
  split at h
  · split at h
    · rename_i t ht
      obtain rfl := Option.some.inj h
      exact ⟨bs, ht⟩
    · cases h
  split at h
  · rename_i scheme rest _
    unfold readFull? at h
    split at h
    · cases h
    rw [Option.bind_eq_bind, Option.bind_eq_some_iff] at h
    obtain ⟨a, -, h⟩ := h
    split at h
    · rename_i t ht
      obtain rfl := Option.some.inj h
      exact ⟨_, ht⟩
    · cases h
  · obtain ⟨a, -, rfl⟩ := Option.map_eq_some_iff.1 h
    trivial

/-- A path starts with a slash, unless it is an asterisk and all there is. -/
theorem Http.Target.shownPath_of_read {bs : Bytes} {t : Target} (h : read bs = .ok t) :
    t.shownPath.head? = some 0x2F ∨ (t.path = [0x2A] ∧ t.query = none) := by
  obtain ⟨hpath, hquery⟩ := read_eq_ok h
  have hstart : startsPath bs = true := by
    unfold read at h
    split at h
    · cases h
    split at h
    · cases h
    · rename_i hs
      simpa using hs
  unfold startsPath at hstart
  split at hstart
  · left
    rw [shownPath, hpath]
    rfl
  · right
    exact ⟨hpath, hquery⟩
  · rename_i b rest _
    left
    rw [Bool.or_eq_true, Bool.or_eq_true, beq_iff_eq, beq_iff_eq, beq_iff_eq] at hstart
    rw [shownPath, hpath]
    rcases hstart with (rfl | rfl) | rfl <;> rfl

/-- The path of a request that was taken apart starts with a slash, unless it is an asterisk without pairs. -/
theorem SigningRequest.path_of_isAdmitted {r : Request} {s : SigningRequest} (hr : r.uri.IsAdmitted)
    (h : ofRequest? r = some s) : s.path.head? = some 0x2F ∨ (s.path = [0x2A] ∧ s.query = []) := by
  unfold ofRequest? at h
  split at h
  · cases h
  · rw [← Option.some.inj h]
    exact .inl rfl
  · rename_i scheme a t hu
    rw [hu] at hr
    obtain ⟨bs, hbs⟩ := hr
    rw [← Option.some.inj h]
    rcases Target.shownPath_of_read hbs with hhead | ⟨hpath, hquery⟩
    · exact .inl hhead
    · refine .inr ⟨?_, ?_⟩
      · simp only [Target.shownPath, hpath, List.isEmpty_cons, Bool.false_eq_true, if_false]
      · simp only [hquery, Option.map_none, Option.getD_none]

namespace SigningRequest

/-- The path with the encoded pairs behind it. -/
def wire (s : SigningRequest) (pairs : List Form.Pair) : Bytes := targetBytes { s with query := encodeQuery pairs }

theorem startsPath_wire (s : SigningRequest) (hs : s.path.head? = some 0x2F ∨ (s.path = [0x2A] ∧ s.query = [])) :
    Target.startsPath (s.wire s.query) = true := by
  rcases hs with hhead | ⟨hpath, hquery⟩
  · exact startsPath_targetBytes (s := { s with query := encodeQuery s.query }) hhead
  · have hnone : encodeQuery [] = [] := by simp [encodeQuery]
    have hwire : s.wire s.query = [0x2A] := by
      rw [wire, targetBytes, hquery, hnone]
      exact hpath
    rw [hwire]
    rfl

theorem length_wire_le (s : SigningRequest) (pairs : List Form.Pair) :
    (s.wire pairs).length ≤ s.path.length + 1 + (Bytes.join [0x26] (pairs.map Form.written)).length :=
  length_targetBytes (s := { s with query := encodeQuery pairs }) (encodeQuery_eq pairs) (sortPairs_perm pairs)

/-- One pair more behind others. -/
theorem targetBytes_pushPair {s : SigningRequest} (hs : s.query ≠ []) (key value : Bytes) :
    (s.pushPair key value).targetBytes = s.targetBytes ++ 0x26 :: writePair (key, value) := by
  have hpairs : s.query.map writePair ≠ [] := by simpa using hs
  have hmore : ¬ (s.query ++ [(key, value)]).isEmpty = true := by simp
  have hsome : ¬ s.query.isEmpty = true := by simpa using hs
  unfold targetBytes pushPair
  simp only
  rw [if_neg hmore, if_neg hsome, List.map_append, Bytes.join_append _ hpairs (by simp)]
  simp

end SigningRequest

/-! ## Texts to sign -/

namespace Mandate

variable {m : Mandate} {r : Request} {taken prepared : SigningRequest}

theorem fault_eq_none_iff :
    (m.sign r).fault = none ↔ ∃ taken prepared text sent, m.Signed r taken prepared text sent := by
  constructor
  · intro h
    obtain ⟨taken, prepared, text, sent, hsigned, -⟩ := sign_ok h
    exact ⟨taken, prepared, text, sent, hsigned⟩
  · rintro ⟨taken, prepared, text, sent, hsigned⟩
    rw [hsigned.sign_eq]

theorem exists_prepared_iff :
    (∃ prepared, m.prepare taken = .ok prepared) ↔ ∀ p ∈ m.fresh, ∀ bs ∈ p.2, bs.all isValueByte = true := by
  have hvalue : ∀ bs, bs.all isValueByte = true ↔ ∃ v, FieldValue.ofBytes? bs = some v := by
    intro bs
    by_cases h : bs.all isValueByte = true <;> simp [FieldValue.ofBytes?, h]
  have hprepared : (∃ prepared, m.prepare taken = .ok prepared) ↔
      ∃ h, m.signedHeader taken.authority taken.header = .ok h := by
    simp only [prepare_eq_ok]
    constructor
    · rintro ⟨-, h, hs, -⟩
      exact ⟨h, hs⟩
    · rintro ⟨h, hs⟩
      exact ⟨_, h, hs, rfl⟩
  rw [hprepared]
  unfold signedHeader fresh
  cases m.placement with
  | query expiry => simp
  | header =>
    simp only [stampHeader_eq_ok, List.forall_mem_cons, hvalue]
    cases m.credential.sessionToken with
    | none => simp
    | some token => simp

/-- The names whose values are not those of the request, or are not signed. -/
def set (m : Mandate) : List FieldName := .authorization :: (m.fresh.map Prod.fst ++ unsignedNames)

theorem readable_iff (hp : m.prepare taken = .ok prepared) :
    Readable prepared.header ↔ (∀ p ∈ m.fresh, ∀ bs ∈ p.2, bs.all isTextByte = true) ∧
      ∀ n, n ∉ m.set → ∀ v ∈ taken.header.values n, v.bytes.all isTextByte = true := by
  have hread : Readable prepared.header ↔
      ∀ n, n ∉ unsignedNames → ∀ bs ∈ m.bytesOf taken.authority taken.header n, bs.all isTextByte = true := by
    constructor
    · intro h n hn bs hbs
      rw [← values_prepared hp n] at hbs
      obtain ⟨v, hv, rfl⟩ := List.mem_map.1 hbs
      exact h n (mem_signedNames.2 ⟨List.ne_nil_of_mem hv, hn⟩) v hv
    · intro h n hn v hv
      apply h n (mem_signedNames.1 hn).2
      rw [← values_prepared hp n]
      exact List.mem_map_of_mem hv
  rw [hread]
  constructor
  · intro h
    constructor
    · intro p hp bs hbs
      have hsigned : p.1 ∉ unsignedNames := List.not_mem_of_not_mem_cons (signed_of_mem_fresh (List.mem_map_of_mem hp))
      apply h p.1 hsigned
      rw [bytesOf_fresh hp]
      exact hbs
    · intro n hn v hv
      rw [set, List.mem_cons, List.mem_append, not_or, not_or] at hn
      obtain ⟨hauth, hfresh, hsigned⟩ := hn
      rw [← v.isText_trim]
      apply h n hsigned
      rw [bytesOf_free hauth hfresh, if_neg (by rintro ⟨rfl, hnone⟩; rw [hnone] at hv; cases hv)]
      exact List.mem_map_of_mem hv
  · rintro ⟨hfresh, hrest⟩ n hn bs hbs
    by_cases hauth : n = .authorization
    · rw [bytesOf, if_pos hauth] at hbs
      cases hbs
    by_cases hset : n ∈ m.fresh.map Prod.fst
    · obtain ⟨p, hp, rfl⟩ := List.mem_map.1 hset
      rw [bytesOf_fresh hp] at hbs
      exact hfresh p hp bs hbs
    rw [bytesOf_free hauth hset] at hbs
    split at hbs
    · rw [List.mem_singleton.1 hbs, List.all_eq_true]
      exact fun b hb => (Authority.value_of_mem hb).2.1
    · obtain ⟨v, hv, rfl⟩ := List.mem_map.1 hbs
      rw [v.isText_trim]
      apply hrest n _ v hv
      rw [set, List.mem_cons, List.mem_append, not_or, not_or]
      exact ⟨hauth, hset, hn⟩

theorem exists_text_iff : (∃ prepared text, m.prepare taken = .ok prepared ∧ request? prepared = some text) ↔
    (∀ p ∈ m.fresh, ∀ bs ∈ p.2, bs.all isTextByte = true) ∧
      ∀ n, n ∉ m.set → ∀ v ∈ taken.header.values n, v.bytes.all isTextByte = true := by
  constructor
  · rintro ⟨prepared, text, hp, ht⟩
    exact (readable_iff hp).1 (request?_eq_some.1 ht).1
  · rintro ⟨hfresh, hrest⟩
    obtain ⟨prepared, hp⟩ : ∃ prepared, m.prepare taken = .ok prepared :=
      exists_prepared_iff.2 fun p hp bs hbs => all_isValueByte_of_isText (hfresh p hp bs hbs)
    have hread := (readable_iff hp).2 ⟨hfresh, hrest⟩
    obtain ⟨payload, hpayload⟩ := exists_payloadHash? hread
    exact ⟨prepared, _, hp, request?_eq_some.2 ⟨hread, payload, hpayload, rfl⟩⟩

/-! ## Signatures put in their place -/

theorem isValue_nameList (names : List FieldName) : (nameList names).all isValueByte = true := by
  rw [List.all_eq_true]
  intro b hb
  rcases Bytes.mem_join hb with hb | ⟨bs, hbs, hb⟩
  · rw [List.mem_singleton.1 hb]
    decide
  · obtain ⟨n, -, rfl⟩ := List.mem_map.1 hbs
    exact (FieldName.value_of_mem hb).2

/-- Only the access key can keep an `authorization` from being a field value. -/
theorem isValue_authorizationText (hscope : m.scope.bytes.all isValueByte = true) (names : List FieldName) {sig : Bytes}
    (hsig : sig.all Hex.isLowerHex = true) :
    (m.authorizationText names sig).all isValueByte = true ↔
      (utf8 m.credential.accessKeyId).all isValueByte = true := by
  have halgorithm : algorithm.all isValueByte = true := by decide
  have h1 : (utf8 " Credential=").all isValueByte = true := by decide
  have h2 : (utf8 ", SignedHeaders=").all isValueByte = true := by decide
  have h3 : (utf8 ", Signature=").all isValueByte = true := by decide
  have hslash : isValueByte 0x2F = true := by decide
  have hsignature : sig.all isValueByte = true :=
    List.all_eq_true.2 fun b hb => (plain_of_isLowerHex hsig b hb).2.2.1
  simp only [authorizationText, credentialText, List.all_append, List.all_cons, halgorithm, h1, h2, h3, hslash, hscope,
    hsignature, isValue_nameList, Bool.true_and, Bool.and_true]

/-- A signature goes into the header unless the access key or the length of the URI keeps it out. -/
theorem exists_sent_header_iff (hm : m.placement = .header) (ht : SigningRequest.ofRequest? r = some taken)
    (hp : m.prepare taken = .ok prepared) (hr : r.uri.IsAdmitted) (hscope : m.scope.bytes.all isValueByte = true)
    {sig : Bytes} (hsig : sig.all Hex.isLowerHex = true) :
    (∃ sent, (m.attach prepared sig >>= SigningRequest.toRequest) = .ok sent) ↔
      (utf8 m.credential.accessKeyId).all isValueByte = true ∧ (taken.wire taken.query).length ≤ longestUri := by
  have htext := isValue_authorizationText hscope (signedNames prepared.header) hsig
  obtain ⟨-, -, -, hpath⟩ := prepare_rest hp
  have hquery : prepared.query = encodeQuery taken.query := by
    rw [prepare_query hp, signedPairs_header hm]
  -- the fields have no influence on the URI
  have hbytes : ∀ h, SigningRequest.targetBytes { prepared with header := h } = taken.wire taken.query := by
    intro h
    simp only [SigningRequest.wire, SigningRequest.targetBytes, hpath, hquery]
  have hsent : ∀ h, (∃ sent, SigningRequest.toRequest { prepared with header := h } = .ok sent) ↔
      (taken.wire taken.query).length ≤ longestUri := by
    intro h
    have hencoded : prepared.query = (sortPairs taken.query).map encodePair := by rw [hquery, encodeQuery_eq]
    have hvalid : Target.isPath prepared.path = true := hpath ▸ SigningRequest.isPath_of_ofRequest? ht
    rw [SigningRequest.exists_toRequest_iff (s := { prepared with header := h }) hencoded hvalid, hbytes]
    exact and_iff_left (taken.startsPath_wire (SigningRequest.path_of_isAdmitted hr ht))
  constructor
  · rintro ⟨sent, hs⟩
    cases ha : m.attach prepared sig with
    | error f =>
      rw [ha] at hs
      cases hs
    | ok q =>
      rw [ha] at hs
      obtain ⟨v, hv, rfl⟩ := attach_header_ok hm ha
      exact ⟨htext.1 (hv ▸ v.valid), (hsent _).1 ⟨sent, hs⟩⟩
  · rintro ⟨hkey, hl⟩
    rw [attach_of_value hm (rfl : FieldValue.bytes ⟨_, htext.2 hkey⟩ = _)]
    exact (hsent _).2 hl

/-- A signature goes into a URI that has a path and does not get too long: with its key it is 81 bytes. -/
theorem exists_sent_query_iff {expiry : Nat} (hm : m.placement = .query expiry)
    (ht : SigningRequest.ofRequest? r = some taken) (hp : m.prepare taken = .ok prepared) (hr : r.uri.IsAdmitted)
    {sig : Bytes} (hlen : sig.length = 64) (hsig : sig.all Hex.isLowerHex = true) :
    (∃ sent, (m.attach prepared sig >>= SigningRequest.toRequest) = .ok sent) ↔
      taken.path ≠ [0x2A] ∧ (taken.wire (m.signedPairs taken prepared)).length + 81 ≤ longestUri := by
  obtain ⟨-, -, -, hpath⟩ := prepare_rest hp
  have hquery := prepare_query hp
  have hne : prepared.query ≠ [] := by
    rw [hquery, encodeQuery_eq, Ne, List.map_eq_nil_iff]
    intro e
    have hpairs : m.signedPairs taken prepared ≠ [] := by simp [signedPairs, added, hm, parameters]
    exact hpairs (e ▸ sortPairs_perm _).symm.eq_nil
  have hbytes : prepared.targetBytes = taken.wire (m.signedPairs taken prepared) := by
    simp only [SigningRequest.wire, SigningRequest.targetBytes, hpath, hquery]
  have hsignature : (SigningRequest.writePair (utf8 "X-Amz-Signature", sig)).length = 80 := by
    have hkey : (utf8 "X-Amz-Signature").length = 15 := by decide
    have hsome : ¬ sig.isEmpty = true := by
      intro e
      rw [List.isEmpty_iff.1 e] at hlen
      cases hlen
    rw [SigningRequest.writePair, if_neg hsome, List.length_append, List.length_cons, hkey, hlen]
  have hencoded : (prepared.pushPair (utf8 "X-Amz-Signature") sig).query =
      (sortPairs (m.signedPairs taken prepared) ++ [signaturePair sig]).map encodePair := by
    rw [SigningRequest.pushPair, List.map_append, List.map_singleton, encodePair_signaturePair hsig, hquery,
      encodeQuery_eq]
    rfl
  have hvalid : Target.isPath (prepared.pushPair (utf8 "X-Amz-Signature") sig).path = true :=
    (hpath.symm ▸ SigningRequest.isPath_of_ofRequest? ht : Target.isPath prepared.path = true)
  rw [attach_query hm]
  change (∃ sent, (prepared.pushPair (utf8 "X-Amz-Signature") sig).toRequest = .ok sent) ↔ _
  rw [SigningRequest.exists_toRequest_iff hencoded hvalid, SigningRequest.targetBytes_pushPair hne,
    List.length_append, List.length_cons, hsignature, hbytes, and_comm]
  apply and_congr_left
  intro _
  constructor
  · intro hstart hasterisk
    rw [← hbytes, SigningRequest.targetBytes, if_neg (by simpa using hne), hpath, hasterisk] at hstart
    cases hstart
  · intro hasterisk
    rcases SigningRequest.path_of_isAdmitted hr ht with hhead | ⟨hlone, -⟩
    · have hstart : (prepared.pushPair (utf8 "X-Amz-Signature") sig).path.head? = some 0x2F := hpath.symm ▸ hhead
      have h := SigningRequest.startsPath_targetBytes hstart
      rwa [SigningRequest.targetBytes_pushPair hne, hbytes] at h
    · exact absurd hlone hasterisk

/-- There is no fault when there is a text to sign and a signature can be put in its place. -/
theorem fault_eq_none_iff_of_place {P : SigningRequest → Prop}
    (h : ∀ taken prepared sig, SigningRequest.ofRequest? r = some taken → m.prepare taken = .ok prepared →
      sig.length = 64 → sig.all Hex.isLowerHex = true →
        ((∃ sent, (m.attach prepared sig >>= SigningRequest.toRequest) = .ok sent) ↔ P taken)) :
    (m.sign r).fault = none ↔ ∃ taken, SigningRequest.ofRequest? r = some taken ∧
      (∀ p ∈ m.fresh, ∀ bs ∈ p.2, bs.all isTextByte = true) ∧
      (∀ n, n ∉ m.set → ∀ v ∈ taken.header.values n, v.bytes.all isTextByte = true) ∧ P taken := by
  rw [fault_eq_none_iff]
  constructor
  · rintro ⟨taken, prepared, text, sent, hsigned⟩
    obtain ⟨hfresh, hrest⟩ := exists_text_iff.1 ⟨prepared, text, hsigned.prepared_eq, hsigned.text_eq⟩
    refine ⟨taken, hsigned.taken_eq, hfresh, hrest, ?_⟩
    exact (h taken prepared _ hsigned.taken_eq hsigned.prepared_eq (length_signature _ _ _) (all_signature _ _ _)).1
      ⟨sent, hsigned.sent_eq⟩
  · rintro ⟨taken, ht, hfresh, hrest, hplace⟩
    obtain ⟨prepared, text, hp, htext⟩ := exists_text_iff.2 ⟨hfresh, hrest⟩
    obtain ⟨sent, hsent⟩ := (h taken prepared _ ht hp (length_signature m.scope m.credential.secretAccessKey
      (m.scope.stringToSign text)) (all_signature _ _ _)).2 hplace
    exact ⟨taken, prepared, text, sent, ht, hp, htext, hsent⟩

end Mandate

/-! ## Signers -/

namespace Signer

variable {s : Signer} {now : Time} {r : Request}

theorem isValue_scope (s : Signer) (now : Time) : (s.scope now).bytes.all isValueByte = true := by
  have hservice : (utf8 service).all isValueByte = true := by decide
  exact Scope.isValue_bytes s.region_valid hservice

theorem isText_hex (digest : Bytes) : (FieldValue.hex digest).bytes.all isTextByte = true := by
  rw [FieldValue.isText_iff]
  exact fun b hb => (Mandate.plain_of_isLowerHex (Hex.all_encode digest) b hb).2.1

/-- The header that is signed has the hash of the body in place of what the request had there. -/
theorem isText_withPayloadHash (s : Signer) (now : Time) (r : Request) (body : Bytes) :
    (∀ n, n ∉ (Mandate.mk s.credential (s.scope now) .header).set →
      ∀ v ∈ (withPayloadHash r body).header.values n, v.bytes.all isTextByte = true) ↔
    ∀ n, n ∉ [.authorization, .amzDate, .amzContentSha256, .amzSecurityToken, .expect, .userAgent, .amznTraceId] →
      ∀ v ∈ r.header.values n, ∀ b ∈ v.bytes, b < 0x80 := by
  have hset : (Mandate.mk s.credential (s.scope now) .header).set =
      [.authorization, .amzDate, .amzSecurityToken, .expect, .userAgent, .amznTraceId] := rfl
  rw [hset]
  simp only [List.mem_cons, List.not_mem_nil, or_false, not_or]
  constructor
  · rintro h n ⟨hauth, hdate, hhash, hrest⟩ v hv
    rw [← FieldValue.isText_iff]
    apply h n ⟨hauth, hdate, hrest⟩ v
    rwa [withPayloadHash, Header.values_set, if_neg (Ne.symm hhash)]
  · rintro h n ⟨hauth, hdate, hrest⟩ v hv
    rw [withPayloadHash, Header.values_set] at hv
    split at hv
    · rw [List.mem_singleton.1 hv]
      exact isText_hex _
    · rename_i hhash
      rw [FieldValue.isText_iff]
      exact h n ⟨hauth, hdate, Ne.symm hhash, hrest⟩ v hv

theorem isText_fresh (s : Signer) (now : Time) :
    (∀ p ∈ (Mandate.mk s.credential (s.scope now) .header).fresh, ∀ bs ∈ p.2, bs.all isTextByte = true) ↔
      ∀ token, s.credential.sessionToken = some token → ∀ c ∈ token.toList, isTextChar c = true := by
  have hstamp := (s.scope now).isText_stamp
  simp only [← isText_utf8, Mandate.fresh, List.forall_mem_cons, hstamp]
  cases s.credential.sessionToken <;> simp

/-- When a signature in the header is made. -/
theorem fault_sign_iff (hr : r.uri.IsAdmitted) (body : Bytes) :
    (s.sign now r body).fault = none ↔ ∃ taken, SigningRequest.ofRequest? r = some taken ∧
      (∀ token, s.credential.sessionToken = some token → ∀ c ∈ token.toList, isTextChar c = true) ∧
      (∀ n, n ∉ [.authorization, .amzDate, .amzContentSha256, .amzSecurityToken, .expect, .userAgent, .amznTraceId] →
        ∀ v ∈ r.header.values n, ∀ b ∈ v.bytes, b < 0x80) ∧
      (∀ c ∈ s.credential.accessKeyId.toList, isValueChar c = true) ∧
      (taken.wire taken.query).length ≤ longestUri := by
  have hsign := Mandate.fault_eq_none_iff_of_place (m := ⟨s.credential, s.scope now, .header⟩)
    (r := withPayloadHash r body) fun taken prepared sig ht hp _ hsig =>
      Mandate.exists_sent_header_iff rfl ht hp hr (isValue_scope s now) hsig
  rw [isText_fresh, isValue_utf8] at hsign
  refine hsign.trans ?_
  constructor
  · rintro ⟨taken, ht, htoken, hfields, hkey, hl⟩
    rw [SigningRequest.header_of_ofRequest? ht, isText_withPayloadHash] at hfields
    have ht' : SigningRequest.ofRequest? r = some { taken with header := r.header } :=
      SigningRequest.ofRequest?_congr ht rfl rfl
    exact ⟨_, ht', htoken, hfields, hkey, hl⟩
  · rintro ⟨taken, ht, htoken, hfields, hkey, hl⟩
    have ht' : SigningRequest.ofRequest? (withPayloadHash r body) =
        some { taken with header := (withPayloadHash r body).header } := SigningRequest.ofRequest?_congr ht rfl rfl
    refine ⟨_, ht', htoken, ?_, hkey, hl⟩
    rw [SigningRequest.header_of_ofRequest? ht', isText_withPayloadHash]
    exact hfields

theorem isAdmitted_plain : plain.uri.IsAdmitted := ⟨utf8 "/", by decide +kernel⟩

/-- The request with an authority and nothing else is signed for whoever has a key that a field may hold. -/
theorem fault_sign_plain (htoken : s.credential.sessionToken = none)
    (hkey : s.credential.accessKeyId.toList.all isValueChar = true) {body : Bytes} :
    (s.sign now plain body).fault = none := by
  rw [fault_sign_iff isAdmitted_plain]
  refine ⟨_, rfl, ?_, ?_, List.all_eq_true.1 hkey, ?_⟩
  · intro token ht
    rw [htoken] at ht
    cases ht
  · intro n _ v hv
    cases hv
  · exact Nat.le_trans (SigningRequest.length_wire_le _ _) (by decide)

/-- When a signature in the URI is made. -/
theorem fault_presign_iff (hr : r.uri.IsAdmitted) (nanos : Nat) :
    (s.presign now r nanos).fault = none ↔ isExpiry nanos = true ∧ ∃ taken, SigningRequest.ofRequest? r = some taken ∧
      (∀ n, n ∉ [.authorization, .expect, .userAgent, .amznTraceId] →
        ∀ v ∈ r.header.values n, ∀ b ∈ v.bytes, b < 0x80) ∧
      taken.path ≠ utf8 "*" ∧
      (taken.wire (taken.query ++ s.parameterPairs now (nanos / nanosPerSecond)
        (signedNames (Mandate.withHost taken.authority r.header)))).length + 81 ≤ longestUri := by
  have hasterisk : utf8 "*" = [0x2A] := by decide
  unfold presign
  simp only
  by_cases he : isExpiry nanos = true
  · let m : Mandate := ⟨s.credential, s.scope now, .query (nanos / nanosPerSecond)⟩
    have hpairs : ∀ taken prepared, SigningRequest.ofRequest? r = some taken → m.prepare taken = .ok prepared →
        m.signedPairs taken prepared = taken.query ++ s.parameterPairs now (nanos / nanosPerSecond)
          (signedNames (Mandate.withHost taken.authority r.header)) := by
      intro taken prepared ht hp
      have hheader : Mandate.withHost taken.authority taken.header = prepared.header :=
        Except.ok.inj (Mandate.prepare_header hp)
      rw [← SigningRequest.header_of_ofRequest? ht, hheader]
      rfl
    have hsign := Mandate.fault_eq_none_iff_of_place (m := m) (r := r)
      (P := fun taken => taken.path ≠ [0x2A] ∧ (taken.wire (taken.query ++ s.parameterPairs now
        (nanos / nanosPerSecond) (signedNames (Mandate.withHost taken.authority r.header)))).length + 81 ≤ longestUri)
      fun taken prepared sig ht hp hlen hsig => by
        rw [← hpairs taken prepared ht hp]
        exact Mandate.exists_sent_query_iff rfl ht hp hr hlen hsig
    have hset : m.set = [.authorization, .expect, .userAgent, .amznTraceId] := rfl
    rw [if_pos he, hasterisk]
    refine hsign.trans ?_
    rw [hset]
    constructor
    · rintro ⟨taken, ht, -, hfields, hplace⟩
      refine ⟨he, taken, ht, ?_, hplace⟩
      intro n hn v hv
      rw [← FieldValue.isText_iff]
      exact hfields n hn v (SigningRequest.header_of_ofRequest? ht ▸ hv)
    · rintro ⟨-, taken, ht, hfields, hplace⟩
      refine ⟨taken, ht, fun p hp => absurd hp List.not_mem_nil, ?_, hplace⟩
      intro n hn v hv
      rw [FieldValue.isText_iff]
      exact hfields n hn v (SigningRequest.header_of_ofRequest? ht ▸ hv)
  · rw [if_neg he]
    exact iff_of_false (Option.some_ne_none _) fun h => he h.1

/-! ## Causes -/

/-- What keeps a signer from signing a request in its header. -/
inductive CannotSign (s : Signer) (r : Request) : Prop
  | authority (h : r.uri.authority? = none)
  | token {token : String} {c : Char} (ht : s.credential.sessionToken = some token) (hc : c ∈ token.toList)
    (h : isTextChar c = false)
  | field {n : FieldName} {v : FieldValue} {b : UInt8}
    (hn : n ∉ [.authorization, .amzDate, .amzContentSha256, .amzSecurityToken, .expect, .userAgent, .amznTraceId])
    (hv : v ∈ r.header.values n) (hb : b ∈ v.bytes) (h : 0x80 ≤ b)
  | key {c : Char} (hc : c ∈ s.credential.accessKeyId.toList) (h : isValueChar c = false)
  | length {taken : SigningRequest} (ht : SigningRequest.ofRequest? r = some taken)
    (h : longestUri < (taken.wire taken.query).length)

/-- What keeps a signer from signing a request in its URI. The signature and its key are 81 bytes. -/
inductive CannotPresign (s : Signer) (now : Time) (r : Request) (nanos : Nat) : Prop
  | expiry (h : nanos < nanosPerSecond ∨ 604800 * nanosPerSecond < nanos)
  | authority (h : r.uri.authority? = none)
  | field {n : FieldName} {v : FieldValue} {b : UInt8}
    (hn : n ∉ [.authorization, .expect, .userAgent, .amznTraceId]) (hv : v ∈ r.header.values n) (hb : b ∈ v.bytes)
    (h : 0x80 ≤ b)
  | length {taken : SigningRequest} (ht : SigningRequest.ofRequest? r = some taken)
    (h : longestUri < (taken.wire (taken.query ++ s.parameterPairs now (nanos / nanosPerSecond)
      (signedNames (Mandate.withHost taken.authority r.header)))).length + 81)
  | asterisk {taken : SigningRequest} (ht : SigningRequest.ofRequest? r = some taken) (h : taken.path = utf8 "*")

theorem cannotSign_iff (hr : r.uri.IsAdmitted) (body : Bytes) : (s.sign now r body).fault ≠ none ↔ s.CannotSign r := by
  rw [Ne, fault_sign_iff hr]
  constructor
  · intro h
    by_contra hc
    cases ht : SigningRequest.ofRequest? r with
    | none => exact hc (.authority (SigningRequest.ofRequest?_eq_none.1 ht))
    | some taken =>
      refine h ⟨taken, ht, ?_, ?_, ?_, ?_⟩
      · intro token htoken c hmem
        by_contra hbad
        exact hc (.token htoken hmem (Bool.eq_false_iff.2 hbad))
      · intro n hn v hv b hb
        by_contra hbad
        exact hc (.field hn hv hb (UInt8.not_lt.1 hbad))
      · intro c hmem
        by_contra hbad
        exact hc (.key hmem (Bool.eq_false_iff.2 hbad))
      · by_contra hbad
        exact hc (.length ht (Nat.not_le.1 hbad))
  · rintro hc ⟨taken, ht, htoken, hfields, hkey, hl⟩
    cases hc with
    | authority h =>
      rw [← SigningRequest.ofRequest?_eq_none, ht] at h
      cases h
    | token htoken' hmem h =>
      rw [htoken _ htoken' _ hmem] at h
      cases h
    | field hn hv hb h => exact UInt8.not_lt.2 h (hfields _ hn _ hv _ hb)
    | key hmem h =>
      rw [hkey _ hmem] at h
      cases h
    | length ht' h =>
      obtain rfl := Option.some.inj (ht.symm.trans ht')
      exact Nat.not_lt.2 hl h

theorem cannotPresign_iff (hr : r.uri.IsAdmitted) (nanos : Nat) :
    (s.presign now r nanos).fault ≠ none ↔ s.CannotPresign now r nanos := by
  rw [Ne, fault_presign_iff hr, isExpiry_iff]
  constructor
  · intro h
    by_contra hc
    cases ht : SigningRequest.ofRequest? r with
    | none => exact hc (.authority (SigningRequest.ofRequest?_eq_none.1 ht))
    | some taken =>
      refine h ⟨?_, taken, ht, ?_, ?_, ?_⟩
      · by_contra hbad
        rw [not_and_or, Nat.not_le, Nat.not_le] at hbad
        exact hc (.expiry hbad)
      · intro n hn v hv b hb
        by_contra hbad
        exact hc (.field hn hv hb (UInt8.not_lt.1 hbad))
      · intro hbad
        exact hc (.asterisk ht hbad)
      · by_contra hbad
        exact hc (.length ht (Nat.not_le.1 hbad))
  · rintro hc ⟨hexpiry, taken, ht, hfields, hpath, hl⟩
    cases hc with
    | expiry h => omega
    | authority h =>
      rw [← SigningRequest.ofRequest?_eq_none, ht] at h
      cases h
    | field hn hv hb h => exact UInt8.not_lt.2 h (hfields _ hn _ hv _ hb)
    | length ht' h =>
      obtain rfl := Option.some.inj (ht.symm.trans ht')
      exact Nat.not_lt.2 hl h
    | asterisk ht' h =>
      obtain rfl := Option.some.inj (ht.symm.trans ht')
      exact hpath h

/-- A signature fails for one of a few causes, and for no other. Whatever the cause is, it is the request that is
said to be invalid. -/
theorem fault_has_cause {r : Request} (hr : r.uri.IsAdmitted) (s : Signer) (now : Time) :
    (∀ body, (s.sign now r body).fault ≠ none ↔ s.CannotSign r) ∧
      (∀ nanos, (s.presign now r nanos).fault ≠ none ↔ s.CannotPresign now r nanos) ∧
      (∀ body f, (s.sign now r body).fault = some f → f.error.kind = .requestInvalid) ∧
      ∀ nanos f, (s.presign now r nanos).fault = some f → f.error.kind = .requestInvalid :=
  ⟨fun body => cannotSign_iff hr body, fun nanos => cannotPresign_iff hr nanos, fun _ _ _ => rfl, fun _ _ _ => rfl⟩

theorem fault_has_cause_accented :
    plain.uri.IsAdmitted ∧ ¬ longTerm.CannotSign plain ∧
      accented.uri.IsAdmitted ∧ (longTerm.presign morning accented 60000000000).fault ≠ none := by
  have hplain := isAdmitted_plain
  have haccented : accented.uri.IsAdmitted := hplain
  have hsign : (longTerm.sign morning plain []).fault = none := fault_sign_plain rfl (by decide)
  refine ⟨hplain, ?_, haccented, ?_⟩
  · intro hc
    exact ((fault_has_cause hplain longTerm morning).1 []).2 hc hsign
  · rw [(fault_has_cause haccented longTerm morning).2.1]
    exact .field (n := .contentType) (b := 0xC3) (by decide) (List.mem_singleton.2 rfl) (by decide) (by decide)

/-- A signer with an access key that is not ASCII. -/
def foreign : Signer :=
  ⟨{ accessKeyId := "é", secretAccessKey := "secret" }, "eu-west-1", none, rfl, rfl⟩

/-- A request whose path is an asterisk. -/
def starred : Request := ⟨.get, .full .https .exampleCom .asterisk, {}⟩

/-- An access key may hold what is no text. And there is one more cause: an asterisk is no path for a URI that has a
query, whatever its length. -/
theorem foreign_key_signed :
    (∃ c ∈ foreign.credential.accessKeyId.toList, isTextChar c = false) ∧
      (foreign.sign morning plain []).fault = none ∧
      starred.uri.IsAdmitted ∧ (longTerm.presign morning starred 60000000000).fault ≠ none ∧
      isExpiry 60000000000 = true ∧ starred.uri.authority? = some .exampleCom ∧ starred.header = {} ∧
      ∃ taken, SigningRequest.ofRequest? starred = some taken ∧
        (taken.wire (taken.query ++ longTerm.parameterPairs morning 60 [.host])).length + 81 ≤ longestUri := by
  have hstarred : starred.uri.IsAdmitted := ⟨_, Target.read_asterisk⟩
  refine ⟨⟨'é', by decide, by decide⟩, fault_sign_plain rfl (by decide), hstarred, ?_, by decide, rfl, rfl, _, rfl,
    ?_⟩
  · rw [cannotPresign_iff hstarred]
    exact .asterisk rfl rfl
  · apply Nat.le_trans (Nat.add_le_add_right (SigningRequest.length_wire_le _ _) 81)
    decide +kernel

end Signer

end SigV4
