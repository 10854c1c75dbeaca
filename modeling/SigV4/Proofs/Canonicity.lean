import SigV4.Proofs.Prepared
/-!
# What a canonical request tells apart

Two requests have one canonical request exactly when they agree in method, normalised path, pairs,
signed names, canonical values and payload hash. So whatever a proxy may change can be changed:
`Alike` requests are signed alike. The blanks inside the declared payload hash are the exception, since
that value is shown a second time, as it is.
-/

namespace SigV4

open Http Canonical

namespace Mandate

/-- The canonical request that is signed. -/
def text? (m : Mandate) (r : SigningRequest) : Option Bytes := (m.prepare r).toOption.bind Canonical.request?

theorem text?_eq_some {m : Mandate} {r : SigningRequest} {t : Bytes} :
    m.text? r = some t ↔ ∃ p, m.prepare r = .ok p ∧ request? p = some t := by
  unfold text?
  cases m.prepare r <;> simp [Except.toOption]

/-- Equal canonical requests, part by part. -/
theorem text_eq_iff {m m' : Mandate} {r r' p p' : SigningRequest} {t t' : Bytes}
    (hp : m.prepare r = .ok p) (hp' : m'.prepare r' = .ok p') (ht : request? p = some t) (ht' : request? p' = some t') :
    t = t' ↔ r.method = r'.method ∧ Path.normalize r.path = Path.normalize r'.path ∧
      (m.signedPairs r p).Perm (m'.signedPairs r' p') ∧ (∀ n, n ∈ signedNames p.header ↔ n ∈ signedNames p'.header) ∧
      (∀ n ∈ signedNames p.header, fieldText p.header n = fieldText p'.header n) ∧
      payloadHash? p.header = payloadHash? p'.header := by
  obtain ⟨hm, -, -, hpath⟩ := prepare_rest hp
  obtain ⟨hm', -, -, hpath'⟩ := prepare_rest hp'
  have hn : signedNames p.header = signedNames p'.header ↔ ∀ n, n ∈ signedNames p.header ↔ n ∈ signedNames p'.header :=
    ⟨fun h n => by rw [h], Header.eq_of_sorted (sorted_signedNames p.header) (sorted_signedNames p'.header)⟩
  rw [request?_eq_iff (prepare_query hp) (prepare_query hp') ht ht', hm, hm', hpath, hpath', hn]

/-- Under one mandate and the same names the pairs of the requests themselves decide. -/
theorem signedPairs_perm {m : Mandate} {r r' p p' : SigningRequest}
    (hn : ∀ n, n ∈ signedNames p.header ↔ n ∈ signedNames p'.header) :
    (m.signedPairs r p).Perm (m.signedPairs r' p') ↔ r.query.Perm r'.query := by
  have hn' := Header.eq_of_sorted (sorted_signedNames p.header) (sorted_signedNames p'.header) hn
  rw [signedPairs, signedPairs, m.added_congr hn', List.perm_append_right_iff]

/-- Requests that differ at most in the order of their pairs, in the order of fields with different
names, in blanks in values, in empty and dot segments, and in the four fields that are not signed. -/
structure Alike (r r' : SigningRequest) : Prop where
  method : r.method = r'.method
  authority : r.authority = r'.authority
  path : Path.normalize r.path = Path.normalize r'.path
  query : r.query.Perm r'.query
  fields : ∀ n, n ∉ FieldName.authorization :: unsignedNames → wordsOf r.header n = wordsOf r'.header n
  payload : (r.header.first? .amzContentSha256).map (·.trim.bytes) =
    (r'.header.first? .amzContentSha256).map (·.trim.bytes)

theorem wordsOf_signedHeader {m : Mandate} {a : Authority} {h k : Header} (hs : m.signedHeader a h = .ok k)
    (n : FieldName) :
    wordsOf k n =
      if n = .authorization then []
      else if m.placement = .header ∧ n = .amzDate then [words m.scope.stamp]
      else if m.placement = .header ∧ n = .amzSecurityToken then
        m.credential.sessionToken.toList.map fun token => words (utf8 token)
      else if n = .host ∧ wordsOf h .host = [] then [words a.bytes]
      else wordsOf h n := by
  have hw : wordsOf k n = (m.bytesOf a h n).map words := by
    rw [← bytes_signedHeader hs, wordsOf, List.map_map]; rfl
  simp only [hw, bytesOf, wordsOf_eq_nil]
  split
  · rfl
  split
  · rfl
  split
  · rw [List.map_map]; rfl
  split
  · rfl
  · simp [wordsOf]

theorem payloadHash?_signedHeader {m : Mandate} {a : Authority} {h k : Header} (hs : m.signedHeader a h = .ok k) :
    payloadHash? k = match (h.first? .amzContentSha256).map (·.trim.bytes) with
      | some bs => if bs.all isTextByte then some bs else none
      | none => some (Sha256.hex []) := by
  have hb : (k.first? .amzContentSha256).map (·.bytes) = (h.first? .amzContentSha256).map (·.trim.bytes) := by
    have hne : ∀ n ∈ [FieldName.authorization, .amzDate, .amzSecurityToken, .host], FieldName.amzContentSha256 ≠ n := by
      decide
    simp only [List.forall_mem_cons] at hne
    obtain ⟨h1, h2, h3, h4, -⟩ := hne
    rw [Header.first?, ← List.head?_map, bytes_signedHeader hs, bytesOf]
    simp [h1, h2, h3, h4, Header.first?]
  rw [← hb, payloadHash?]
  cases k.first? .amzContentSha256 <;> rfl

/-- Requests that are alike are signed alike. -/
theorem Alike.text_eq {r r' : SigningRequest} (h : Alike r r') (m : Mandate) : m.text? r = m.text? r' := by
  have main : ∀ {k k'}, m.signedHeader r.authority r.header = .ok k → m.signedHeader r'.authority r'.header = .ok k' →
      request? { r with query := encodeQuery (r.query ++ m.added k), header := k } =
        request? { r' with query := encodeQuery (r'.query ++ m.added k'), header := k' } := by
    intro k k' hk hk'
    have hw : ∀ n, n ∉ unsignedNames → wordsOf k n = wordsOf k' n := by
      intro n hn
      rw [wordsOf_signedHeader hk, wordsOf_signedHeader hk', h.authority, h.fields .host (by decide)]
      by_cases hna : n = .authorization
      · rw [if_pos hna, if_pos hna]
      · rw [h.fields n (by simp [hna, hn])]
    refine request?_congr h.method (canonical_inj.2 h.path) ?_ hw ?_
    · rw [queryLine_inj, m.added_congr (signedNames_congr hw), List.perm_append_right_iff]
      exact h.query
    · rw [payloadHash?_signedHeader hk, payloadHash?_signedHeader hk', h.payload]
  unfold text?
  rw [prepare_eq, prepare_eq]
  -- whether a mandate can sign does not depend on the request's own fields
  cases hk : m.signedHeader r.authority r.header with
  | ok k =>
    obtain ⟨k', hk'⟩ := signedHeader_ok (h.authority ▸ hk) r'.header
    rw [hk']
    exact main hk hk'
  | error f =>
    cases hk' : m.signedHeader r'.authority r'.header with
    | ok k' =>
      obtain ⟨k, hk''⟩ := signedHeader_ok (h.authority.symm ▸ hk') r.header
      rw [hk] at hk''
      cases hk''
    | error f' => rfl

/-! ## Soundness and completeness -/

/-- A canonical request is a canonical form: it is the same for two requests exactly when they agree
in the parts that are signed, and what proxies may change is none of them. -/
theorem canonical_form {m m' : Mandate} {r r' p p' : SigningRequest} {t t' : Bytes}
    (hp : m.prepare r = .ok p) (hp' : m'.prepare r' = .ok p') (ht : request? p = some t) (ht' : request? p' = some t') :
    (t = t' ↔ r.method = r'.method ∧ Path.normalize r.path = Path.normalize r'.path ∧
      (m.signedPairs r p).Perm (m'.signedPairs r' p') ∧ (∀ n, n ∈ signedNames p.header ↔ n ∈ signedNames p'.header) ∧
      (∀ n ∈ signedNames p.header, fieldText p.header n = fieldText p'.header n) ∧
      payloadHash? p.header = payloadHash? p'.header) ∧
    (m = m' → (∀ n, n ∈ signedNames p.header ↔ n ∈ signedNames p'.header) →
      ((m.signedPairs r p).Perm (m'.signedPairs r' p') ↔ r.query.Perm r'.query)) ∧
    ∀ q, Alike r q → ∃ k, m.prepare q = .ok k ∧ request? k = some t := by
  refine ⟨text_eq_iff hp hp' ht ht', ?_, ?_⟩
  · rintro rfl hn
    exact signedPairs_perm hn
  · intro q hq
    have h : m.text? r = some t := text?_eq_some.2 ⟨p, hp, ht⟩
    rw [hq.text_eq m] at h
    exact text?_eq_some.1 h

/-- A signature in the URI, for a minute. -/
def minute : Mandate :=
  ⟨{ accessKeyId := "AKID", secretAccessKey := "secret" }, ⟨⟨1714558830, 0⟩, "eu-west-1", "execute-api"⟩, .query 60⟩

/-- A request that declares the hash of its payload. -/
def declaring (hash : FieldValue) (query : List Form.Pair) : SigningRequest :=
  ⟨.get, .https, .exampleCom, utf8 "/a//./b", query, ⟨[(.amzContentSha256, hash)]⟩⟩

theorem words_declaring {v v' : FieldValue} (h : words v.bytes = words v'.bytes) (ps qs : List Form.Pair)
    (n : FieldName) : wordsOf (declaring v ps).header n = wordsOf (declaring v' qs).header n := by
  by_cases hn : FieldName.amzContentSha256 = n <;> simp [wordsOf, Header.values, declaring, hn, h]

theorem alike_declaring {v v' : FieldValue} {ps qs : List Form.Pair} (h : words v.bytes = words v'.bytes)
    (hp : ps.Perm qs) (ht : v.trim.bytes = v'.trim.bytes) : Alike (declaring v ps) (declaring v' qs) :=
  ⟨rfl, rfl, rfl, hp, fun n _ => words_declaring h ps qs n, by simp [declaring, Header.first?, Header.values, ht]⟩

theorem canonical_form_declaring :
    ∃ p k t, minute.prepare (declaring ⟨utf8 "UNSIGNED-PAYLOAD", by decide⟩ [(utf8 "a", []), (utf8 "b", [])]) = .ok p ∧
      minute.prepare (declaring ⟨utf8 "  UNSIGNED-PAYLOAD ", by decide⟩ [(utf8 "b", []), (utf8 "a", [])]) = .ok k ∧
      request? p = some t ∧ request? k = some t := by
  obtain ⟨t, ht⟩ := Option.isSome_iff_exists.1 (show (minute.text? (declaring ⟨utf8 "UNSIGNED-PAYLOAD", by decide⟩
    [(utf8 "a", []), (utf8 "b", [])])).isSome = true by decide +kernel)
  obtain ⟨p, hp, ht⟩ := text?_eq_some.1 ht
  obtain ⟨k, hk, hkt⟩ := (canonical_form hp hp ht ht).2.2
    (declaring ⟨utf8 "  UNSIGNED-PAYLOAD ", by decide⟩ [(utf8 "b", []), (utf8 "a", [])])
    (alike_declaring (by decide +kernel) (List.Perm.swap _ _ _) (by decide +kernel))
  exact ⟨p, k, t, hp, hk, ht, hkt⟩

/-- Blanks inside the declared hash are signed: no name tells the two requests apart by its words, but
the last line does. -/
theorem blanks_in_declared_hash :
    (∀ n, wordsOf (declaring ⟨utf8 "a b", by decide⟩ []).header n =
      wordsOf (declaring ⟨utf8 "a  b", by decide⟩ []).header n) ∧
      ∃ t t', minute.text? (declaring ⟨utf8 "a b", by decide⟩ []) = some t ∧
        minute.text? (declaring ⟨utf8 "a  b", by decide⟩ []) = some t' ∧ t ≠ t' := by
  refine ⟨words_declaring (by decide +kernel) [] [], ?_⟩
  have hs : ∀ v ∈ [(⟨utf8 "a b", by decide⟩ : FieldValue), ⟨utf8 "a  b", by decide⟩],
      (minute.text? (declaring v [])).isSome = true ∧
        (minute.prepare (declaring v [])).toOption.bind (fun p => payloadHash? p.header) = some v.bytes := by
    decide +kernel
  simp only [List.forall_mem_cons, Option.isSome_iff_exists, text?_eq_some] at hs
  obtain ⟨⟨⟨t, p, hp, ht⟩, hv⟩, ⟨⟨t', p', hp', ht'⟩, hv'⟩, -⟩ := hs
  refine ⟨t, t', text?_eq_some.2 ⟨p, hp, ht⟩, text?_eq_some.2 ⟨p', hp', ht'⟩, fun e => ?_⟩
  have he := ((text_eq_iff hp hp' ht ht').1 e).2.2.2.2.2
  simp only [hp, hp', Except.toOption, Option.bind_some] at hv hv'
  rw [he, hv'] at hv
  exact absurd hv (by decide)

end Mandate

end SigV4
