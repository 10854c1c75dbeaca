import SigV4.Proofs.Acceptance
/-!
# Signing again

Each step of a signature in the header changes nothing more when it is done a second time: values are
trimmed, there is a host, date and token are those of the mandate, and the pairs come back in their order.
So a request that was signed is signed again as it was, unless it lost a pair the first time.
-/

namespace SigV4

open Http Canonical

/-! ## Values -/

theorem Http.FieldValue.ext_bytes {v w : FieldValue} (h : v.bytes = w.bytes) : v = w := by
  cases v; cases w; simp_all

@[simp] theorem Http.FieldValue.trim_trim (v : FieldValue) : v.trim.trim = v.trim :=
  ext_bytes (trims_iff.1 (trims_dropWhile isPadding v.bytes).core_core)

theorem Http.Authority.trim_value (a : Authority) : a.value.trim = a.value :=
  FieldValue.ext_bytes (FieldValue.trim_of_no_padding fun _ hb => (value_of_mem hb).2.2)

theorem Http.FieldValue.map_bytes_inj {vs ws : List FieldValue} (h : vs.map (·.bytes) = ws.map (·.bytes)) : vs = ws :=
  (List.map_inj_right fun _ _ => ext_bytes).1 h

/-! ## Requests with the same parts -/

namespace SigningRequest

theorem header_of_ofRequest? {r : Request} {s : SigningRequest} (h : ofRequest? r = some s) : s.header = r.header := by
  unfold ofRequest? at h
  split at h
  · cases h
  all_goals rw [← Option.some.inj h]

/-- Fields have no influence on the rest. -/
theorem ofRequest?_congr {r r' : Request} {s : SigningRequest} (h : ofRequest? r = some s) (hm : r'.method = r.method)
    (hu : r'.uri = r.uri) : ofRequest? r' = some { s with header := r'.header } := by
  unfold ofRequest? at h ⊢
  rw [hu]
  split at h
  · cases h
  all_goals rw [← Option.some.inj h, hm]

/-- One request, but for the order of fields with different names. -/
structure Same (p q : SigningRequest) : Prop where
  method : p.method = q.method
  scheme : p.scheme = q.scheme
  authority : p.authority = q.authority
  path : p.path = q.path
  query : p.query = q.query
  values : ∀ n, p.header.values n = q.header.values n

namespace Same

variable {p q : SigningRequest} (h : Same p q)
include h

theorem wordsOf_eq (n : FieldName) : wordsOf p.header n = wordsOf q.header n := by
  rw [wordsOf, wordsOf, h.values n]

theorem signedNames_eq : signedNames p.header = signedNames q.header := signedNames_congr fun n _ => h.wordsOf_eq n

theorem request?_eq : request? p = request? q := by
  refine request?_congr h.method (by rw [h.path]) (by rw [h.query]) (fun n _ => h.wordsOf_eq n) ?_
  rw [payloadHash?, payloadHash?, Header.first?, Header.first?, h.values]

theorem exists_toRequest {a : Request} (ha : p.toRequest = .ok a) :
    ∃ b, q.toRequest = .ok b ∧ b.method = a.method ∧ b.uri = a.uri ∧
      ∀ n, b.header.values n = a.header.values n := by
  have hbytes : p.targetBytes = q.targetBytes := by
    rw [targetBytes, targetBytes, h.query, h.path]
  unfold toRequest at ha ⊢
  rw [hbytes] at ha
  cases ht : Target.read q.targetBytes with
  | error f => simp [ht] at ha
  | ok t =>
    rw [ht] at ha
    obtain rfl := Except.ok.inj ha
    exact ⟨_, rfl, h.method.symm, by rw [h.scheme, h.authority], fun n => (h.values n).symm⟩

theorem exists_attach {m : Mandate} (hm : m.placement = .header) {sig : Bytes} {p' : SigningRequest}
    (hp : m.attach p sig = .ok p') : ∃ q', m.attach q sig = .ok q' ∧ Same p' q' := by
  obtain ⟨v, hv, rfl⟩ := Mandate.attach_header_ok hm hp
  refine ⟨{ q with header := q.header.set .authorization v }, ?_, h.method, h.scheme, h.authority, h.path, h.query, ?_⟩
  · apply Mandate.attach_of_value hm
    rw [hv, h.signedNames_eq]
  · intro n
    simp only [Header.values_set, h.values]

end Same

end SigningRequest

/-! ## The second signature -/

namespace Mandate

variable {m : Mandate}

/-- What was signed is signed under the same values, whatever `authorization` it has by now. -/
theorem bytesOf_again {a : Authority} {h k k' : Header} (hs : m.signedHeader a h = .ok k)
    (hv : ∀ n, n ≠ .authorization → k'.values n = k.values n) (n : FieldName) :
    m.bytesOf a k' n = m.bytesOf a h n := by
  have hk := bytes_signedHeader hs n
  unfold bytesOf at hk ⊢
  by_cases hauth : n = .authorization
  · rw [if_pos hauth, if_pos hauth]
  by_cases hdate : m.placement = .header ∧ n = .amzDate
  · simp only [if_neg hauth, if_pos hdate]
  by_cases htoken : m.placement = .header ∧ n = .amzSecurityToken
  · simp only [if_neg hauth, if_neg hdate, if_pos htoken]
  simp only [if_neg hauth, if_neg hdate, if_neg htoken] at hk ⊢
  by_cases hhost : n = .host ∧ h.values .host = []
  · -- the host was added
    rw [if_pos hhost] at hk ⊢
    obtain ⟨rfl, -⟩ := hhost
    have hone : k.values .host = [a.value] := FieldValue.map_bytes_inj hk
    rw [hv .host hauth, hone, if_neg (by simp)]
    exact congrArg (fun v => [FieldValue.bytes v]) a.trim_value
  · -- the values were trimmed
    rw [if_neg hhost] at hk ⊢
    have htrim : k.values n = (h.values n).map FieldValue.trim :=
      FieldValue.map_bytes_inj (hk.trans (List.map_map ..).symm)
    have hne : ¬ (n = .host ∧ k'.values .host = []) := by
      rintro ⟨rfl, hnone⟩
      rw [hv .host hauth, htrim, List.map_eq_nil_iff] at hnone
      exact hhost ⟨rfl, hnone⟩
    rw [if_neg hne, hv n hauth, htrim, List.map_map]
    exact List.map_congr_left fun v _ => congrArg FieldValue.bytes v.trim_trim

theorem prepare_again {r p : SigningRequest} {ps : List Form.Pair} {h : Header} (hm : m.placement = .header)
    (hp : m.prepare r = .ok p) (hquery : ps.Perm r.query)
    (hv : ∀ n, n ≠ .authorization → h.values n = p.header.values n) :
    ∃ p', m.prepare { p with query := ps, header := h } = .ok p' ∧ p.Same p' := by
  obtain ⟨-, -, hauthority, -⟩ := prepare_rest hp
  have hs := prepare_header hp
  obtain ⟨k, hk⟩ := signedHeader_ok hs h
  have hp' : m.prepare { p with query := ps, header := h } = .ok _ := prepare_eq_ok.2 ⟨k, hauthority ▸ hk, rfl⟩
  refine ⟨_, hp', rfl, rfl, rfl, rfl, ?_, fun n => ?_⟩
  · rw [prepare_query hp, prepare_query hp', signedPairs_header hm, signedPairs_header hm]
    exact encodeQuery_perm hquery.symm
  · refine FieldValue.map_bytes_inj ?_
    rw [bytes_signedHeader hs, bytes_signedHeader hk, bytesOf_again hs hv]

theorem Signed.sign_eq {r sent : Request} {taken prepared : SigningRequest} {text : Bytes}
    (h : m.Signed r taken prepared text sent) : m.sign r =
      { request := sent, scope := some m.scope.bytes, canonicalRequest := some text
        stringToSign := some (m.scope.stringToSign text) } := by
  simp only [sign, h.taken_eq, h.prepared_eq, h.text_eq, h.sent_eq]
  rfl

theorem Signed.values_sent {r sent : Request} {taken prepared : SigningRequest} {text : Bytes}
    (h : m.Signed r taken prepared text sent) {n : FieldName} (hn : n ≠ .authorization) :
    sent.header.values n = prepared.header.values n := by
  cases hm : m.placement with
  | header =>
    obtain ⟨v, -, hback⟩ := h.sent_header hm
    rw [← SigningRequest.header_of_ofRequest? hback, Header.values_set, if_neg hn.symm]
  | query expiry =>
    obtain ⟨t, front, hsent, -⟩ := h.sent_query hm
    rw [hsent]

/-- A request that was sent is signed again as it was, whatever `authorization` it has by now. -/
theorem Signed.again {r r' sent : Request} {taken prepared : SigningRequest} {text : Bytes}
    (h : m.Signed r taken prepared text sent) (hm : m.placement = .header) (hq : ([], []) ∉ taken.query)
    (hmethod : r'.method = sent.method) (huri : r'.uri = sent.uri)
    (hv : ∀ n, n ≠ .authorization → r'.header.values n = sent.header.values n) :
    (m.sign r').fault = none ∧ (m.sign r').canonicalRequest = some text ∧
      (m.sign r').stringToSign = some (m.scope.stringToSign text) ∧
      (m.sign r').request.method = sent.method ∧ (m.sign r').request.uri = sent.uri ∧
      ∀ n, (m.sign r').request.header.values n = sent.header.values n := by
  obtain ⟨v, -, hback⟩ := h.sent_header hm
  have hp := h.prepared_eq
  -- what is taken apart the second time
  have htaken : SigningRequest.ofRequest? r' =
      some { prepared with query := m.keptPairs taken prepared, header := r'.header } :=
    SigningRequest.ofRequest?_congr hback hmethod huri
  have hquery : (m.keptPairs taken prepared).Perm taken.query :=
    signedPairs_header hm taken prepared ▸ (keptPairs_perm_iff m taken prepared).2 hq
  have hvalues : ∀ n, n ≠ .authorization → r'.header.values n = prepared.header.values n :=
    fun n hn => (hv n hn).trans (h.values_sent hn)
  obtain ⟨prepared', hp', hsame⟩ := prepare_again hm hp hquery hvalues
  obtain ⟨q, ha, hs⟩ := h.attached
  obtain ⟨q', ha', hsame'⟩ := hsame.exists_attach hm ha
  obtain ⟨sent', hsent', hrest⟩ := hsame'.exists_toRequest hs
  have hsigned : m.Signed r' _ prepared' text sent' :=
    ⟨htaken, hp', hsame.request?_eq ▸ h.text_eq, by rw [ha']; exact hsent'⟩
  rw [hsigned.sign_eq]
  exact ⟨rfl, rfl, rfl, hrest⟩

end Mandate

namespace Signer

/-- At a fixed time, what was signed is signed again in the same way: the same texts, and the same request with
the same values under each name, the signature included. -/
theorem sign_idempotent {s : Signer} {t now : Time} {r : Request} {body : Bytes}
    (h : ((s.atTime t).sign now r body).fault = none)
    (hq : ∀ taken, SigningRequest.ofRequest? r = some taken → ([], []) ∉ taken.query) (now' : Time) :
    let first := (s.atTime t).sign now r body
    let second := (s.atTime t).sign now' first.request body
    second.fault = none ∧ second.canonicalRequest = first.canonicalRequest ∧
      second.stringToSign = first.stringToSign ∧ second.request.method = first.request.method ∧
      second.request.uri = first.request.uri ∧
      ∀ n, second.request.header.values n = first.request.header.values n := by
  intro first second
  obtain ⟨taken, taken', prepared, text, htaken, hquery, hsigned, htext, hsts, -⟩ := signed_of_sign h
  -- the hash of the payload is there already
  have hpayload : first.request.header.values .amzContentSha256 = [.hex (Sha256.digest body)] := by
    rw [hsigned.values_sent (by decide)]
    refine FieldValue.map_bytes_inj ?_
    rw [Mandate.payload_prepared hsigned.prepared_eq, SigningRequest.header_of_ofRequest? hsigned.taken_eq,
      withPayloadHash, Header.values_set, if_pos rfl]
    exact congrArg (fun bs => [bs]) (FieldValue.trim_hex _)
  have hvalues : ∀ n, n ≠ .authorization →
      (withPayloadHash first.request body).header.values n = first.request.header.values n := by
    intro n _
    rw [withPayloadHash, Header.values_set]
    split
    · rename_i e
      rw [← e, hpayload]
    · rfl
  have hmethod : (withPayloadHash first.request body).method = first.request.method := rfl
  obtain ⟨hfault, hagain, hsts', hrest⟩ := hsigned.again rfl (hquery ▸ hq taken htaken) hmethod rfl hvalues
  exact ⟨hfault, hagain.trans htext.symm, hsts'.trans hsts.symm, hrest⟩

/-- The signer with a credential that comes with a token. -/
def temporary : Signer :=
  { longTerm with
    credential := { accessKeyId := "ASIA", secretAccessKey := "secret", sessionToken := some "token" }
    keys := by decide +kernel }

/-- A request that another signer has signed before, with a value to trim and pairs that are out of order. -/
def retried : Request :=
  { asking (utf8 "b=2&%61=x+y&a=%zz") (by decide +kernel) with
    header := ⟨[(.authorization, ⟨utf8 "earlier", by decide⟩), (.amzDate, ⟨utf8 "20240430T000000Z", by decide⟩),
      (.amzSecurityToken, ⟨utf8 "old", by decide⟩), (.amzContentSha256, ⟨utf8 "unknown", by decide⟩),
      (.contentType, ⟨utf8 "  text/plain\t", by decide⟩)]⟩ }

theorem sign_idempotent_retried : ∃ first second : Attempt,
    first = (temporary.atTime morning).sign ⟨0, 0⟩ retried (utf8 "x") ∧
      second = (temporary.atTime morning).sign ⟨1, 0⟩ first.request (utf8 "x") ∧
      first.fault = none ∧ second.fault = none ∧ second.request.uri = first.request.uri ∧
      second.request.header.values .authorization = first.request.header.values .authorization := by
  have h : ((temporary.atTime morning).sign ⟨0, 0⟩ retried (utf8 "x")).fault = none :=
    sign_of_isReady (by decide +kernel)
  have hq : ∀ taken, SigningRequest.ofRequest? retried = some taken → ([], []) ∉ taken.query := by
    intro taken ht
    rw [← Option.some.inj ht]
    decide +kernel
  obtain ⟨hfault, -, -, -, huri, hvalues⟩ := sign_idempotent h hq ⟨1, 0⟩
  exact ⟨_, _, rfl, rfl, h, hfault, huri, hvalues .authorization⟩

end Signer

end SigV4
