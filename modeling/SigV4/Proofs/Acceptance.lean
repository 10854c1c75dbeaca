import SigV4.Proofs.Success
import SigV4.Proofs.Text
import SigV4.Proofs.Verifier
/-!
# What is signed is accepted

A signature that is made without a fault can be checked by whoever sees the request: the text that
was signed can be rebuilt from it, unless the request had a pair that is empty on both sides. Such a
pair is signed as a bare `=` but leaves nothing between the separators of the URI, so the rebuilt text
lacks it.
-/

namespace SigV4

open Http Canonical

/-! ## Prepared headers -/

theorem Http.FieldValue.trim_of_no_padding {v : FieldValue} (h : ∀ b ∈ v.bytes, FieldValue.isPadding b = false) :
    v.trim.bytes = v.bytes := trims_iff.1 (trims_self h)

theorem Http.FieldValue.trim_hex (digest : Bytes) : (FieldValue.hex digest).trim.bytes = Hex.encode digest :=
  FieldValue.trim_of_no_padding fun b hb => (Mandate.plain_of_isLowerHex (Hex.all_encode digest) b hb).2.2.2

namespace Mandate

variable {m : Mandate} {r p : SigningRequest}

theorem values_prepared (hp : m.prepare r = .ok p) (n : FieldName) :
    (p.header.values n).map (·.bytes) = m.bytesOf r.authority r.header n := bytes_signedHeader (prepare_header hp) n

theorem authorization_prepared (hp : m.prepare r = .ok p) : p.header.values .authorization = [] := by
  have h := values_prepared hp .authorization
  rw [bytesOf, if_pos rfl] at h
  exact List.map_eq_nil_iff.1 h

theorem host_mem_signedNames (hp : m.prepare r = .ok p) : .host ∈ signedNames p.header := by
  refine mem_signedNames.2 ⟨fun e => ?_, by decide⟩
  have h := values_prepared hp .host
  have h1 : ¬ FieldName.host = .authorization := by decide
  have h2 : ¬ FieldName.host = .amzDate := by decide
  have h3 : ¬ FieldName.host = .amzSecurityToken := by decide
  simp only [e, List.map_nil, bytesOf, h1, h2, h3, if_false, and_false, true_and] at h
  split at h
  · cases h
  · rename_i hh
    exact hh (List.map_eq_nil_iff.1 h.symm)

theorem signedNames_ne_nil (hp : m.prepare r = .ok p) : signedNames p.header ≠ [] :=
  List.ne_nil_of_mem (host_mem_signedNames hp)

theorem date_prepared (hm : m.placement = .header) (hp : m.prepare r = .ok p) :
    (p.header.values .amzDate).map (·.bytes) = [m.scope.stamp] := by
  have h1 : ¬ FieldName.amzDate = .authorization := by decide
  rw [values_prepared hp, bytesOf, if_neg h1, if_pos ⟨hm, rfl⟩]

theorem payload_prepared (hp : m.prepare r = .ok p) :
    (p.header.values .amzContentSha256).map (·.bytes) = (r.header.values .amzContentSha256).map (·.trim.bytes) := by
  have h1 : ¬ FieldName.amzContentSha256 = .authorization := by decide
  have h2 : ¬ FieldName.amzContentSha256 = .amzDate := by decide
  have h3 : ¬ FieldName.amzContentSha256 = .amzSecurityToken := by decide
  have h4 : ¬ FieldName.amzContentSha256 = .host := by decide
  simp only [values_prepared hp, bytesOf, h1, h2, h3, h4, if_false, and_false, false_and]

/-! ## Signatures in the header -/

open Verifier

/-- What a verifier makes of a request that was signed in its header. -/
theorem Signed.read?_eq {q sent : Request} {taken prepared : SigningRequest} {text : Bytes}
    (h : m.Signed q taken prepared text sent) (hm : m.placement = .header)
    (hi : Issuer.read? m.credentialText = some (issuerOf m)) :
    ∃ rebuilt, Verifier.read? sent = some ⟨⟨issuerOf m, (signedNames prepared.header).map (·.bytes),
        m.scope.signature m.credential.secretAccessKey (m.scope.stringToSign text)⟩, rebuilt,
        m.scope.stringToSign rebuilt, Verifier.payloadHash prepared.header⟩ ∧
      (rebuilt = text ↔ ([], []) ∉ taken.query) := by
  obtain ⟨v, hv, hback⟩ := h.sent_header hm
  have hp := h.prepared_eq
  have hauth := authorization_prepared hp
  have hne : FieldName.authorization ≠ .amzContentSha256 := by decide
  -- the signature is put under a name that was not signed
  have hset : ∀ n, n ≠ .authorization → (prepared.header.set .authorization v).values n = prepared.header.values n := by
    intro n hn
    rw [Header.values_set, if_neg hn.symm]
  have hsigned : ∀ n ∈ .amzContentSha256 :: signedNames prepared.header,
      (prepared.header.set .authorization v).values n = prepared.header.values n := by
    refine List.forall_mem_cons.2 ⟨hset _ hne.symm, fun n hn => hset n ?_⟩
    rintro rfl
    exact (mem_signedNames.1 hn).1 hauth
  have hticket : (valuesOf (prepared.header.set .authorization v) (utf8 "authorization")).head?.bind Ticket.read? =
      some ⟨issuerOf m, (signedNames prepared.header).map (·.bytes),
        m.scope.signature m.credential.secretAccessKey (m.scope.stringToSign text)⟩ := by
    change (valuesOf _ FieldName.authorization.bytes).head?.bind _ = _
    rw [valuesOf_bytes, Header.values_set, if_pos rfl, List.map_singleton, List.head?_cons, Option.bind_some, hv]
    exact Ticket.read?_authorizationText hi (signedNames_ne_nil hp) (Hex.notMem_encode (by decide) _)
  have hstamp : (valuesOf (prepared.header.set .authorization v) (utf8 "x-amz-date")).head? = some m.scope.stamp := by
    change (valuesOf _ FieldName.amzDate.bytes).head? = _
    rw [valuesOf_bytes, hset _ (by decide), date_prepared hm hp, List.head?_cons]
  have hpayload :
      Verifier.payloadHash (prepared.header.set .authorization v) = Verifier.payloadHash prepared.header := by
    rw [payloadHash_values, payloadHash_values, hset _ hne.symm]
  refine ⟨Verifier.canonicalRequest
    { prepared with query := m.keptPairs taken prepared, header := prepared.header.set .authorization v }
    ((signedNames prepared.header).map (·.bytes)), ?_, ?_⟩
  · simp only [Verifier.read?, hback, hticket, hstamp, hpayload, Option.bind_eq_bind, Option.bind_some]
    rfl
  · refine Iff.trans ?_ (keptPairs_perm_iff m taken prepared)
    apply canonicalRequest_eq_iff (prepare_query hp) h.text_eq
    · rfl
    · rfl
    · exact hsigned

/-- What a verifier makes of a request that was signed in its URI, when it takes off the signature. -/
theorem Signed.rebuilt_eq {q sent : Request} {taken prepared : SigningRequest} {text : Bytes}
    (h : m.Signed q taken prepared text sent) {expiry : Nat} (hm : m.placement = .query expiry) :
    ∃ target front, sent.uri = .full taken.scheme taken.authority target ∧
      target.query = some (front ++ utf8 "&X-Amz-Signature=" ++
        m.scope.signature m.credential.secretAccessKey (m.scope.stringToSign text)) ∧
      sent.header.values .authorization = [] ∧
      SigningRequest.ofRequest? sent = some { prepared with query := Form.read front ++
        [(utf8 "X-Amz-Signature", m.scope.signature m.credential.secretAccessKey (m.scope.stringToSign text))] } ∧
      ((Form.read front).Perm (taken.query ++ m.parameters expiry (signedNames prepared.header)) ↔
        ([], []) ∉ taken.query) ∧
      (canonicalRequest { prepared with query := Form.read front }
        ((signedNames prepared.header).map (·.bytes)) = text ↔ ([], []) ∉ taken.query) := by
  have hp := h.prepared_eq
  obtain ⟨-, hscheme, hauthority, -⟩ := prepare_rest hp
  obtain ⟨target, front, hsent, hquery, hfront, hback⟩ := h.sent_query hm
  have hpairs : m.signedPairs taken prepared = taken.query ++ m.parameters expiry (signedNames prepared.header) := by
    rw [signedPairs, added, hm]
  have hperm : (Form.read front).Perm (m.signedPairs taken prepared) ↔ ([], []) ∉ taken.query := by
    rw [hfront]
    exact keptPairs_perm_iff m taken prepared
  refine ⟨target, front, ?_, hquery, ?_, ?_, hpairs ▸ hperm, ?_⟩
  · rw [hsent, hscheme, hauthority]
  · rw [hsent]
    exact authorization_prepared hp
  · rw [hback, hfront]
    rfl
  · refine Iff.trans ?_ hperm
    apply canonicalRequest_eq_iff (prepare_query hp) h.text_eq
    · rfl
    · rfl
    · exact fun n _ => rfl

end Mandate

namespace Signer

open Verifier

/-- The mandate under which a signer signs. -/
theorem ofRequest?_withPayloadHash {r : Request} {body : Bytes} {taken : SigningRequest}
    (h : SigningRequest.ofRequest? (withPayloadHash r body) = some taken) :
    ∃ t, SigningRequest.ofRequest? r = some t ∧ taken.query = t.query ∧
      taken.header = r.header.set .amzContentSha256 (.hex (Sha256.digest body)) := by
  unfold SigningRequest.ofRequest? withPayloadHash at *
  cases hu : r.uri with
  | path t => simp [hu] at h
  | server a =>
    simp only [hu] at h ⊢
    rw [← Option.some.inj h]
    exact ⟨_, rfl, rfl, rfl⟩
  | full s a t =>
    simp only [hu] at h ⊢
    rw [← Option.some.inj h]
    exact ⟨_, rfl, rfl, rfl⟩

theorem issuer_read (s : Signer) (now : Time) (placement : Placement) :
    Issuer.read? (Mandate.mk s.credential (s.scope now) placement).credentialText =
      some (issuerOf ⟨s.credential, s.scope now, placement⟩) := by
  have hservice : (0x2F : UInt8) ∉ utf8 service := by decide
  exact Issuer.read?_credentialText s.region_valid hservice

/-- The steps of a signature in the header. -/
theorem signed_of_sign {s : Signer} {now : Time} {r : Request} {body : Bytes} (h : (s.sign now r body).fault = none) :
    ∃ taken taken' prepared text, SigningRequest.ofRequest? r = some taken ∧ taken'.query = taken.query ∧
      (Mandate.mk s.credential (s.scope now) .header).Signed (withPayloadHash r body) taken' prepared text
        (s.sign now r body).request ∧
      (s.sign now r body).canonicalRequest = some text ∧
      (s.sign now r body).stringToSign = some ((s.scope now).stringToSign text) ∧
      Verifier.payloadHash prepared.header = Sha256.hex body := by
  obtain ⟨taken', prepared, text, sent, hsigned, hsent, htext, hsts⟩ := Mandate.sign_ok h
  obtain ⟨taken, htaken, hquery, hheader⟩ := ofRequest?_withPayloadHash hsigned.taken_eq
  have hpayload : Verifier.payloadHash prepared.header = Sha256.hex body := by
    rw [payloadHash_values, Mandate.payload_prepared hsigned.prepared_eq, hheader, Header.values_set, if_pos rfl,
      List.map_singleton, FieldValue.trim_hex]
    rfl
  exact ⟨taken, taken', prepared, text, htaken, hquery, hsent ▸ hsigned, htext, hsts, hpayload⟩

/-- A verifier with the secret key reads the scope and the names off the request that is sent. It rebuilds
the text that was signed exactly when no pair of the request is empty on both sides, and then it accepts. -/
theorem sign_verifies {s : Signer} {now : Time} {r : Request} {body : Bytes} (h : (s.sign now r body).fault = none) :
    ∃ taken d, SigningRequest.ofRequest? r = some taken ∧ Verifier.read? (s.sign now r body).request = some d ∧
      d.ticket.issuer = ⟨utf8 s.credential.accessKeyId, (s.scope now).date, utf8 s.region, utf8 service⟩ ∧
      ((s.sign now r body).canonicalRequest = some d.canonicalRequest ↔ ([], []) ∉ taken.query) ∧
      (([], []) ∉ taken.query → (s.sign now r body).stringToSign = some d.stringToSign ∧
        accepts s.credential.secretAccessKey (s.sign now r body).request body = true) := by
  obtain ⟨taken, taken', prepared, text, htaken, hquery, hsigned, htext, hsts, hpayload⟩ := signed_of_sign h
  obtain ⟨rebuilt, hread, hiff⟩ := hsigned.read?_eq rfl (issuer_read s now .header)
  refine ⟨taken, _, htaken, hread, rfl, ?_, fun hq => ?_⟩
  · rw [htext, Option.some.injEq, ← hquery, ← hiff, eq_comm]
  · rw [← hquery, ← hiff] at hq
    subst hq
    refine ⟨hsts, ?_⟩
    simp only [accepts, hread, hpayload, decide_true, Bool.true_and]
    exact decide_eq_true rfl

theorem sign_verifies_asking :
    (longTerm.sign morning twoPairs (utf8 "x")).fault = none ∧
      accepts "secret" (longTerm.sign morning twoPairs (utf8 "x")).request (utf8 "x") = true := by
  have h : (longTerm.sign morning twoPairs (utf8 "x")).fault = none :=
    sign_of_isReady (by decide +kernel)
  obtain ⟨taken, d, htaken, -, -, -, hverified⟩ := sign_verifies h
  have hq : ([], []) ∉ taken.query := by
    rw [query_asking htaken]
    decide +kernel
  exact ⟨h, (hverified hq).2⟩

/-- The request for `/?=` is sent as `/?`, for which no verifier rebuilds what was signed. -/
theorem sign_lost_pair :
    (longTerm.sign morning bareEquals []).fault = none ∧
      ∀ d, Verifier.read? (longTerm.sign morning bareEquals []).request = some d →
        (longTerm.sign morning bareEquals []).canonicalRequest ≠ some d.canonicalRequest := by
  have h : (longTerm.sign morning bareEquals []).fault = none :=
    sign_of_isReady (by decide +kernel)
  refine ⟨h, fun d hd hc => ?_⟩
  obtain ⟨taken, taken', prepared, text, htaken, hquery, hsigned, htext, -, -⟩ := signed_of_sign h
  obtain ⟨rebuilt, hread, hiff⟩ := hsigned.read?_eq rfl (issuer_read longTerm morning .header)
  have hq : ([], []) ∈ taken.query := by
    rw [query_asking htaken]
    decide +kernel
  rw [hread] at hd
  rw [htext, Option.some.injEq, ← Option.some.inj hd, eq_comm, hiff, hquery] at hc
  exact hc hq

/-! ## Signatures in the URI -/

/-- The parameters that come with a signature in the URI; the token is there only for credentials that have one. -/
def parameterPairs (s : Signer) (now : Time) (seconds : Nat) (names : List FieldName) : List Form.Pair :=
  [(utf8 "X-Amz-Algorithm", utf8 "AWS4-HMAC-SHA256"),
   (utf8 "X-Amz-Credential", utf8 s.credential.accessKeyId ++ 0x2F :: (s.scope now).bytes),
   (utf8 "X-Amz-Date", (s.scope now).stamp),
   (utf8 "X-Amz-Expires", utf8 (toString seconds)),
   (utf8 "X-Amz-SignedHeaders", Bytes.join [0x3B] (names.map (·.bytes)))]
  ++ s.credential.sessionToken.toList.map fun token => (utf8 "X-Amz-Security-Token", utf8 token)

theorem isExpiry_iff {nanos : Nat} :
    isExpiry nanos = true ↔ nanosPerSecond ≤ nanos ∧ nanos ≤ 604800 * nanosPerSecond := by
  unfold isExpiry
  rw [Bool.and_eq_true, decide_eq_true_iff, decide_eq_true_iff]
  exact Iff.rfl

theorem presign_eq {s : Signer} {now : Time} {r : Request} {nanos : Nat} (h : (s.presign now r nanos).fault = none) :
    (1 ≤ nanos / nanosPerSecond ∧ nanos / nanosPerSecond ≤ 604800) ∧
      s.presign now r nanos = (Mandate.mk s.credential (s.scope now) (.query (nanos / nanosPerSecond))).sign r := by
  unfold presign at h ⊢
  simp only at h ⊢
  split at h
  · rename_i he
    rw [if_pos he]
    rw [isExpiry_iff, nanosPerSecond] at he
    refine ⟨?_, rfl⟩
    rw [nanosPerSecond]
    omega
  · cases h

/-- The URI ends in the signature. Without it the URI has the pairs of the request and those that were added,
and the canonical request that was signed can be rebuilt, exactly when no pair of the request is empty on
both sides. The signature is that of the added time and scope. -/
theorem presign_verifies {s : Signer} {now : Time} {r : Request} {nanos : Nat}
    (h : (s.presign now r nanos).fault = none) :
    ∃ taken back target front signature names ticket stamp text,
      -- what is sent
      SigningRequest.ofRequest? r = some taken ∧ SigningRequest.ofRequest? (s.presign now r nanos).request = some back ∧
      (s.presign now r nanos).request.uri = .full taken.scheme taken.authority target ∧
      target.query = some (front ++ utf8 "&X-Amz-Signature=" ++ signature) ∧
      signature.length = 64 ∧ signature.all Hex.isLowerHex = true ∧
      (s.presign now r nanos).request.header.values .authorization = [] ∧
      -- its pairs
      1 ≤ nanos / nanosPerSecond ∧ nanos / nanosPerSecond ≤ 604800 ∧
      back.query = Form.read front ++ [(utf8 "X-Amz-Signature", signature)] ∧
      (back.query.Perm (taken.query ++ s.parameterPairs now (nanos / nanosPerSecond) names ++
        [(utf8 "X-Amz-Signature", signature)]) ↔ ([], []) ∉ taken.query) ∧
      -- what a verifier makes of it
      Ticket.ofPairs? (s.parameterPairs now (nanos / nanosPerSecond) names) signature = some (ticket, stamp) ∧
      ticket.issuer = ⟨utf8 s.credential.accessKeyId, (s.scope now).date, utf8 s.region, utf8 service⟩ ∧
      (s.presign now r nanos).canonicalRequest = some text ∧
      (canonicalRequest { back with query := Form.read front } ticket.names = text ↔ ([], []) ∉ taken.query) ∧
      (s.presign now r nanos).stringToSign = some (ticket.issuer.stringToSign stamp text) ∧
      signature = Hmac.hex (ticket.issuer.signingKey s.credential.secretAccessKey)
        (ticket.issuer.stringToSign stamp text) := by
  obtain ⟨⟨hmin, hmax⟩, heq⟩ := presign_eq h
  rw [heq] at h ⊢
  obtain ⟨taken, prepared, text, sent, hsigned, hsent, htext, hsts⟩ := Mandate.sign_ok h
  obtain ⟨target, front, huri, hquery, hauth, hback, hperm, htexts⟩ := hsigned.rebuilt_eq rfl
  have hlen := Mandate.length_signature (s.scope now) s.credential.secretAccessKey ((s.scope now).stringToSign text)
  have hhex := Mandate.all_signature (s.scope now) s.credential.secretAccessKey ((s.scope now).stringToSign text)
  have hticket := Ticket.ofPairs?_parameters
    ((s.scope now).signature s.credential.secretAccessKey ((s.scope now).stringToSign text))
    (nanos / nanosPerSecond) (issuer_read s now (.query (nanos / nanosPerSecond)))
    (Mandate.signedNames_ne_nil hsigned.prepared_eq)
  rw [hsent]
  refine ⟨taken, _, target, front, _, signedNames prepared.header, _, _, text, hsigned.taken_eq, hback, huri, hquery,
    hlen, hhex, hauth, hmin, hmax, rfl, ?_, hticket, ?_, htext, htexts, ?_, ?_⟩
  · exact (List.perm_append_right_iff _).trans hperm
  · rfl
  · exact hsts
  · rfl

theorem presign_verifies_asking :
    (longTerm.presign morning twoPairs 60000000000).fault = none ∧
      ∃ back front names text,
        SigningRequest.ofRequest? (longTerm.presign morning twoPairs 60000000000).request = some back ∧
        (longTerm.presign morning twoPairs 60000000000).canonicalRequest = some text ∧
        canonicalRequest { back with query := Form.read front } names = text := by
  have h : (longTerm.presign morning twoPairs 60000000000).fault = none :=
    presign_of_isReady (by decide) (by decide +kernel)
  obtain ⟨taken, back, -, front, -, -, ticket, -, text, htaken, hback, -, -, -, -, -, -, -, -, -, -, -, htext,
    hrebuilt, -⟩ := presign_verifies h
  have hq : ([], []) ∉ taken.query := by
    rw [query_asking htaken]
    decide +kernel
  exact ⟨h, back, front, ticket.names, text, hback, htext, hrebuilt.2 hq⟩

/-- The pair of `/?=` is signed but does not arrive, and without it another text is rebuilt. -/
theorem presign_lost_pair :
    (longTerm.presign morning bareEquals 60000000000).fault = none ∧
      ∃ taken back front signature text,
        SigningRequest.ofRequest? bareEquals = some taken ∧
        SigningRequest.ofRequest? (longTerm.presign morning bareEquals 60000000000).request = some back ∧
        back.query = Form.read front ++ [(utf8 "X-Amz-Signature", signature)] ∧
        ¬ back.query.Perm (taken.query ++ longTerm.parameterPairs morning 60 (signedNames back.header) ++
          [(utf8 "X-Amz-Signature", signature)]) ∧
        (longTerm.presign morning bareEquals 60000000000).canonicalRequest = some text ∧
        canonicalRequest { back with query := Form.read front } ((signedNames back.header).map (·.bytes)) ≠ text := by
  have h : (longTerm.presign morning bareEquals 60000000000).fault = none :=
    presign_of_isReady (by decide) (by decide +kernel)
  obtain ⟨-, heq⟩ := presign_eq h
  rw [heq] at h ⊢
  obtain ⟨taken, prepared, text, sent, hsigned, hsent, htext, -⟩ := Mandate.sign_ok h
  obtain ⟨target, front, -, -, -, hback, hperm, hrebuilt⟩ := hsigned.rebuilt_eq rfl
  have hblank : ([], []) ∈ taken.query := by
    rw [query_asking hsigned.taken_eq]
    decide +kernel
  rw [hsent]
  refine ⟨h, taken, _, front, _, text, hsigned.taken_eq, hback, rfl, ?_, htext, ?_⟩
  · intro hc
    exact hperm.1 ((List.perm_append_right_iff _).1 hc) hblank
  · intro hc
    exact hrebuilt.1 hc hblank

end Signer

end SigV4
