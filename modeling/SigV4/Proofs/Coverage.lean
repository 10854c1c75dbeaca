import SigV4.Proofs.Signatures
/-!
# What a signature covers and what it leaves alone

A signature names the fields that it covers: all that are sent but the signature itself and those that
proxies change. `Covers` says so of an attempt. `Keeps` says what is still the same in the request that is
sent: method, server, path and, but for blanks at their ends, the values of all fields that are not set anew.
-/

namespace SigV4

open Http Canonical

/-! ## Trimmed values -/

/-- A value and the same without the spaces and tabs at its ends. -/
structure Http.FieldValue.TrimsTo (v w : FieldValue) : Prop where
  padded : ∃ front back, v.bytes = front ++ w.bytes ++ back ∧ ∀ b ∈ front ++ back, isPadding b = true
  first : ∀ b, w.bytes.head? = some b → isPadding b = false
  last : ∀ b, w.bytes.getLast? = some b → isPadding b = false

theorem Http.FieldValue.trimsTo_trim (v : FieldValue) : v.TrimsTo v.trim := by
  obtain ⟨padded, first, last⟩ := trims_dropWhile isPadding v.bytes
  exact ⟨padded, first, last⟩

theorem Http.FieldValue.TrimsTo.bytes_eq {v w : FieldValue} (h : v.TrimsTo w)
    (hv : ∀ b ∈ v.bytes, isPadding b = false) : w.bytes = v.bytes := by
  have hw : Trims isPadding v.bytes w.bytes := ⟨h.padded, h.first, h.last⟩
  rw [← trims_iff.1 hw, trims_iff.1 (trims_self hv)]

theorem Http.FieldValue.forall₂_trim (vs : List FieldValue) :
    List.Forall₂ FieldValue.TrimsTo vs (vs.map FieldValue.trim) := by
  induction vs with
  | nil => exact .nil
  | cons v vs ih => exact .cons v.trimsTo_trim ih

/-! ## Places -/

/-- The scheme, the server and the path that a URI stands for: `http` without a scheme, the root without a path. -/
def Http.Uri.place? : Uri → Option (Scheme × Authority × Bytes)
  | .path _ => Option.none
  | .server a => some (.http, a, [0x2F])
  | .full s a t => some (s, a, t.shownPath)

theorem SigningRequest.place_of_ofRequest? {r : Request} {s : SigningRequest} (h : ofRequest? r = some s) :
    r.method = s.method ∧ r.uri.place? = some (s.scheme, s.authority, s.path) ∧
      r.uri.authority? = some s.authority := by
  unfold ofRequest? at h
  split at h
  · cases h
  all_goals
    rename_i hu
    rw [← Option.some.inj h, hu]
    exact ⟨rfl, rfl, rfl⟩

/-! ## Names in a text -/

/-- The line of the signed names, the last but one. -/
def Canonical.namesIn (text : Bytes) : Bytes := ((linesIn text).reverse[1]?).getD []

theorem Canonical.namesIn_eq {r : SigningRequest} {ps : List Form.Pair} {text : Bytes}
    (hq : r.query = encodeQuery ps) (ht : request? r = some text) : namesIn text = nameList (signedNames r.header) := by
  obtain ⟨payload, hl⟩ := linesIn_eq hq ht
  rw [namesIn, hl, lines, List.reverse_append]
  rfl

/-! ## What a signature does to a request -/

/-- An attempt was about these names: all that are sent but for the signature and what proxies change. -/
structure Covers (done : Attempt) (names : List FieldName) : Prop where
  ascending : names.Pairwise (·.bytes < ·.bytes)
  complete : ∀ n, n ∈ names ↔
    done.request.header.values n ≠ [] ∧ n ∉ [.authorization, .expect, .userAgent, .amznTraceId]
  host : .host ∈ names
  text : ∃ text, done.canonicalRequest = some text ∧
    fieldsIn text = names.map (fieldRow done.request.header) ∧ namesIn text = nameList names

/-- What is sent is the request that was handed over but for an `authorization`, a missing host and the fields that
are set anew. -/
structure Keeps (r sent : Request) (fresh : List (FieldName × List Bytes)) : Prop where
  method : sent.method = r.method
  place : ∃ s a t, sent.uri = .full s a t ∧ r.uri.place? = some (s, a, t.shownPath)
  written : ∀ p ∈ fresh, (sent.header.values p.1).map (·.bytes) = p.2
  host : r.header.values .host = [] → (sent.header.values .host).map (·.bytes) = (r.uri.authority?.map (·.bytes)).toList
  rest : ∀ n, n ≠ .authorization → n ∉ fresh.map Prod.fst → (n = .host → r.header.values n ≠ []) →
    List.Forall₂ FieldValue.TrimsTo (r.header.values n) (sent.header.values n)

/-- A field that is set anew is signed, if it has a value. -/
theorem Covers.mem_iff {r : Request} {done : Attempt} {names : List FieldName} {fresh : List (FieldName × List Bytes)}
    (hc : Covers done names) (hk : Keeps r done.request fresh) {n : FieldName} {bs : List Bytes}
    (hp : (n, bs) ∈ fresh) (hn : n ∉ [.authorization, .expect, .userAgent, .amznTraceId]) : n ∈ names ↔ bs ≠ [] := by
  have hvalues : (done.request.header.values n).map (·.bytes) = bs := hk.written (n, bs) hp
  rw [hc.complete, ← hvalues, Ne, Ne, List.map_eq_nil_iff]
  exact and_iff_left hn

namespace Mandate

variable {m : Mandate} {r sent : Request} {taken prepared : SigningRequest} {text : Bytes}

/-- The fields that a mandate sets, whatever stood under their names. -/
def fresh (m : Mandate) : List (FieldName × List Bytes) :=
  match m.placement with
  | .header => [(.amzDate, [m.scope.stamp]), (.amzSecurityToken, m.credential.sessionToken.toList.map utf8)]
  | .query _ => []

theorem Signed.back (h : m.Signed r taken prepared text sent) :
    ∃ back, SigningRequest.ofRequest? sent = some back ∧ back.method = taken.method ∧ back.scheme = taken.scheme ∧
      back.authority = taken.authority ∧ back.path = taken.path := by
  have hrest := prepare_rest h.prepared_eq
  cases hm : m.placement with
  | header =>
    obtain ⟨v, -, hback⟩ := h.sent_header hm
    exact ⟨_, hback, hrest⟩
  | query expiry =>
    obtain ⟨t, front, -, -, -, hback⟩ := h.sent_query hm
    exact ⟨_, hback, hrest⟩

theorem Signed.place (h : m.Signed r taken prepared text sent) :
    sent.method = r.method ∧ ∃ s a t, sent.uri = .full s a t ∧ r.uri.place? = some (s, a, t.shownPath) := by
  obtain ⟨hmethod, hplace, -⟩ := SigningRequest.place_of_ofRequest? h.taken_eq
  obtain ⟨back, hback, hm, hs, ha, hp⟩ := h.back
  obtain ⟨hmethod', hplace', -⟩ := SigningRequest.place_of_ofRequest? hback
  rw [hs, ha, hp, ← hplace] at hplace'
  obtain ⟨q, -, hq⟩ := h.attached
  obtain ⟨t, rfl⟩ := SigningRequest.toRequest_eq_ok hq
  exact ⟨by rw [hmethod', hm, hmethod], q.scheme, q.authority, t, rfl, hplace'.symm⟩

theorem Signed.bytes_sent (h : m.Signed r taken prepared text sent) {n : FieldName} (hn : n ≠ .authorization) :
    (sent.header.values n).map (·.bytes) = m.bytesOf taken.authority r.header n := by
  rw [h.values_sent hn, values_prepared h.prepared_eq, SigningRequest.header_of_ofRequest? h.taken_eq]

theorem mem_fresh {n : FieldName} :
    n ∈ m.fresh.map Prod.fst ↔ m.placement = .header ∧ (n = .amzDate ∨ n = .amzSecurityToken) := by
  unfold fresh
  cases m.placement <;> simp

theorem signed_of_mem_fresh {n : FieldName} (h : n ∈ m.fresh.map Prod.fst) : n ∉ .authorization :: unsignedNames := by
  rcases (mem_fresh.1 h).2 with rfl | rfl <;> decide

theorem notMem_fresh {n : FieldName} (hdate : n ≠ .amzDate) (htoken : n ≠ .amzSecurityToken) :
    n ∉ m.fresh.map Prod.fst := by
  rw [mem_fresh]
  rintro ⟨-, rfl | rfl⟩
  · exact hdate rfl
  · exact htoken rfl

theorem bytesOf_fresh {p : FieldName × List Bytes} (hp : p ∈ m.fresh) (a : Authority) (h : Header) :
    m.bytesOf a h p.1 = p.2 := by
  have h1 : FieldName.amzDate ≠ .authorization := by decide
  have h2 : FieldName.amzSecurityToken ≠ .authorization := by decide
  have h3 : FieldName.amzSecurityToken ≠ .amzDate := by decide
  unfold fresh at hp
  cases hm : m.placement with
  | query expiry =>
    rw [hm] at hp
    cases hp
  | header =>
    rw [hm] at hp
    simp only [List.mem_cons, List.not_mem_nil, or_false] at hp
    rcases hp with rfl | rfl
    · rw [bytesOf, if_neg h1, if_pos ⟨hm, rfl⟩]
    · rw [bytesOf, if_neg h2, if_neg fun e => h3 e.2, if_pos ⟨hm, rfl⟩]

theorem bytesOf_free {n : FieldName} (hn : n ≠ .authorization) (hfresh : n ∉ m.fresh.map Prod.fst) (a : Authority)
    (h : Header) : m.bytesOf a h n =
      if n = .host ∧ h.values .host = [] then [a.bytes] else (h.values n).map (·.trim.bytes) := by
  rw [mem_fresh, not_and_or, not_or] at hfresh
  rw [bytesOf, if_neg hn, if_neg (by tauto), if_neg (by tauto)]

theorem Signed.keeps (h : m.Signed r taken prepared text sent) : Keeps r sent m.fresh := by
  obtain ⟨hmethod, hplace⟩ := h.place
  obtain ⟨-, -, hauthority⟩ := SigningRequest.place_of_ofRequest? h.taken_eq
  have hhost : .host ∉ m.fresh.map Prod.fst := notMem_fresh (by decide) (by decide)
  refine ⟨hmethod, hplace, ?_, ?_, ?_⟩
  · intro p hp
    have hne : p.1 ≠ .authorization := List.ne_of_not_mem_cons (signed_of_mem_fresh (List.mem_map_of_mem hp))
    rw [h.bytes_sent hne, bytesOf_fresh hp]
  · intro hnone
    rw [h.bytes_sent (by decide), bytesOf_free (by decide) hhost, if_pos ⟨rfl, hnone⟩, hauthority]
    rfl
  · intro n hn hfresh hpresent
    have htrim : sent.header.values n = (r.header.values n).map FieldValue.trim := by
      apply FieldValue.map_bytes_inj
      rw [h.bytes_sent hn, bytesOf_free hn hfresh, if_neg (by rintro ⟨rfl, hnone⟩; exact hpresent rfl hnone),
        List.map_map]
      rfl
    rw [htrim]
    exact FieldValue.forall₂_trim _

theorem Signed.covers (h : m.Signed r taken prepared text sent) :
    Covers (m.sign r) (signedNames prepared.header) := by
  have hauth := authorization_prepared h.prepared_eq
  have hnone : .authorization ∉ signedNames prepared.header := fun hm => (mem_signedNames.1 hm).1 hauth
  rw [h.sign_eq]
  refine ⟨sorted_signedNames _, ?_, host_mem_signedNames h.prepared_eq, text, rfl, ?_,
    namesIn_eq (prepare_query h.prepared_eq) h.text_eq⟩
  · intro n
    by_cases hn : n = .authorization
    · subst hn
      simp [hnone]
    · rw [mem_signedNames, h.values_sent hn]
      simp [unsignedNames, hn]
  · rw [fieldsIn_eq (prepare_query h.prepared_eq) h.text_eq]
    apply List.map_congr_left
    intro n hn
    have hne : n ≠ .authorization := fun e => hnone (e ▸ hn)
    rw [fieldRow, fieldRow, fieldText, fieldText, h.values_sent hne]

/-! ## Names that are advertised -/

/-- The only value under `authorization` is a ticket with the names. -/
theorem Signed.ticket_sent (h : m.Signed r taken prepared text sent) (hm : m.placement = .header)
    (hi : Verifier.Issuer.read? m.credentialText = some (Verifier.issuerOf m)) :
    ∃ v ticket, sent.header.values .authorization = [v] ∧ Verifier.Ticket.read? v.bytes = some ticket ∧
      ticket.names = (signedNames prepared.header).map (·.bytes) := by
  obtain ⟨v, hv, hback⟩ := h.sent_header hm
  have hcomma : (0x2C : UInt8) ∉
      m.scope.signature m.credential.secretAccessKey (m.scope.stringToSign text) := Hex.notMem_encode (by decide) _
  have hread := Verifier.Ticket.read?_authorizationText hi (signedNames_ne_nil h.prepared_eq) hcomma
  rw [← hv] at hread
  refine ⟨v, _, ?_, hread, rfl⟩
  rw [← SigningRequest.header_of_ofRequest? hback, Header.values_set, if_pos rfl]

/-- A pair under the key of the signed names. -/
def isNameList (p : Form.Pair) : Bool := p.1 == utf8 "X-Amz-SignedHeaders"

theorem filter_added {expiry : Nat} (hm : m.placement = .query expiry) (h : Header) :
    (m.added h).filter isNameList = [(utf8 "X-Amz-SignedHeaders", nameList (signedNames h))] := by
  have hother : ∀ k ∈ ["X-Amz-Algorithm", "X-Amz-Credential", "X-Amz-Date", "X-Amz-Expires", "X-Amz-Security-Token"],
      utf8 k ≠ utf8 "X-Amz-SignedHeaders" := by decide
  simp only [List.forall_mem_cons] at hother
  obtain ⟨h1, h2, h3, h4, h5, -⟩ := hother
  rw [added, hm]
  simp [parameters, isNameList, List.filter_map, h1, h2, h3, h4, h5]

/-- One list of names joins those that the request brings along. -/
theorem Signed.nameList_sent (h : m.Signed r taken prepared text sent) {expiry : Nat}
    (hm : m.placement = .query expiry) : ∃ back, SigningRequest.ofRequest? sent = some back ∧
      (back.query.filter isNameList).Perm (taken.query.filter isNameList ++
        [(utf8 "X-Amz-SignedHeaders", nameList (signedNames prepared.header))]) := by
  obtain ⟨t, front, -, -, -, hback⟩ := h.sent_query hm
  have hblank : isNameList ([], []) = false := by decide
  have hsignature : ∀ sig, [signaturePair sig].filter isNameList = [] := by
    intro sig
    have hkey : utf8 "X-Amz-Signature" ≠ utf8 "X-Amz-SignedHeaders" := by decide
    simp [isNameList, signaturePair, hkey]
  have hsigned : (m.signedPairs taken prepared).filter isNameList = taken.query.filter isNameList ++
      [(utf8 "X-Amz-SignedHeaders", nameList (signedNames prepared.header))] := by
    rw [signedPairs, List.filter_append, filter_added hm]
  refine ⟨_, hback, ?_⟩
  rw [List.filter_append, hsignature, List.append_nil, ← hsigned]
  exact filter_keptPairs hblank m taken prepared

end Mandate

namespace Signer

variable {s : Signer} {now : Time} {r : Request}

/-- The fields that a signature in the header sets, whatever stood under their names. -/
def fresh (s : Signer) (now : Time) (body : Bytes) : List (FieldName × List Bytes) :=
  [(.amzContentSha256, [Sha256.hex body]), (.amzDate, [(s.scope now).stamp]),
   (.amzSecurityToken, s.credential.sessionToken.toList.map utf8)]

/-- The hash of the body is set before the mandate is given. -/
theorem keeps_withPayloadHash {sent : Request} {body : Bytes} {fresh : List (FieldName × List Bytes)}
    (h : Keeps (withPayloadHash r body) sent fresh) (hfresh : .amzContentSha256 ∉ fresh.map Prod.fst) :
    Keeps r sent ((.amzContentSha256, [Sha256.hex body]) :: fresh) := by
  have hvalues : ∀ n, n ≠ .amzContentSha256 → (withPayloadHash r body).header.values n = r.header.values n := by
    intro n hn
    rw [withPayloadHash, Header.values_set, if_neg hn.symm]
  have hhash : (withPayloadHash r body).header.values .amzContentSha256 = [.hex (Sha256.digest body)] := by
    rw [withPayloadHash, Header.values_set, if_pos rfl]
  refine ⟨h.method, h.place, ?_, ?_, ?_⟩
  · rw [List.forall_mem_cons]
    refine ⟨?_, h.written⟩
    have hrest := h.rest .amzContentSha256 (by decide) hfresh (fun e => absurd e (by decide))
    rw [hhash, List.forall₂_cons_left_iff] at hrest
    obtain ⟨v, vs, hv, hvs, hsent⟩ := hrest
    obtain rfl := List.forall₂_nil_left_iff.1 hvs
    -- a hash has no blanks
    have hplain : ∀ b ∈ (FieldValue.hex (Sha256.digest body)).bytes, FieldValue.isPadding b = false := by
      intro b hb
      exact (Mandate.plain_of_isLowerHex (Hex.all_encode _) b hb).2.2.2
    rw [hsent, List.map_singleton, hv.bytes_eq hplain]
    rfl
  · intro hnone
    rw [← hvalues .host (by decide)] at hnone
    exact h.host hnone
  · intro n hn hnew hpresent
    rw [List.map_cons, List.mem_cons, not_or] at hnew
    rw [← hvalues n hnew.1] at hpresent ⊢
    exact h.rest n hn hnew.2 hpresent

/-- What every successful signature covers, and what it leaves alone. The names that it advertises, in the
`authorization` field or in the URI, are all names that are sent but the four that are never signed. -/
theorem signature_covers (s : Signer) (now : Time) (r : Request) :
    (∀ body, (s.sign now r body).fault = none → ∃ names v ticket,
      Covers (s.sign now r body) names ∧ Keeps r (s.sign now r body).request (s.fresh now body) ∧
      -- what is advertised
      (s.sign now r body).request.header.values .authorization = [v] ∧
      Verifier.Ticket.read? v.bytes = some ticket ∧ ticket.names = names.map (·.bytes) ∧
      .amzDate ∈ names ∧ .amzContentSha256 ∈ names ∧
      (.amzSecurityToken ∈ names ↔ s.credential.sessionToken.isSome = true)) ∧
    ∀ nanos, (s.presign now r nanos).fault = none → ∃ names taken back,
      Covers (s.presign now r nanos) names ∧ Keeps r (s.presign now r nanos).request [] ∧
      -- what is advertised
      (s.presign now r nanos).request.header.values .authorization = [] ∧
      SigningRequest.ofRequest? r = some taken ∧
      SigningRequest.ofRequest? (s.presign now r nanos).request = some back ∧
      (back.query.filter Mandate.isNameList).Perm (taken.query.filter Mandate.isNameList ++
        [(utf8 "X-Amz-SignedHeaders", nameList names)]) := by
  constructor
  · intro body h
    obtain ⟨taken, prepared, text, sent, hsigned, hsent, -, -⟩ := Mandate.sign_ok h
    obtain ⟨v, ticket, hv, hread, hnames⟩ := hsigned.ticket_sent rfl (issuer_read s now .header)
    have hcovers : Covers (s.sign now r body) (signedNames prepared.header) := hsigned.covers
    have hkeeps : Keeps r (s.sign now r body).request (s.fresh now body) := by
      have hmandate : .amzContentSha256 ∉ (Mandate.mk s.credential (s.scope now) .header).fresh.map Prod.fst :=
        Mandate.notMem_fresh (by decide) (by decide)
      exact keeps_withPayloadHash (hsent ▸ hsigned.keeps) hmandate
    have hdate : (.amzDate, [(s.scope now).stamp]) ∈ s.fresh now body := by simp [fresh]
    have hhash : (.amzContentSha256, [Sha256.hex body]) ∈ s.fresh now body := by simp [fresh]
    have htoken : (.amzSecurityToken, s.credential.sessionToken.toList.map utf8) ∈ s.fresh now body := by simp [fresh]
    refine ⟨_, v, ticket, hcovers, hkeeps, hsent ▸ hv, hread, hnames, ?_, ?_, ?_⟩
    · rw [hcovers.mem_iff hkeeps hdate (by decide)]
      exact List.cons_ne_nil _ _
    · rw [hcovers.mem_iff hkeeps hhash (by decide)]
      exact List.cons_ne_nil _ _
    · rw [hcovers.mem_iff hkeeps htoken (by decide)]
      cases s.credential.sessionToken <;> simp
  · intro nanos h
    obtain ⟨-, heq⟩ := presign_eq h
    rw [heq] at h ⊢
    obtain ⟨taken, prepared, text, sent, hsigned, hsent, -, -⟩ := Mandate.sign_ok h
    obtain ⟨back, hback, hperm⟩ := hsigned.nameList_sent rfl
    obtain ⟨t, front, hquery, -⟩ := hsigned.sent_query rfl
    have hcovers := hsigned.covers
    rw [hsent]
    refine ⟨_, taken, back, hcovers, hsigned.keeps, ?_, hsigned.taken_eq, hback, hperm⟩
    rw [hquery]
    exact Mandate.authorization_prepared hsigned.prepared_eq

theorem signature_covers_retried : ∃ names names' sent sent',
    sent = (temporary.atTime morning).sign ⟨0, 0⟩ retried (utf8 "x") ∧ sent.fault = none ∧ Covers sent names ∧
      .amzSecurityToken ∈ names ∧ Keeps retried sent.request ((temporary.atTime morning).fresh ⟨0, 0⟩ (utf8 "x")) ∧
      sent' = (temporary.atTime morning).presign ⟨0, 0⟩ retried 60000000000 ∧ sent'.fault = none ∧
      Covers sent' names' ∧ Keeps retried sent'.request [] := by
  have h : ((temporary.atTime morning).sign ⟨0, 0⟩ retried (utf8 "x")).fault = none :=
    sign_of_isReady (by decide +kernel)
  have h' : ((temporary.atTime morning).presign ⟨0, 0⟩ retried 60000000000).fault = none :=
    presign_of_isReady (by decide) (by decide +kernel)
  obtain ⟨hsign, hpresign⟩ := signature_covers (temporary.atTime morning) ⟨0, 0⟩ retried
  obtain ⟨names, v, ticket, hcovers, hkeeps, -, -, -, -, -, htoken⟩ := hsign (utf8 "x") h
  obtain ⟨names', taken, back, hcovers', hkeeps', -⟩ := hpresign 60000000000 h'
  exact ⟨names, names', _, _, rfl, h, hcovers, htoken.2 rfl, hkeeps, rfl, h', hcovers', hkeeps'⟩

end Signer

end SigV4
