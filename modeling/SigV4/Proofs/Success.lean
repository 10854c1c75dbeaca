import SigV4.Proofs.Sent
import SigV4.Signer
/-!
# When a signature is made

Only the length of the URI can stop encoded pairs from being written back, and only bytes that no
field may hold can stop a signature from going into the header. What the signature is does not matter.
-/

namespace SigV4

open Http Canonical

/-! ## Written queries -/

theorem Form.isQueryByte_of_mem_written {p : Form.Pair} {b : UInt8} (h : b ∈ Form.written p) :
    isQueryByte b = true ∧ b < 0x80 := by
  have all : ∀ n : Fin 256, Percent.isUnreserved (UInt8.ofFin n) = true ∨ UInt8.ofFin n = 0x25 ∨ UInt8.ofFin n = 0x3D →
      isQueryByte (UInt8.ofFin n) = true ∧ UInt8.ofFin n < 0x80 := by decide +kernel
  refine all b.toFin ?_
  by_contra hn
  simp only [not_or, Bool.not_eq_true] at hn
  exact Form.notMem_written hn.1 hn.2.1 hn.2.2 p h

theorem Form.isQuery_written (ps : List Form.Pair) :
    Target.isQuery (Bytes.join [0x26] (ps.map Form.written)) = true := by
  have hb : ∀ b ∈ Bytes.join [0x26] (ps.map Form.written), isQueryByte b = true ∧ b < 0x80 := by
    intro b hb
    rcases Bytes.mem_join hb with hb | ⟨piece, hp, hb⟩
    · obtain rfl := List.mem_singleton.1 hb
      decide
    · obtain ⟨p, -, rfl⟩ := List.mem_map.1 hp
      exact Form.isQueryByte_of_mem_written hb
  rw [Target.isQuery, Bool.and_eq_true, List.all_eq_true]
  exact ⟨fun b h => (hb b h).1, Utf8.isValid_of_wellFormed (Utf8.wellFormed_ascii fun b h => (hb b h).2)⟩

/-! ## Requests put together -/

theorem Http.Target.exists_read {bs : Bytes} (hl : bs.length ≤ longestUri) (hs : startsPath bs = true)
    (hp : isPath (pathPart (withoutFragment bs)) = true) (hq : (queryPart (withoutFragment bs)).all isQuery = true) :
    ∃ t, read bs = .ok t := by
  unfold read
  rw [if_neg (Nat.not_lt.2 hl), if_neg (by simp [hs])]
  simp only
  rw [dif_pos ⟨hp, hq⟩]
  exact ⟨_, rfl⟩

namespace SigningRequest

theorem startsPath_targetBytes {s : SigningRequest} (hstart : s.path.head? = some 0x2F) :
    Target.startsPath s.targetBytes = true := by
  obtain ⟨path, hpath⟩ := List.head?_eq_some_iff.1 hstart
  unfold targetBytes
  split
  · rw [hpath]
    rfl
  · rw [hpath, List.cons_append]
    rfl

/-- Encoded pairs behind a path can be put together if that is how a path may start and is not too long. -/
theorem exists_toRequest_iff {s : SigningRequest} {ps : List Form.Pair} (hq : s.query = ps.map encodePair)
    (hpath : Target.isPath s.path = true) :
    (∃ sent, s.toRequest = .ok sent) ↔ s.targetBytes.length ≤ longestUri ∧ Target.startsPath s.targetBytes = true := by
  constructor
  · rintro ⟨sent, hsent⟩
    unfold toRequest Target.read at hsent
    split at hsent
    · rename_i t ht
      split at ht
      · cases ht
      · rename_i hl
        split at ht
        · cases ht
        · rename_i hs
          exact ⟨Nat.not_lt.1 hl, by simpa using hs⟩
    · cases hsent
  rintro ⟨hl, hs⟩
  have hw : s.query.map writePair = ps.map Form.written := by rw [hq, List.map_map]; rfl
  have hbytes : ∀ b, isPathByte b = false → b ∉ s.path := by
    intro b hb hm
    rw [Target.isPath, Bool.and_eq_true, List.all_eq_true] at hpath
    rw [hpath.1 b hm] at hb
    cases hb
  -- no fragment is cut off
  have hf : (0x23 : UInt8) ∉ s.targetBytes := by
    unfold targetBytes
    split
    · exact hbytes _ (by decide)
    · rw [hw, List.mem_append, List.mem_cons, not_or, not_or]
      refine ⟨hbytes _ (by decide), by decide, fun hm => ?_⟩
      have hv := Form.isQuery_written ps
      rw [Target.isQuery, Bool.and_eq_true, List.all_eq_true] at hv
      exact absurd (hv.1 _ hm) (by decide)
  -- the target falls apart into the path and the query again
  have hparts :
      Target.pathPart s.targetBytes = s.path ∧ (Target.queryPart s.targetBytes).all Target.isQuery = true := by
    unfold targetBytes
    split
    · obtain ⟨h1, h2⟩ := Target.parts_path (hbytes 0x3F (by decide))
      exact ⟨h1, by rw [h2]; rfl⟩
    · obtain ⟨h1, h2⟩ := Target.parts_path_query (hbytes 0x3F (by decide)) (Bytes.join [0x26] (s.query.map writePair))
      refine ⟨h1, ?_⟩
      rw [h2, hw]
      exact Form.isQuery_written ps
  rw [← Target.withoutFragment_eq hf] at hparts
  obtain ⟨t, ht⟩ := Target.exists_read hl hs (by rw [hparts.1]; exact hpath) hparts.2
  exact ⟨_, by rw [toRequest, ht]⟩

end SigningRequest

theorem Bytes.length_join {sep : UInt8} {ps : List Bytes} (h : ps ≠ []) :
    (Bytes.join [sep] ps).length + 1 = (ps.flatMap (· ++ [sep])).length := by
  induction ps with
  | nil => exact absurd rfl h
  | cons p ps ih =>
    by_cases hps : ps = []
    · subst hps
      simp
    · rw [Bytes.join_cons [sep] p hps]
      simp only [List.flatMap_cons, List.length_append]
      rw [← ih hps, Nat.add_assoc]

/-- The order of the pairs has no influence on the length of a query. -/
theorem Form.length_written {ps qs : List Form.Pair} (h : ps.Perm qs) :
    (Bytes.join [0x26] (ps.map Form.written)).length = (Bytes.join [0x26] (qs.map Form.written)).length := by
  by_cases hps : ps = []
  · subst hps
    rw [h.nil_eq]
  · have hqs : qs ≠ [] := fun e => hps (e ▸ h).eq_nil
    have hlen : ∀ rs : List Form.Pair, rs ≠ [] → (Bytes.join [0x26] (rs.map Form.written)).length + 1 =
        ((rs.map Form.written).flatMap (· ++ [0x26])).length := fun rs hrs => Bytes.length_join (by simpa using hrs)
    have hp := hlen ps hps
    have hq := hlen qs hqs
    have hsum := ((h.map Form.written).flatMap_right (· ++ [0x26])).length_eq
    omega

namespace SigningRequest

theorem length_targetBytes {s : SigningRequest} {ps qs : List Form.Pair} (hq : s.query = ps.map encodePair)
    (h : ps.Perm qs) :
    s.targetBytes.length ≤ s.path.length + 1 + (Bytes.join [0x26] (qs.map Form.written)).length := by
  have hw : s.query.map writePair = ps.map Form.written := by rw [hq, List.map_map]; rfl
  unfold targetBytes
  split
  · omega
  · rw [hw, List.length_append, List.length_cons, Form.length_written h]
    omega

theorem isPath_of_ofRequest? {r : Request} {s : SigningRequest} (h : ofRequest? r = some s) :
    Target.isPath s.path = true := by
  have hroot : Target.isPath [0x2F] = true := by decide +kernel
  unfold ofRequest? at h
  split at h
  · cases h
  · rw [← Option.some.inj h]
    exact hroot
  · rename_i scheme a t _
    rw [← Option.some.inj h]
    change Target.isPath t.shownPath = true
    unfold Target.shownPath
    split
    · exact hroot
    · exact t.path_valid

end SigningRequest

/-! ## Signatures -/

namespace Mandate

variable {m : Mandate} {r : Request} {taken prepared : SigningRequest}

/-- All faults of a request that was prepared and rendered come after the signature. -/
theorem sign_fault (ht : SigningRequest.ofRequest? r = some taken) (hp : m.prepare taken = .ok prepared)
    (hx : (request? prepared).isSome = true)
    (hs : ∀ sig : Bytes, sig.length = 64 → sig.all Hex.isLowerHex = true →
      ∃ sent, (m.attach prepared sig >>= SigningRequest.toRequest) = .ok sent) : (m.sign r).fault = none := by
  obtain ⟨text, htext⟩ := Option.isSome_iff_exists.1 hx
  obtain ⟨sent, hsent⟩ := hs (m.scope.signature m.credential.secretAccessKey (m.scope.stringToSign text))
    (length_signature _ _ _) (all_signature _ _ _)
  simp only [sign, ht, hp, htext, hsent]

/-- The length that a URI has at most when it is signed in the header. -/
def uriLength (m : Mandate) (taken prepared : SigningRequest) : Nat :=
  taken.path.length + 1 + (Bytes.join [0x26] ((m.signedPairs taken prepared).map Form.written)).length

/-- A prepared request can be put together with other encoded pairs and another header. -/
theorem exists_sent (ht : SigningRequest.ofRequest? r = some taken) (hp : m.prepare taken = .ok prepared)
    (hstart : taken.path.head? = some 0x2F) {q : SigningRequest} {ps qs : List Form.Pair}
    (hpath : q.path = prepared.path) (hq : q.query = ps.map encodePair) (h : ps.Perm qs)
    (hl : taken.path.length + 1 + (Bytes.join [0x26] (qs.map Form.written)).length ≤ longestUri) :
    ∃ sent, q.toRequest = .ok sent := by
  obtain ⟨-, -, -, htaken⟩ := prepare_rest hp
  have hsame : q.path = taken.path := hpath.trans htaken
  rw [SigningRequest.exists_toRequest_iff hq (hsame ▸ SigningRequest.isPath_of_ofRequest? ht)]
  constructor
  · refine Nat.le_trans (SigningRequest.length_targetBytes hq h) ?_
    rw [hsame]
    exact hl
  · apply SigningRequest.startsPath_targetBytes
    rw [hsame]
    exact hstart

/-- A signature goes into the header when the access key and the signed names may stand there. -/
theorem sign_header_ok (ht : SigningRequest.ofRequest? r = some taken) (hp : m.prepare taken = .ok prepared)
    (hx : (request? prepared).isSome = true) (hm : m.placement = .header)
    (ha : (m.authorizationText (signedNames prepared.header) []).all isValueByte = true)
    (hstart : taken.path.head? = some 0x2F) (hl : m.uriLength taken prepared ≤ longestUri) :
    (m.sign r).fault = none := by
  apply sign_fault ht hp hx
  intro sig _ hsig
  have hv : (m.authorizationText (signedNames prepared.header) sig).all isValueByte = true := by
    have hs : sig.all isValueByte = true := List.all_eq_true.2 fun b hb => (plain_of_isLowerHex hsig b hb).2.2.1
    rw [authorizationText, List.append_nil] at ha
    rw [authorizationText, List.all_append, ha, hs]
    rfl
  have hq : prepared.query = (sortPairs (m.signedPairs taken prepared)).map encodePair := by
    rw [prepare_query hp, encodeQuery_eq]
  rw [attach_of_value hm (rfl : FieldValue.bytes ⟨_, hv⟩ = _)]
  exact exists_sent (q := { prepared with header := prepared.header.set .authorization ⟨_, hv⟩ }) ht hp hstart rfl hq
    (sortPairs_perm _) hl

/-- A signature goes into a URI that is not too long: with its key it is 81 bytes. -/
theorem sign_query_ok (ht : SigningRequest.ofRequest? r = some taken) (hp : m.prepare taken = .ok prepared)
    (hx : (request? prepared).isSome = true) {expiry : Nat} (hm : m.placement = .query expiry)
    (hstart : taken.path.head? = some 0x2F) (hl : m.uriLength taken prepared + 81 ≤ longestUri) :
    (m.sign r).fault = none := by
  apply sign_fault ht hp hx
  intro sig hlen hsig
  have hq : (prepared.pushPair (utf8 "X-Amz-Signature") sig).query =
      (sortPairs (m.signedPairs taken prepared) ++ [signaturePair sig]).map encodePair := by
    rw [SigningRequest.pushPair, List.map_append, List.map_singleton, encodePair_signaturePair hsig, prepare_query hp,
      encodeQuery_eq]
    rfl
  have hwritten : (Form.written (signaturePair sig)).length = 80 := by
    have h1 : (utf8 "&").length = 1 := by decide
    have h2 : (utf8 "&X-Amz-Signature=").length = 17 := by decide
    have h := congrArg List.length (written_signaturePair hsig (by rintro rfl; cases hlen))
    simp only [List.length_append, hlen, h1, h2] at h
    omega
  have hne : m.signedPairs taken prepared ≠ [] := by simp [signedPairs, added, hm, parameters]
  rw [attach_query hm]
  apply exists_sent (q := prepared.pushPair (utf8 "X-Amz-Signature") sig) ht hp hstart rfl hq
    ((sortPairs_perm _).append_right _)
  rw [List.map_append, Bytes.join_append _ (by simpa using hne) (by simp), List.map_singleton, Bytes.join_singleton,
    List.length_append, List.length_append, hwritten, List.length_singleton]
  unfold uriLength at hl
  omega

/-- What decides, short of the signature, whether a request can be signed: a little more than is needed. -/
def isReady (m : Mandate) (r : Request) : Bool :=
  match SigningRequest.ofRequest? r with
  | none => false
  | some taken =>
    match m.prepare taken with
    | .error _ => false
    | .ok prepared =>
      (request? prepared).isSome && taken.path.head? == some 0x2F && m.uriLength taken prepared + 81 ≤ longestUri
        && (m.authorizationText (signedNames prepared.header) []).all isValueByte

theorem sign_of_isReady (h : m.isReady r = true) : (m.sign r).fault = none := by
  unfold isReady at h
  split at h
  · cases h
  rename_i taken ht
  split at h
  · cases h
  rename_i prepared hp
  simp only [Bool.and_eq_true, beq_iff_eq, decide_eq_true_eq] at h
  obtain ⟨⟨⟨hx, hstart⟩, hl⟩, ha⟩ := h
  cases hm : m.placement with
  | header => exact sign_header_ok ht hp hx hm ha hstart (by omega)
  | query expiry => exact sign_query_ok ht hp hx hm hstart hl

end Mandate

namespace Signer

theorem sign_of_isReady {s : Signer} {now : Time} {r : Request} {body : Bytes}
    (h : (Mandate.mk s.credential (s.scope now) .header).isReady (withPayloadHash r body) = true) :
    (s.sign now r body).fault = none := Mandate.sign_of_isReady h

theorem presign_of_isReady {s : Signer} {now : Time} {r : Request} {nanos : Nat} (he : isExpiry nanos = true)
    (h : (Mandate.mk s.credential (s.scope now) (.query (nanos / nanosPerSecond))).isReady r = true) :
    (s.presign now r nanos).fault = none := by
  unfold presign
  rw [if_pos he]
  exact Mandate.sign_of_isReady h

/-! ## A signer and its requests -/

/-- A signer with a long-term credential. -/
def longTerm : Signer :=
  ⟨{ accessKeyId := "AKID", secretAccessKey := "secret" }, "eu-west-1", none, by decide +kernel, by decide +kernel⟩

/-- 2024-05-01T10:20:30Z. -/
def morning : Time := ⟨1714558830, 0⟩

/-- A request for the root with a query. -/
def asking (query : Bytes) (h : Target.isQuery query = true) : Request :=
  ⟨.get, .full .https .exampleCom { Target.root with query := some query, query_valid := h }, {}⟩

theorem query_asking {query : Bytes} {h : Target.isQuery query = true} {taken : SigningRequest}
    (ht : SigningRequest.ofRequest? (asking query h) = some taken) : taken.query = Form.read query := by
  rw [← Option.some.inj ht]
  rfl

/-- A request with two pairs. -/
def twoPairs : Request := asking (utf8 "b=2&a") (by decide +kernel)

/-- A request with one pair, which is empty on both sides. -/
def bareEquals : Request := asking (utf8 "=") (by decide +kernel)

end Signer

end SigV4
