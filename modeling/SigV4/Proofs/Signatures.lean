import SigV4.Proofs.Again
import SigV4.Proofs.Lines
/-!
# Earlier signatures

What becomes of the signatures that a request brings along when it is signed: one in the header is
neither signed nor kept, those in the URI are both. A signature in the URI adds one pair to them.
-/

namespace SigV4

open Http Canonical

/-! ## Signatures that a text shows -/

/-- A pair under the name of signatures. -/
def isSignature (p : Form.Pair) : Bool := p.1 == utf8 "X-Amz-Signature"

/-- The pairs of the query line under the name of signatures. -/
def Canonical.signaturesIn (text : Bytes) : List Bytes := (pairsIn text).filter (utf8 "X-Amz-Signature=").isPrefixOf

theorem Canonical.isPrefixOf_shown (p : Form.Pair) :
    (utf8 "X-Amz-Signature=").isPrefixOf (shown p) = isSignature p := by
  have hname : utf8 "X-Amz-Signature=" = utf8 "X-Amz-Signature" ++ [0x3D] := by decide
  have hkept : Percent.encode Percent.isUnreserved (utf8 "X-Amz-Signature") = utf8 "X-Amz-Signature" := by
    decide
  have hkey : (0x3D : UInt8) ∉ (encodePair p).1 := Percent.notMem_encode (by decide) (by decide) p.1
  rw [Bool.eq_iff_iff, List.isPrefixOf_iff_prefix, hname, shown, Bytes.prefix_iff (by decide) hkey, isSignature,
    beq_iff_eq, ← hkept, eq_comm]
  exact Percent.encode_inj (by decide)

namespace Mandate

variable {m : Mandate} {r sent : Request} {taken prepared : SigningRequest} {text : Bytes}

theorem filter_signedPairs : (m.signedPairs taken prepared).filter isSignature = taken.query.filter isSignature := by
  have hother : ∀ k ∈ parameterNames, utf8 k ≠ utf8 "X-Amz-Signature" := by decide
  have hadded : (m.added prepared.header).filter isSignature = [] := by
    rw [List.filter_eq_nil_iff]
    rintro ⟨key, value⟩ hp
    obtain ⟨k, hk, rfl, -⟩ := parameter_of_mem_added hp
    simpa [isSignature] using hother k hk
  rw [signedPairs, List.filter_append, hadded, List.append_nil]

/-- The query line shows the signatures that the request had when it was taken apart. -/
theorem signaturesIn_perm (hp : m.prepare taken = .ok prepared) (ht : request? prepared = some text) :
    (signaturesIn text).Perm ((taken.query.filter isSignature).map shown) := by
  have hshown : ((utf8 "X-Amz-Signature=").isPrefixOf : Bytes → Bool) ∘ shown = isSignature :=
    funext isPrefixOf_shown
  rw [signaturesIn, pairsIn_eq (prepare_query hp) ht, List.filter_map, hshown, ← filter_signedPairs]
  exact ((sortPairs_perm _).filter _).map _

theorem notMem_fieldsIn (hp : m.prepare taken = .ok prepared) (ht : request? prepared = some text) :
    ∀ line ∈ fieldsIn text, ¬ utf8 "authorization:" <+: line := by
  have hname : utf8 "authorization:" = FieldName.authorization.bytes ++ [0x3A] := by decide
  intro line hline
  rw [fieldsIn_eq (prepare_query hp) ht] at hline
  obtain ⟨n, hn, rfl⟩ := List.mem_map.1 hline
  rw [hname, fieldRow, Bytes.prefix_iff (FieldName.notMem (by decide) _) (FieldName.notMem (by decide) _)]
  intro e
  obtain rfl := FieldName.ext_bytes e
  exact (mem_signedNames.1 hn).1 (authorization_prepared hp)

theorem canonicalRequest_eq_some : (m.sign r).canonicalRequest = some text ↔
    ∃ taken prepared, SigningRequest.ofRequest? r = some taken ∧ m.prepare taken = .ok prepared ∧
      request? prepared = some text := by
  unfold sign
  cases htaken : SigningRequest.ofRequest? r with
  | none => simp
  | some taken =>
    cases hprepared : m.prepare taken with
    | error f => simp [hprepared]
    | ok prepared => cases htext : request? prepared <;> simp [hprepared, htext]

/-! ## Signatures that a request keeps -/

theorem ofRequest?_remainder (r : Request) : SigningRequest.ofRequest? (SigningRequest.remainder r) = none := by
  unfold SigningRequest.remainder
  split <;> rfl

/-- A failed attempt leaves nothing that can be signed. -/
theorem fault_of_ofRequest? {back : SigningRequest} (h : SigningRequest.ofRequest? (m.sign r).request = some back) :
    (m.sign r).fault = none := by
  have hnone := ofRequest?_remainder r
  unfold sign at h ⊢
  cases htaken : SigningRequest.ofRequest? r with
  | none => simp [htaken, hnone] at h
  | some taken =>
    cases hprepared : m.prepare taken with
    | error f => simp [htaken, hprepared, hnone] at h
    | ok prepared =>
      cases htext : request? prepared with
      | none => simp [htaken, hprepared, htext, hnone] at h
      | some text =>
        simp only [htaken, hprepared, htext] at h ⊢
        split
        · rename_i f hf
          rw [hf] at h
          simp [Except.toOption, hnone] at h
        · rfl

theorem signatures_keptPairs :
    ((m.keptPairs taken prepared).filter isSignature).Perm (taken.query.filter isSignature) := by
  have hname : isSignature ([], []) = false := by decide
  exact (filter_keptPairs hname m taken prepared).trans (List.Perm.of_eq filter_signedPairs)

/-- The pair that a signature puts into the URI. -/
def left (m : Mandate) (text : Bytes) : List Form.Pair :=
  match m.placement with
  | .header => []
  | .query _ => [signaturePair (m.scope.signature m.credential.secretAccessKey (m.scope.stringToSign text))]

/-- What was signed in the URI is still there, and no more comes than one signature. -/
theorem Signed.signatures_sent (h : m.Signed r taken prepared text sent) :
    ∃ back, SigningRequest.ofRequest? sent = some back ∧
      (back.query.filter isSignature).Perm (taken.query.filter isSignature ++ m.left text) := by
  cases hm : m.placement with
  | header =>
    obtain ⟨v, -, hback⟩ := h.sent_header hm
    refine ⟨_, hback, ?_⟩
    rw [left, hm, List.append_nil]
    exact signatures_keptPairs
  | query expiry =>
    obtain ⟨t, front, -, -, -, hback⟩ := h.sent_query hm
    refine ⟨_, hback, ?_⟩
    rw [left, hm, List.filter_append]
    exact signatures_keptPairs.append_right _

/-! ## Signing in the URI what was signed before -/

theorem exists_payloadHash? {h : Header} (hr : Readable h) : ∃ payload, payloadHash? h = some payload := by
  unfold payloadHash?
  cases hf : h.first? .amzContentSha256 with
  | none => exact ⟨_, rfl⟩
  | some v =>
    have hv : v ∈ h.values .amzContentSha256 := List.mem_of_mem_head? hf
    have hn : .amzContentSha256 ∈ signedNames h := mem_signedNames.2 ⟨List.ne_nil_of_mem hv, by decide⟩
    exact ⟨v.bytes, by simp [FieldValue.text?, hr _ hn v hv]⟩

/-- Trimmed values of a text are texts, and so are hosts. -/
theorem readable_withHost {a : Authority} {h k : Header} (hr : Readable k)
    (hv : ∀ n, n ≠ .authorization → h.values n = k.values n) : Readable (withHost a h) := by
  intro n hn v hm
  have hb := List.mem_map_of_mem hm (f := FieldValue.bytes)
  rw [values_withHost] at hb
  split at hb
  · cases hb
  split at hb
  · rw [List.mem_singleton.1 hb]
    exact List.all_eq_true.2 fun b hb => (Authority.value_of_mem hb).2.1
  · rename_i hauth _
    obtain ⟨w, hw, he⟩ := List.mem_map.1 hb
    rw [hv n hauth] at hw
    have htext := hr n (mem_signedNames.2 ⟨List.ne_nil_of_mem hw, (mem_signedNames.1 hn).2⟩) w hw
    rw [← he, isText_iff_words, words_trim, ← isText_iff_words]
    exact htext

/-- What was signed before can be signed in the URI: there is a text to sign. -/
theorem Signed.exists_text {q : Request} (h : m.Signed q taken prepared text sent) {m' : Mandate} {expiry : Nat}
    (hm : m'.placement = .query expiry) : ∃ text', (m'.sign sent).canonicalRequest = some text' := by
  obtain ⟨back, hback, -⟩ := h.signatures_sent
  have hsigned : m'.signedHeader back.authority back.header = .ok (withHost back.authority back.header) := by
    rw [signedHeader, hm]
  have hread : Readable (withHost back.authority back.header) :=
    readable_withHost (request?_eq_some.1 h.text_eq).1
      fun n hn => SigningRequest.header_of_ofRequest? hback ▸ h.values_sent hn
  obtain ⟨payload, hpayload⟩ := exists_payloadHash? hread
  exact ⟨_, canonicalRequest_eq_some.2 ⟨back, _, hback, prepare_eq_ok.2 ⟨_, hsigned, rfl⟩,
    request?_eq_some.2 ⟨hread, payload, hpayload, rfl⟩⟩⟩

end Mandate

end SigV4
