import SigV4.Proofs.Prepared
import SigV4.Proofs.Query
/-!
# Requests on the wire

A signed request is sent as its path, a question mark and its pairs. Whoever takes it apart again
finds the path and the pairs, but none that is empty on both sides, and the header as it was. `Signed`
names the steps that led to it.
-/

namespace SigV4

open Http

/-! ## Paths and queries -/

namespace Http.Target

theorem read_eq_ok {bs : Bytes} {t : Target} (h : read bs = .ok t) :
    t.path = pathPart (withoutFragment bs) ∧ t.query = queryPart (withoutFragment bs) := by
  unfold read at h
  split at h
  · cases h
  split at h
  · cases h
  simp only at h
  split at h
  · rw [← Except.ok.inj h]
    exact ⟨rfl, rfl⟩
  · cases h

theorem withoutFragment_eq {bs : Bytes} (h : (0x23 : UInt8) ∉ bs) : withoutFragment bs = bs :=
  List.takeWhile_eq_self_iff.2 fun _ hb => bne_iff_ne.2 fun e => h (e ▸ hb)

theorem parts_path {path : Bytes} (h : (0x3F : UInt8) ∉ path) : pathPart path = path ∧ queryPart path = none := by
  have hp : ∀ b ∈ path, (b != 0x3F) = true := fun b hb => bne_iff_ne.2 fun e => h (e ▸ hb)
  refine ⟨List.takeWhile_eq_self_iff.2 hp, ?_⟩
  rw [queryPart, List.dropWhile_eq_nil_iff.2 hp]

theorem parts_path_query {path : Bytes} (h : (0x3F : UInt8) ∉ path) (query : Bytes) :
    pathPart (path ++ 0x3F :: query) = path ∧ queryPart (path ++ 0x3F :: query) = some query := by
  have hp : ∀ b ∈ path, (b != 0x3F) = true := fun b hb => bne_iff_ne.2 fun e => h (e ▸ hb)
  constructor
  · rw [pathPart, List.takeWhile_append_of_pos hp]
    simp
  · rw [queryPart, List.dropWhile_append, List.dropWhile_eq_nil_iff.2 hp]
    simp

theorem notMem_shownPath {b : UInt8} (h : isPathByte b = false) (hb : b ≠ 0x2F) (t : Target) : b ∉ t.shownPath := by
  unfold shownPath
  split
  · simpa using hb
  · intro hm
    have hv := t.path_valid
    rw [isPath, Bool.and_eq_true, List.all_eq_true] at hv
    rw [hv.1 b hm] at h
    cases h

theorem shownPath_ne_nil (t : Target) : t.shownPath ≠ [] := by
  unfold shownPath
  split
  · simp
  · rename_i h
    simpa using h

end Http.Target

/-! ## Requests taken apart -/

namespace SigningRequest

/-- A path and pairs as they stand in a URI. -/
structure WellTaken (r : SigningRequest) : Prop where
  path : r.path ≠ []
  query : ∀ p ∈ r.query, Form.WellFormed p
  noFragment : (0x23 : UInt8) ∉ r.path
  noQuery : (0x3F : UInt8) ∉ r.path

theorem wellTaken {r : Request} {s : SigningRequest} (h : ofRequest? r = some s) : WellTaken s := by
  unfold ofRequest? at h
  split at h
  · cases h
  · rw [← Option.some.inj h]
    exact ⟨by simp, by simp, by simp, by simp⟩
  · rename_i scheme a t _
    rw [← Option.some.inj h]
    refine ⟨t.shownPath_ne_nil, ?_, t.notMem_shownPath (by decide) (by decide),
      t.notMem_shownPath (by decide) (by decide)⟩
    intro p hp
    cases hq : t.query with
    | none => simp [hq] at hp
    | some q =>
      simp only [hq, Option.map_some, Option.getD_some] at hp
      exact Form.wellFormed_of_mem_read hp

theorem toRequest_eq_ok {s : SigningRequest} {sent : Request} (h : s.toRequest = .ok sent) :
    ∃ t, sent = ⟨s.method, .full s.scheme s.authority t, s.header⟩ := by
  unfold toRequest at h
  split at h
  · rename_i t _
    exact ⟨t, (Except.ok.inj h).symm⟩
  · cases h

/-- Encoded pairs arrive, all but those that are empty on both sides. -/
theorem ofRequest?_toRequest {s : SigningRequest} {sent : Request} {ps : List Form.Pair} (hs : s.toRequest = .ok sent)
    (hq : s.query = ps.map Canonical.encodePair) (hp : ∀ p ∈ ps, Form.WellFormed p) (hne : s.path ≠ [])
    (hfragment : (0x23 : UInt8) ∉ s.path) (hmark : (0x3F : UInt8) ∉ s.path) :
    ∃ t, sent = ⟨s.method, .full s.scheme s.authority t, s.header⟩ ∧
      (ps ≠ [] → t.query = some (Bytes.join [0x26] (ps.map Form.written))) ∧
      ofRequest? sent = some { s with query := ps.filter (· ≠ ([], [])) } := by
  have hw : s.query.map writePair = ps.map Form.written := by rw [hq, List.map_map]; rfl
  have hempty : s.query.isEmpty = ps.isEmpty := by rw [hq, List.isEmpty_map]
  unfold toRequest at hs
  cases ht : Target.read s.targetBytes with
  | error f => simp [ht] at hs
  | ok t =>
    rw [ht] at hs
    obtain rfl := Except.ok.inj hs
    obtain ⟨hpath, hquery⟩ := Target.read_eq_ok ht
    by_cases he : ps = []
    · subst he
      simp only [targetBytes, hempty, List.isEmpty_nil, if_true, Target.withoutFragment_eq hfragment,
        (Target.parts_path hmark).1, (Target.parts_path hmark).2] at hpath hquery
      refine ⟨t, rfl, fun h => absurd rfl h, ?_⟩
      simp [ofRequest?, Target.shownPath, hpath, hquery, hne]
    · have hj : (0x23 : UInt8) ∉ s.path ++ 0x3F :: Bytes.join [0x26] (ps.map Form.written) := by
        simp only [List.mem_append, List.mem_cons, not_or]
        refine ⟨hfragment, by decide, fun hm => ?_⟩
        rcases Bytes.mem_join hm with hm | ⟨piece, hpiece, hm⟩
        · exact absurd hm (by decide)
        · obtain ⟨p, -, rfl⟩ := List.mem_map.1 hpiece
          exact Form.notMem_written (by decide) (by decide) (by decide) p hm
      simp only [targetBytes, hw, hempty, List.isEmpty_iff, he, if_false, Target.withoutFragment_eq hj,
        (Target.parts_path_query hmark _).1, (Target.parts_path_query hmark _).2] at hpath hquery
      refine ⟨t, rfl, fun _ => hquery, ?_⟩
      simp only [ofRequest?, Target.shownPath, hpath, hquery, List.isEmpty_iff, hne, if_false, Option.map_some,
        Option.getD_some, Form.read_written hp]

end SigningRequest

/-! ## The steps of a signature -/

namespace Mandate

/-- The request that was taken apart, the one that was signed, the text that was signed and what was sent. -/
structure Signed (m : Mandate) (r : Request) (taken prepared : SigningRequest) (text : Bytes) (sent : Request) :
    Prop where
  taken_eq : SigningRequest.ofRequest? r = some taken
  prepared_eq : m.prepare taken = .ok prepared
  text_eq : Canonical.request? prepared = some text
  sent_eq : (m.attach prepared (m.scope.signature m.credential.secretAccessKey (m.scope.stringToSign text)) >>=
    SigningRequest.toRequest) = .ok sent

/-- What is signed without a fault went through all the steps. -/
theorem sign_ok {m : Mandate} {r : Request} (h : (m.sign r).fault = none) :
    ∃ taken prepared text sent, m.Signed r taken prepared text sent ∧ (m.sign r).request = sent ∧
      (m.sign r).canonicalRequest = some text ∧ (m.sign r).stringToSign = some (m.scope.stringToSign text) := by
  unfold sign at h ⊢
  cases htaken : SigningRequest.ofRequest? r with
  | none => simp [htaken] at h
  | some taken =>
    cases hprepared : m.prepare taken with
    | error f => simp [htaken, hprepared] at h
    | ok prepared =>
      cases htext : Canonical.request? prepared with
      | none => simp [htaken, hprepared, htext] at h
      | some text =>
        simp only [htaken, hprepared, htext] at h ⊢
        split at h
        · cases h
        · rename_i sent hsent
          exact ⟨taken, prepared, text, sent, ⟨htaken, hprepared, htext, hsent⟩,
            by simp [hsent, Except.toOption], rfl, rfl⟩

variable {m : Mandate} {r sent : Request} {taken prepared : SigningRequest} {text : Bytes}

theorem attach_header_ok {sig : Bytes} {q : SigningRequest} (hm : m.placement = .header)
    (h : m.attach prepared sig = .ok q) :
    ∃ v : FieldValue, v.bytes = m.authorizationText (Canonical.signedNames prepared.header) sig ∧
      q = { prepared with header := prepared.header.set .authorization v } := by
  unfold attach at h
  simp only [hm, bind, Except.bind, pure, Except.pure] at h
  cases hv : fieldValue (m.authorizationText (Canonical.signedNames prepared.header) sig) with
  | error f => simp [hv] at h
  | ok v =>
    simp only [hv] at h
    exact ⟨v, bytes_of_ofBytes? (fieldValue_eq_ok.1 hv), (Except.ok.inj h).symm⟩

theorem attach_of_value {sig : Bytes} (hm : m.placement = .header) {v : FieldValue}
    (hv : v.bytes = m.authorizationText (Canonical.signedNames prepared.header) sig) :
    m.attach prepared sig = .ok { prepared with header := prepared.header.set .authorization v } := by
  have hfield : fieldValue (m.authorizationText (Canonical.signedNames prepared.header) sig) = .ok v := by
    rw [← hv]
    exact fieldValue_eq_ok.2 (ofBytes?_bytes v)
  simp only [attach, hm, hfield, bind, Except.bind, pure, Except.pure]

theorem attach_query {expiry : Nat} (hm : m.placement = .query expiry) (sig : Bytes) :
    m.attach prepared sig = .ok (prepared.pushPair (utf8 "X-Amz-Signature") sig) := by
  unfold attach
  rw [hm]

/-- The signature was attached, and the request put together again. -/
theorem Signed.attached (h : m.Signed r taken prepared text sent) :
    ∃ q, m.attach prepared (m.scope.signature m.credential.secretAccessKey (m.scope.stringToSign text)) = .ok q ∧
      q.toRequest = .ok sent := by
  have hs := h.sent_eq
  cases ha : m.attach prepared (m.scope.signature m.credential.secretAccessKey (m.scope.stringToSign text)) with
  | error f => rw [ha] at hs; cases hs
  | ok q => rw [ha] at hs; exact ⟨q, rfl, hs⟩

/-! ## The pairs that come back -/

theorem wellFormed_join {sep : UInt8} (hsep : sep < 0x80) {ps : List Bytes} (h : ∀ p ∈ ps, Utf8.WellFormed p) :
    Utf8.WellFormed (Bytes.join [sep] ps) := by
  induction ps with
  | nil => exact Utf8.wellFormed_ascii (by simp)
  | cons p ps ih =>
    rw [List.forall_mem_cons] at h
    by_cases hps : ps = []
    · subst hps
      exact h.1
    · rw [Bytes.join_cons [sep] p hps]
      exact (h.1.append (Utf8.wellFormed_ascii (by simpa using hsep))).append (ih h.2)

theorem wellFormed_nameList (names : List FieldName) : Utf8.WellFormed (Canonical.nameList names) := by
  refine wellFormed_join (by decide) fun bs hbs => Utf8.wellFormed_ascii fun b hb => ?_
  obtain ⟨n, -, rfl⟩ := List.mem_map.1 hbs
  exact (FieldName.value_of_mem hb).1

theorem wellFormed_credentialText (m : Mandate) : Utf8.WellFormed m.credentialText := by
  have hparts : ∀ p ∈ [m.scope.date, utf8 m.scope.region, utf8 m.scope.service, scopeEnd], Utf8.WellFormed p := by
    simp only [List.forall_mem_cons]
    exact ⟨Utf8.wellFormed_utf8 m.scope.time.formatDate, Utf8.wellFormed_utf8 m.scope.region,
      Utf8.wellFormed_utf8 m.scope.service, Utf8.wellFormed_utf8 "aws4_request", by simp⟩
  have hslash : Utf8.WellFormed [0x2F] := Utf8.wellFormed_ascii (by simp)
  have hscope : Utf8.WellFormed m.scope.bytes := by
    unfold Scope.bytes
    exact wellFormed_join (by decide) hparts
  rw [credentialText, ← List.singleton_append]
  exact (Utf8.wellFormed_utf8 m.credential.accessKeyId).append (hslash.append hscope)

/-- The keys of the pairs that a signature brings along. -/
def parameterNames : List String :=
  ["X-Amz-Algorithm", "X-Amz-Credential", "X-Amz-Date", "X-Amz-Expires", "X-Amz-SignedHeaders", "X-Amz-Security-Token"]

theorem parameter_of_mem_added {m : Mandate} {h : Header} {key value : Bytes} (hp : (key, value) ∈ m.added h) :
    ∃ k ∈ parameterNames, key = utf8 k ∧ Utf8.WellFormed value := by
  have halgorithm : Utf8.WellFormed algorithm := Utf8.wellFormed_utf8 "AWS4-HMAC-SHA256"
  have hstamp : Utf8.WellFormed m.scope.stamp := Utf8.wellFormed_utf8 m.scope.time.formatIso8601
  unfold added at hp
  split at hp
  · cases hp
  · rename_i expiry _
    simp only [parameters, List.mem_append, List.mem_cons, List.not_mem_nil, or_false, List.mem_map,
      Prod.mk.injEq] at hp
    rcases hp with (⟨hk, hv⟩ | ⟨hk, hv⟩ | ⟨hk, hv⟩ | ⟨hk, hv⟩ | ⟨hk, hv⟩) | ⟨token, -, hk, hv⟩
    · exact ⟨"X-Amz-Algorithm", by simp [parameterNames], hk, hv ▸ halgorithm⟩
    · exact ⟨"X-Amz-Credential", by simp [parameterNames], hk, hv ▸ wellFormed_credentialText m⟩
    · exact ⟨"X-Amz-Date", by simp [parameterNames], hk, hv ▸ hstamp⟩
    · exact ⟨"X-Amz-Expires", by simp [parameterNames], hk, hv ▸ Utf8.wellFormed_utf8 (toString expiry)⟩
    · exact ⟨"X-Amz-SignedHeaders", by simp [parameterNames], hk, hv ▸ wellFormed_nameList _⟩
    · exact ⟨"X-Amz-Security-Token", by simp [parameterNames], hk.symm, hv ▸ Utf8.wellFormed_utf8 token⟩

/-- The pairs that a signature brings along are texts with a key. -/
theorem wellFormed_added (m : Mandate) (h : Header) : ∀ p ∈ m.added h, Form.WellFormed p ∧ p.1 ≠ [] := by
  have hne : ∀ k ∈ parameterNames, utf8 k ≠ [] := by decide
  rintro ⟨key, value⟩ hp
  obtain ⟨k, hk, rfl, hvalue⟩ := parameter_of_mem_added hp
  exact ⟨⟨Utf8.wellFormed_utf8 k, hvalue⟩, hne k hk⟩

theorem Signed.wellFormed (h : m.Signed r taken prepared text sent) :
    ∀ p ∈ m.signedPairs taken prepared, Form.WellFormed p := by
  intro p hp
  rcases List.mem_append.1 hp with hp | hp
  · exact (SigningRequest.wellTaken h.taken_eq).query p hp
  · exact (wellFormed_added m prepared.header p hp).1

/-- The signed pairs that are not lost on the wire. -/
def keptPairs (m : Mandate) (taken prepared : SigningRequest) : List Form.Pair :=
  (Canonical.sortPairs (m.signedPairs taken prepared)).filter (· ≠ ([], []))

/-- All signed pairs arrive exactly when the request had none that is empty on both sides. -/
theorem keptPairs_perm_iff (m : Mandate) (taken prepared : SigningRequest) :
    (m.keptPairs taken prepared).Perm (m.signedPairs taken prepared) ↔ ([], []) ∉ taken.query := by
  have hs := Canonical.sortPairs_perm (m.signedPairs taken prepared)
  -- a lost pair can only be one of the request's own
  have hadded : (([], []) : Form.Pair) ∉ m.added prepared.header :=
    fun hm => (wellFormed_added m prepared.header _ hm).2 rfl
  constructor
  · intro h hm
    have hp : (([], []) : Form.Pair) ∈ m.keptPairs taken prepared :=
      h.symm.subset (List.mem_append_left _ hm)
    simp [keptPairs] at hp
  · intro h
    rw [keptPairs, List.filter_eq_self.2]
    · exact hs
    · intro p hp
      refine decide_eq_true fun e => ?_
      rcases List.mem_append.1 (e ▸ hs.subset hp) with hp | hp
      · exact h hp
      · exact hadded hp

/-- Of the pairs with a key none is lost. -/
theorem filter_keptPairs {q : Form.Pair → Bool} (hq : q ([], []) = false) (m : Mandate)
    (taken prepared : SigningRequest) :
    ((m.keptPairs taken prepared).filter q).Perm ((m.signedPairs taken prepared).filter q) := by
  have hkept : (m.keptPairs taken prepared).filter q =
      (Canonical.sortPairs (m.signedPairs taken prepared)).filter q := by
    rw [keptPairs, List.filter_filter]
    refine List.filter_congr fun p _ => ?_
    by_cases hp : p = ([], [])
    · rw [hp, hq, Bool.false_and]
    · rw [decide_eq_true hp, Bool.and_true]
  rw [hkept]
  exact (Canonical.sortPairs_perm _).filter _

/-! ## What is sent -/

/-- The parts of a prepared request that stand in a URI. -/
theorem Signed.path (h : m.Signed r taken prepared text sent) :
    prepared.path ≠ [] ∧ (0x23 : UInt8) ∉ prepared.path ∧ (0x3F : UInt8) ∉ prepared.path := by
  obtain ⟨-, -, -, hpath⟩ := prepare_rest h.prepared_eq
  have hw := SigningRequest.wellTaken h.taken_eq
  rw [hpath]
  exact ⟨hw.path, hw.noFragment, hw.noQuery⟩

theorem Signed.query (h : m.Signed r taken prepared text sent) :
    prepared.query = (Canonical.sortPairs (m.signedPairs taken prepared)).map Canonical.encodePair ∧
      ∀ p ∈ Canonical.sortPairs (m.signedPairs taken prepared), Form.WellFormed p :=
  ⟨by rw [prepare_query h.prepared_eq, Canonical.encodeQuery_eq],
    fun p hp => h.wellFormed p ((Canonical.sortPairs_perm _).subset hp)⟩

/-- A signature in the header: it is the only change to what was signed but for lost pairs. -/
theorem Signed.sent_header (h : m.Signed r taken prepared text sent) (hm : m.placement = .header) :
    ∃ v : FieldValue, v.bytes = m.authorizationText (Canonical.signedNames prepared.header)
        (m.scope.signature m.credential.secretAccessKey (m.scope.stringToSign text)) ∧
      SigningRequest.ofRequest? sent =
        some { prepared with query := m.keptPairs taken prepared, header := prepared.header.set .authorization v } := by
  obtain ⟨hne, hfragment, hmark⟩ := h.path
  obtain ⟨q, ha, hs⟩ := h.attached
  obtain ⟨v, hv, rfl⟩ := attach_header_ok hm ha
  obtain ⟨t, -, -, hback⟩ := SigningRequest.ofRequest?_toRequest hs h.query.1 h.query.2 hne hfragment hmark
  exact ⟨v, hv, hback⟩

/-! ## Signatures in the URI -/

theorem length_signature (s : Scope) (secret : String) (text : Bytes) : (s.signature secret text).length = 64 := by
  rw [Scope.signature, Hmac.hex, Hex.length_encode, Hmac.tag, Sha256.length_digest]

theorem all_signature (s : Scope) (secret : String) (text : Bytes) :
    (s.signature secret text).all Hex.isLowerHex = true := Hex.all_encode _

/-- Hexadecimal text may stand anywhere. -/
theorem plain_of_isLowerHex {sig : Bytes} (h : sig.all Hex.isLowerHex = true) :
    ∀ b ∈ sig, Percent.isUnreserved b = true ∧ b < 0x80 ∧ isValueByte b = true ∧ FieldValue.isPadding b = false := by
  have all : ∀ n : Fin 256, Hex.isLowerHex (UInt8.ofFin n) = true →
      Percent.isUnreserved (UInt8.ofFin n) = true ∧ UInt8.ofFin n < 0x80 ∧ isValueByte (UInt8.ofFin n) = true ∧
        FieldValue.isPadding (UInt8.ofFin n) = false := by decide +kernel
  intro b hb
  exact all b.toFin (List.all_eq_true.1 h b hb)

/-- The last pair of a URI that was signed. -/
def signaturePair (sig : Bytes) : Form.Pair := (utf8 "X-Amz-Signature", sig)

theorem encodePair_signaturePair {sig : Bytes} (h : sig.all Hex.isLowerHex = true) :
    Canonical.encodePair (signaturePair sig) = signaturePair sig := by
  have hk : Percent.encode Percent.isUnreserved (utf8 "X-Amz-Signature") = utf8 "X-Amz-Signature" := by decide
  have hv : Percent.encode Percent.isUnreserved sig = sig :=
    Percent.encode_eq_self fun b hb => (plain_of_isLowerHex h b hb).1
  simp [Canonical.encodePair, signaturePair, hk, hv]

theorem wellFormed_signaturePair {sig : Bytes} (h : sig.all Hex.isLowerHex = true) :
    Form.WellFormed (signaturePair sig) ∧ signaturePair sig ≠ ([], []) := by
  have hk : utf8 "X-Amz-Signature" ≠ [] := by decide
  have hsig : Utf8.WellFormed sig := Utf8.wellFormed_ascii fun b hb => (plain_of_isLowerHex h b hb).2.1
  refine ⟨⟨Utf8.wellFormed_utf8 "X-Amz-Signature", hsig⟩, ?_⟩
  intro e
  exact hk (congrArg Prod.fst e)

theorem written_signaturePair {sig : Bytes} (h : sig.all Hex.isLowerHex = true) (hne : sig ≠ []) :
    utf8 "&" ++ Form.written (signaturePair sig) = utf8 "&X-Amz-Signature=" ++ sig := by
  have hk : utf8 "&X-Amz-Signature=" = utf8 "&" ++ (utf8 "X-Amz-Signature" ++ [0x3D]) := by decide
  rw [Form.written, encodePair_signaturePair h, SigningRequest.writePair, hk]
  simp [signaturePair, hne]

/-- A signature in the URI: its pair stands behind those that were signed and were not lost. -/
theorem Signed.sent_query (h : m.Signed r taken prepared text sent) {expiry : Nat} (hm : m.placement = .query expiry) :
    ∃ t front, sent = ⟨prepared.method, .full prepared.scheme prepared.authority t, prepared.header⟩ ∧
      t.query = some (front ++ utf8 "&X-Amz-Signature=" ++
        m.scope.signature m.credential.secretAccessKey (m.scope.stringToSign text)) ∧
      Form.read front = m.keptPairs taken prepared ∧
      SigningRequest.ofRequest? sent = some { prepared with query := m.keptPairs taken prepared ++
        [signaturePair (m.scope.signature m.credential.secretAccessKey (m.scope.stringToSign text))] } := by
  have hs := h.sent_eq
  obtain ⟨hne, hfragment, hmark⟩ := h.path
  rw [attach_query hm] at hs
  have hhex := all_signature m.scope m.credential.secretAccessKey (m.scope.stringToSign text)
  have hlen := length_signature m.scope m.credential.secretAccessKey (m.scope.stringToSign text)
  generalize m.scope.signature m.credential.secretAccessKey (m.scope.stringToSign text) = sig at hs hhex hlen ⊢
  obtain ⟨hwell, hkept⟩ := wellFormed_signaturePair hhex
  -- the signature is written as it is, so it may count as one more pair
  have hq : (prepared.pushPair (utf8 "X-Amz-Signature") sig).query =
      (Canonical.sortPairs (m.signedPairs taken prepared) ++ [signaturePair sig]).map Canonical.encodePair := by
    rw [SigningRequest.pushPair, List.map_append, List.map_singleton, encodePair_signaturePair hhex, h.query.1]
    rfl
  have hwf : ∀ p ∈ Canonical.sortPairs (m.signedPairs taken prepared) ++ [signaturePair sig], Form.WellFormed p := by
    intro p hp
    rcases List.mem_append.1 hp with hp | hp
    · exact h.query.2 p hp
    · rw [List.mem_singleton.1 hp]
      exact hwell
  have hadded : m.signedPairs taken prepared ≠ [] := by
    simp [signedPairs, added, hm, parameters]
  have hpairs : (Canonical.sortPairs (m.signedPairs taken prepared)).map Form.written ≠ [] := by
    intro e
    exact hadded (List.map_eq_nil_iff.1 e ▸ Canonical.sortPairs_perm _).symm.eq_nil
  obtain ⟨t, hsent, hquery, hback⟩ := SigningRequest.ofRequest?_toRequest hs hq hwf hne hfragment hmark
  refine ⟨t, Bytes.join [0x26] ((Canonical.sortPairs (m.signedPairs taken prepared)).map Form.written), hsent, ?_,
    Form.read_written h.query.2, ?_⟩
  · rw [hquery (by simp), List.map_append, Bytes.join_append _ hpairs (by simp), List.map_singleton,
      Bytes.join_singleton, List.append_assoc, List.append_assoc,
      ← written_signaturePair hhex (by rintro rfl; cases hlen)]
    rfl
  · rw [hback, List.filter_append, List.filter_cons_of_pos (by simpa using hkept), List.filter_nil]
    rfl

end Mandate

end SigV4
