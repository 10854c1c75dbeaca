import SigV4.Proofs.Canonical
import SigV4.Signing.Sign
/-!
# Prepared requests

What `Mandate.prepare` makes of a request: `bytesOf` gives the values that are signed under each
name, and the pairs of the query are the request's own and those that the mandate adds. Whether it
succeeds is up to the mandate alone.
-/

namespace SigV4

open Http

/-! ## Authorities are field values -/

/-- A byte that may stand in an authority. -/
def Http.Authority.isAuthorityByte (b : UInt8) : Bool := Bytes.isAlphanumeric b || authorityMarks.contains b

/-- What a step of the scan takes, and what it makes of the colons. -/
theorem Http.Authority.Scan.step_cases {s s' : Scan} {b : UInt8} (h : s.step b = some s') :
    isAuthorityByte b = true ∧ (b = 0x3A ∧ s'.colons = s.colons + 1 ∨ b = 0x5D ∧ s'.colons = 0 ∨
      b = 0x40 ∧ s'.colons = 0 ∨ b ≠ 0x3A ∧ b ≠ 0x5D ∧ b ≠ 0x40 ∧ s'.colons = s.colons) := by
  simp only [Scan.step, beq_iff_eq] at h
  split at h
  · rename_i hcolon
    split at h
    · cases h
    · exact ⟨by rw [hcolon]; decide, .inl ⟨hcolon, by rw [← Option.some.inj h]⟩⟩
  rename_i hcolon
  split at h
  · rename_i hopen
    split at h
    · cases h
    · exact ⟨by rw [hopen]; decide, .inr (.inr (.inr ⟨hcolon, by simp [hopen], by simp [hopen],
        by rw [← Option.some.inj h]⟩))⟩
  split at h
  · rename_i hclose
    split at h
    · cases h
    · exact ⟨by rw [hclose]; decide, .inr (.inl ⟨hclose, by rw [← Option.some.inj h]⟩)⟩
  rename_i hclose
  split at h
  · rename_i hat
    exact ⟨by rw [hat]; decide, .inr (.inr (.inl ⟨hat, by rw [← Option.some.inj h]⟩))⟩
  rename_i hat
  split at h
  · rename_i hpercent
    exact ⟨by rw [hpercent]; decide, .inr (.inr (.inr ⟨hcolon, hclose, hat, by rw [← Option.some.inj h]⟩))⟩
  split at h
  · rename_i hmark
    exact ⟨hmark, .inr (.inr (.inr ⟨hcolon, hclose, hat, by rw [← Option.some.inj h]⟩))⟩
  · cases h

theorem Http.Authority.isAuthorityByte_of_mem {a : Authority} {b : UInt8} (hb : b ∈ a.bytes) :
    isAuthorityByte b = true := by
  have main : ∀ (bs : Bytes) (s t : Authority.Scan), bs.foldlM Authority.Scan.step s = some t →
      ∀ b ∈ bs, isAuthorityByte b = true := by
    intro bs
    induction bs with
    | nil => intro _ _ _ _ hb; cases hb
    | cons c bs ih =>
      intro s t h
      rw [List.foldlM_cons, Option.bind_eq_bind, Option.bind_eq_some_iff] at h
      obtain ⟨s', hs, h⟩ := h
      exact List.forall_mem_cons.2 ⟨(Scan.step_cases hs).1, ih s' t h⟩
  have hv := a.valid
  unfold Authority.isValid at hv
  cases hf : a.bytes.foldlM Authority.Scan.step {} with
  | none => simp [hf] at hv
  | some t => exact main _ _ _ hf b hb

theorem Http.Authority.value_of_mem {a : Authority} {b : UInt8} (hb : b ∈ a.bytes) :
    isValueByte b = true ∧ isTextByte b = true ∧ FieldValue.isPadding b = false := by
  have hmarks : authorityMarks.all (fun b =>
      isValueByte b = true ∧ isTextByte b = true ∧ FieldValue.isPadding b = false) = true := by decide
  have h := isAuthorityByte_of_mem hb
  rw [isAuthorityByte, Bool.or_eq_true, List.contains_iff_mem] at h
  rcases h with h | h
  · grind [Bytes.isAlphanumeric, Bytes.isDigit, Bytes.isUpper, Bytes.isLower, isValueByte, isTextByte,
      FieldValue.isPadding]
  · simpa using List.all_eq_true.1 hmarks b h

theorem Http.Authority.all_isValueByte (a : Authority) : a.bytes.all isValueByte = true :=
  List.all_eq_true.2 fun _ hb => (value_of_mem hb).1

/-- The authority as a value of the host field. -/
def Http.Authority.value (a : Authority) : FieldValue := ⟨a.bytes, a.all_isValueByte⟩

def Http.Authority.exampleCom : Authority := ⟨utf8 "example.com", by decide +kernel⟩

namespace Mandate

/-! ## The header -/

theorem fieldValue_eq_ok {bs : Bytes} {v : FieldValue} : fieldValue bs = .ok v ↔ FieldValue.ofBytes? bs = some v := by
  unfold fieldValue
  cases FieldValue.ofBytes? bs <;> simp

theorem bytes_of_ofBytes? {bs : Bytes} {v : FieldValue} (h : FieldValue.ofBytes? bs = some v) : v.bytes = bs := by
  unfold FieldValue.ofBytes? at h
  split at h
  · rw [← Option.some.inj h]
  · cases h

theorem ofBytes?_bytes (v : FieldValue) : FieldValue.ofBytes? v.bytes = some v := by
  simp [FieldValue.ofBytes?, v.valid]

/-- Trimmed values without an earlier signature, and a host. -/
def withHost (a : Authority) (h : Header) : Header :=
  let h := (h.erase .authorization).mapValues FieldValue.trim
  if h.contains .host then h else h.append .host a.value

theorem commonHeader_eq (a : Authority) (h : Header) : commonHeader a h = .ok (withHost a h) := by
  have hv : fieldValue a.bytes = .ok a.value := fieldValue_eq_ok.2 (ofBytes?_bytes a.value)
  unfold commonHeader withHost
  rw [hv]
  simp only
  split <;> rfl

theorem stampHeader_eq_ok {m : Mandate} {h h' : Header} :
    m.stampHeader h = .ok h' ↔ ∃ d, FieldValue.ofBytes? m.scope.stamp = some d ∧
      ((m.credential.sessionToken = none ∧ h' = (h.set .amzDate d).erase .amzSecurityToken) ∨
        ∃ token v, m.credential.sessionToken = some token ∧ FieldValue.ofBytes? (utf8 token) = some v ∧
          h' = ((h.set .amzDate d).erase .amzSecurityToken).append .amzSecurityToken v) := by
  simp only [← fieldValue_eq_ok]
  unfold stampHeader
  simp only [bind, Except.bind, pure, Except.pure]
  cases fieldValue m.scope.stamp with
  | error f => simp
  | ok d =>
    cases m.credential.sessionToken with
    | none => simp [eq_comm]
    | some token =>
      cases hv : fieldValue (utf8 token) with
      | error f => simp [hv]
      | ok v => simp [hv, eq_comm]

/-- The header that is signed, for a request to a server. -/
def signedHeader (m : Mandate) (a : Authority) (h : Header) : Except Signing.Fault Header :=
  match m.placement with
  | .header => m.stampHeader (withHost a h)
  | .query _ => .ok (withHost a h)

/-- The pairs that a signature in the query brings along. -/
def added (m : Mandate) (h : Header) : List Form.Pair :=
  match m.placement with
  | .header => []
  | .query expiry => m.parameters expiry (Canonical.signedNames h)

theorem prepare_eq (m : Mandate) (r : SigningRequest) :
    m.prepare r = (m.signedHeader r.authority r.header).map fun h =>
      { r with query := Canonical.encodeQuery (r.query ++ m.added h), header := h } := by
  unfold prepare signedHeader added
  rw [commonHeader_eq]
  simp only [bind, Except.bind, pure, Except.pure]
  cases m.placement with
  | header =>
    simp only [List.append_nil]
    cases m.stampHeader (withHost r.authority r.header) <;> rfl
  | query expiry => simp only [Except.map]

theorem prepare_eq_ok {m : Mandate} {r p : SigningRequest} :
    m.prepare r = .ok p ↔ ∃ h, m.signedHeader r.authority r.header = .ok h ∧
      p = { r with query := Canonical.encodeQuery (r.query ++ m.added h), header := h } := by
  rw [prepare_eq]
  cases m.signedHeader r.authority r.header <;> simp [Except.map, eq_comm]

theorem added_congr (m : Mandate) {h h' : Header} (hn : Canonical.signedNames h = Canonical.signedNames h') :
    m.added h = m.added h' := by
  unfold added
  rw [hn]

/-- All pairs that are signed: those of the request and those that come with the signature. -/
def signedPairs (m : Mandate) (r p : SigningRequest) : List Form.Pair := r.query ++ m.added p.header

theorem signedPairs_header {m : Mandate} (hm : m.placement = .header) (r p : SigningRequest) :
    m.signedPairs r p = r.query := by
  rw [signedPairs, added, hm]
  exact List.append_nil _

theorem prepare_query {m : Mandate} {r p : SigningRequest} (hp : m.prepare r = .ok p) :
    p.query = Canonical.encodeQuery (m.signedPairs r p) := by
  obtain ⟨h, -, rfl⟩ := prepare_eq_ok.1 hp
  rfl

theorem prepare_rest {m : Mandate} {r p : SigningRequest} (hp : m.prepare r = .ok p) :
    p.method = r.method ∧ p.scheme = r.scheme ∧ p.authority = r.authority ∧ p.path = r.path := by
  obtain ⟨h, -, rfl⟩ := prepare_eq_ok.1 hp
  exact ⟨rfl, rfl, rfl, rfl⟩

theorem prepare_header {m : Mandate} {r p : SigningRequest} (hp : m.prepare r = .ok p) :
    m.signedHeader r.authority r.header = .ok p.header := by
  obtain ⟨h, hs, rfl⟩ := prepare_eq_ok.1 hp
  exact hs

/-- A mandate that can sign for one header can sign for every header. -/
theorem signedHeader_ok {m : Mandate} {a : Authority} {h k : Header} (hs : m.signedHeader a h = .ok k) (h' : Header) :
    ∃ k', m.signedHeader a h' = .ok k' := by
  unfold signedHeader at hs ⊢
  cases hp : m.placement with
  | query expiry => exact ⟨_, rfl⟩
  | header =>
    rw [hp] at hs
    obtain ⟨d, hd, ⟨ht, -⟩ | ⟨token, v, ht, hv, -⟩⟩ := stampHeader_eq_ok.1 hs
    · exact ⟨_, stampHeader_eq_ok.2 ⟨d, hd, .inl ⟨ht, rfl⟩⟩⟩
    · exact ⟨_, stampHeader_eq_ok.2 ⟨d, hd, .inr ⟨token, v, ht, hv, rfl⟩⟩⟩

/-! ## The values under each name -/

/-- The values that are signed under a name. -/
def bytesOf (m : Mandate) (a : Authority) (h : Header) (n : FieldName) : List Bytes :=
  if n = .authorization then []
  else if m.placement = .header ∧ n = .amzDate then [m.scope.stamp]
  else if m.placement = .header ∧ n = .amzSecurityToken then m.credential.sessionToken.toList.map utf8
  else if n = .host ∧ h.values .host = [] then [a.bytes]
  else (h.values n).map (·.trim.bytes)

theorem values_withHost (a : Authority) (h : Header) (n : FieldName) :
    ((withHost a h).values n).map (·.bytes) =
      if n = .authorization then []
      else if n = .host ∧ h.values .host = [] then [a.bytes]
      else (h.values n).map (·.trim.bytes) := by
  have hah : ¬ FieldName.host = FieldName.authorization := by decide
  have hhost : ((h.erase .authorization).mapValues FieldValue.trim).contains .host = true ↔ h.values .host ≠ [] := by
    rw [Header.contains_iff]; simp [Ne.symm hah]
  by_cases hn : n = .authorization
  · subst hn
    rw [withHost]
    by_cases hh : h.values .host = []
    · rw [if_neg (by rw [hhost]; simp [hh])]; simp [hah]
    · rw [if_pos (hhost.2 hh)]; simp
  · by_cases hh : h.values .host = []
    · rw [withHost, if_neg (by rw [hhost]; simp [hh])]
      by_cases hnh : n = .host
      · subst hnh; simp [hh, hn, Authority.value]
      · simp [hn, hnh, Ne.symm hn, Ne.symm hnh]
    · rw [withHost, if_pos (hhost.2 hh)]
      simp [hn, Ne.symm hn, hh]

theorem values_stampHeader {m : Mandate} {h h' : Header} (hs : m.stampHeader h = .ok h') (n : FieldName) :
    (h'.values n).map (·.bytes) =
      if n = .amzDate then [m.scope.stamp]
      else if n = .amzSecurityToken then m.credential.sessionToken.toList.map utf8
      else (h.values n).map (·.bytes) := by
  have htd : ¬ FieldName.amzSecurityToken = FieldName.amzDate := by decide
  obtain ⟨d, hd, hs⟩ := stampHeader_eq_ok.1 hs
  have hdb := bytes_of_ofBytes? hd
  by_cases hn : n = .amzDate
  · obtain ⟨-, rfl⟩ | ⟨token, v, -, -, rfl⟩ := hs <;> simp [hn, hdb, htd]
  · by_cases hn' : n = .amzSecurityToken
    · subst hn'
      obtain ⟨ht, rfl⟩ | ⟨token, v, ht, hv, rfl⟩ := hs
      · simp [ht, htd]
      · simp [ht, htd, bytes_of_ofBytes? hv]
    · obtain ⟨-, rfl⟩ | ⟨token, v, -, -, rfl⟩ := hs <;> simp [hn, hn', Ne.symm hn, Ne.symm hn']

theorem bytes_signedHeader {m : Mandate} {a : Authority} {h h' : Header} (hs : m.signedHeader a h = .ok h')
    (n : FieldName) : (h'.values n).map (·.bytes) = m.bytesOf a h n := by
  unfold signedHeader at hs
  unfold bytesOf
  cases hp : m.placement with
  | query expiry =>
    rw [hp] at hs
    obtain rfl := Except.ok.inj hs
    simp [values_withHost]
  | header =>
    rw [hp] at hs
    rw [values_stampHeader hs n, values_withHost]
    have hda : ¬ FieldName.authorization = FieldName.amzDate := by decide
    have hta : ¬ FieldName.authorization = FieldName.amzSecurityToken := by decide
    by_cases hn : n = .authorization
    · simp [hn, hda, hta]
    · simp [hn]

end Mandate

end SigV4
