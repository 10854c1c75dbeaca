import SigV4.Proofs.Canonicity
import SigV4.Proofs.History
/-!
# What the texts of a signature disclose

The scope and the canonical request of an attempt are logged. Neither depends on the secret key. The
session token is a field or a pair that is signed, so the canonical request shows it, and the texts of
two credentials that differ in nothing else are told apart by their tokens.
-/

namespace SigV4

open Http Canonical

/-- What a canonical request tells of a session token: in a field its words, in the query all of it. -/
def Placement.told : Placement → String → Bytes
  | .header, token => collapse (utf8 token)
  | .query _, token => utf8 token

namespace Mandate

/-- The text shows the token, as a line of its own or as a pair. -/
def Discloses (m : Mandate) (text : Bytes) (token : String) : Prop :=
  match m.placement with
  | .header => utf8 "x-amz-security-token:" ++ m.placement.told token ∈ fieldsIn text
  | .query _ => shown (utf8 "X-Amz-Security-Token", m.placement.told token) ∈ pairsIn text

/-- Mandates that differ in the secret key, the token and the expiry of the credential at most. -/
structure Resembles (m m' : Mandate) : Prop where
  accessKeyId : m.credential.accessKeyId = m'.credential.accessKeyId
  scope : m.scope = m'.scope
  placement : m.placement = m'.placement

variable {m m' : Mandate} {r : Request} {taken prepared prepared' : SigningRequest} {text text' : Bytes}

/-! ## The scope and the secret key -/

theorem Resembles.scope_eq (h : m.Resembles m') (r : Request) : (m.sign r).scope = (m'.sign r).scope := by
  have main : ∀ k : Mandate, (k.sign r).scope = (SigningRequest.ofRequest? r).map fun _ => k.scope.bytes := by
    intro k
    unfold sign
    cases SigningRequest.ofRequest? r with
    | none => rfl
    | some taken =>
      cases hp : k.prepare taken with
      | error f => simp [hp]
      | ok prepared => cases ht : request? prepared <;> simp [hp, ht]
  rw [main, main, h.scope]

theorem Resembles.prepare_eq (h : m.Resembles m')
    (htoken : m.credential.sessionToken = m'.credential.sessionToken) : m.prepare = m'.prepare := by
  obtain ⟨⟨key, secret, token, expiry⟩, scope, placement⟩ := m
  obtain ⟨⟨key', secret', token', expiry'⟩, scope', placement'⟩ := m'
  obtain ⟨rfl, rfl, rfl⟩ := h
  obtain rfl := htoken
  rfl

/-- The secret key is in no canonical request. -/
theorem Resembles.text_eq (h : m.Resembles m') (htoken : m.credential.sessionToken = m'.credential.sessionToken)
    (r : Request) : (m.sign r).canonicalRequest = (m'.sign r).canonicalRequest := by
  apply Option.ext
  intro text
  rw [canonicalRequest_eq_some, canonicalRequest_eq_some, h.prepare_eq htoken]

/-! ## The session token -/

theorem token_prepared (hm : m.placement = .header) (hp : m.prepare taken = .ok prepared) :
    (prepared.header.values .amzSecurityToken).map (·.bytes) = m.credential.sessionToken.toList.map utf8 := by
  have h1 : FieldName.amzSecurityToken ≠ .authorization := by decide
  have h2 : FieldName.amzSecurityToken ≠ .amzDate := by decide
  rw [values_prepared hp, bytesOf, if_neg h1, if_neg fun e => h2 e.2, if_pos ⟨hm, rfl⟩]

theorem fieldText_token (hm : m.placement = .header) (hp : m.prepare taken = .ok prepared) {token : String}
    (htoken : m.credential.sessionToken = some token) :
    fieldText prepared.header .amzSecurityToken = collapse (utf8 token) := by
  have hvalues := token_prepared hm hp
  rw [htoken] at hvalues
  exact fieldText_of_values hvalues

theorem token_mem_signedNames (hm : m.placement = .header) (hp : m.prepare taken = .ok prepared) :
    .amzSecurityToken ∈ signedNames prepared.header ↔ m.credential.sessionToken.isSome = true := by
  have hvalues := token_prepared hm hp
  rw [mem_signedNames, and_iff_left (by decide), Ne, ← List.map_eq_nil_iff (f := FieldValue.bytes), hvalues]
  cases m.credential.sessionToken <;> simp

/-- A text shows the token of the credential. -/
theorem discloses (h : (m.sign r).canonicalRequest = some text) {token : String}
    (htoken : m.credential.sessionToken = some token) : m.Discloses text token := by
  obtain ⟨taken, prepared, -, hp, ht⟩ := canonicalRequest_eq_some.1 h
  unfold Discloses
  cases hm : m.placement with
  | header =>
    have hname : .amzSecurityToken ∈ signedNames prepared.header := by
      rw [token_mem_signedNames hm hp, htoken]
      rfl
    have hrow : fieldRow prepared.header .amzSecurityToken =
        utf8 "x-amz-security-token:" ++ collapse (utf8 token) := by
      have hprefix : utf8 "x-amz-security-token:" = FieldName.amzSecurityToken.bytes ++ [0x3A] := by decide
      rw [fieldRow, fieldText_token hm hp htoken, hprefix, List.append_assoc]
      rfl
    rw [fieldsIn_eq (prepare_query hp) ht]
    exact List.mem_map.2 ⟨_, hname, hrow⟩
  | query expiry =>
    have hpair : (utf8 "X-Amz-Security-Token", utf8 token) ∈ m.signedPairs taken prepared := by
      simp [signedPairs, added, hm, parameters, htoken]
    rw [pairsIn_eq (prepare_query hp) ht]
    exact List.mem_map_of_mem ((sortPairs_perm _).mem_iff.2 hpair)

theorem Resembles.wordsOf_eq (h : m.Resembles m') (hp : m.prepare taken = .ok prepared)
    (hp' : m'.prepare taken = .ok prepared') {n : FieldName} (hn : m.placement = .header → n ≠ .amzSecurityToken) :
    wordsOf prepared.header n = wordsOf prepared'.header n := by
  have hnot : ∀ k : Mandate, m.placement = k.placement → ¬ (k.placement = .header ∧ n = .amzSecurityToken) :=
    fun k hk e => hn (hk.trans e.1) e.2
  rw [wordsOf_signedHeader (prepare_header hp), wordsOf_signedHeader (prepare_header hp'), if_neg (hnot m rfl),
    if_neg (hnot m' h.placement), h.placement, h.scope]

/-- The field of the token tells its words. -/
theorem Resembles.words_of_fields (h : m.Resembles m') (hm : m.placement = .header)
    (hp : m.prepare taken = .ok prepared) (hp' : m'.prepare taken = .ok prepared')
    (hnames : ∀ n, n ∈ signedNames prepared.header ↔ n ∈ signedNames prepared'.header)
    (htexts : ∀ n ∈ signedNames prepared.header, fieldText prepared.header n = fieldText prepared'.header n) :
    m.credential.sessionToken.map (collapse ∘ utf8) = m'.credential.sessionToken.map (collapse ∘ utf8) := by
  have hm' : m'.placement = .header := h.placement ▸ hm
  have hsome := hnames .amzSecurityToken
  rw [token_mem_signedNames hm hp, token_mem_signedNames hm' hp'] at hsome
  cases htoken : m.credential.sessionToken with
  | none =>
    rw [htoken] at hsome
    cases htoken' : m'.credential.sessionToken with
    | none => rfl
    | some token' => simp [htoken'] at hsome
  | some token =>
    rw [htoken] at hsome
    obtain ⟨token', htoken'⟩ := Option.isSome_iff_exists.1 (hsome.1 rfl)
    have hname : .amzSecurityToken ∈ signedNames prepared.header :=
      (token_mem_signedNames hm hp).2 (Option.isSome_of_eq_some htoken)
    have htext := htexts _ hname
    rw [fieldText_token hm hp htoken, fieldText_token hm' hp' htoken'] at htext
    rw [htoken', Option.map_some, Option.map_some, Function.comp_apply, Function.comp_apply, htext]

/-- Nothing but the words of the token is up to it. -/
theorem Resembles.fields_of_words (h : m.Resembles m') (hm : m.placement = .header)
    (hp : m.prepare taken = .ok prepared) (hp' : m'.prepare taken = .ok prepared')
    (htold : m.credential.sessionToken.map (collapse ∘ utf8) = m'.credential.sessionToken.map (collapse ∘ utf8)) :
    (∀ n, n ∈ signedNames prepared.header ↔ n ∈ signedNames prepared'.header) ∧
      ∀ n ∈ signedNames prepared.header, fieldText prepared.header n = fieldText prepared'.header n := by
  have hm' : m'.placement = .header := h.placement ▸ hm
  have hname := token_mem_signedNames hm hp
  have hrest : ∀ n, n ≠ .amzSecurityToken → wordsOf prepared.header n = wordsOf prepared'.header n :=
    fun n hn => h.wordsOf_eq hp hp' fun _ => hn
  constructor
  · intro n
    by_cases e : n = .amzSecurityToken
    · have hsome := congrArg Option.isSome htold
      rw [Option.isSome_map, Option.isSome_map] at hsome
      rw [e, hname, token_mem_signedNames hm' hp', hsome]
    · rw [mem_signedNames, mem_signedNames, Ne, Ne, ← wordsOf_eq_nil, ← wordsOf_eq_nil, hrest n e]
  · intro n hn
    by_cases e : n = .amzSecurityToken
    · subst e
      obtain ⟨token, htoken⟩ := Option.isSome_iff_exists.1 (hname.1 hn)
      rw [htoken, Option.map_some, eq_comm, Option.map_eq_some_iff] at htold
      obtain ⟨token', htoken', hsame⟩ := htold
      rw [fieldText_token hm hp htoken, fieldText_token hm' hp' htoken']
      exact hsame.symm
    · rw [fieldText_eq, fieldText_eq, hrest n e]

/-- In the query two tokens are told apart by the pair that they are put into. -/
theorem Resembles.added_perm_iff (h : m.Resembles m') {expiry : Nat} (hm : m.placement = .query expiry) (k : Header) :
    (m.added k).Perm (m'.added k) ↔ m.credential.sessionToken.map utf8 = m'.credential.sessionToken.map utf8 := by
  have hm' : m'.placement = .query expiry := h.placement ▸ hm
  have hcredential : m.credentialText = m'.credentialText := by
    rw [credentialText, credentialText, h.accessKeyId, h.scope]
  rw [added, added, hm, hm']
  simp only [parameters, hcredential, h.scope]
  rw [List.perm_append_left_iff]
  cases m.credential.sessionToken <;> cases m'.credential.sessionToken <;> simp

theorem signedHeader_query {expiry : Nat} (hm : m.placement = .query expiry) (hp : m.prepare taken = .ok prepared) :
    prepared.header = withHost taken.authority taken.header := by
  have hs := prepare_header hp
  rw [signedHeader, hm] at hs
  exact (Except.ok.inj hs).symm

/-- Two texts of one request are the same exactly when they tell the same of the tokens. -/
theorem Resembles.texts_eq_iff (h : m.Resembles m') (ht : (m.sign r).canonicalRequest = some text)
    (ht' : (m'.sign r).canonicalRequest = some text') : text = text' ↔
      m.credential.sessionToken.map m.placement.told = m'.credential.sessionToken.map m.placement.told := by
  obtain ⟨taken, prepared, htaken, hp, htext⟩ := canonicalRequest_eq_some.1 ht
  obtain ⟨taken', prepared', htaken', hp', htext'⟩ := canonicalRequest_eq_some.1 ht'
  obtain rfl : taken' = taken := Option.some.inj (htaken'.symm.trans htaken)
  have hpayload : payloadHash? prepared.header = payloadHash? prepared'.header := by
    rw [payloadHash?_signedHeader (prepare_header hp), payloadHash?_signedHeader (prepare_header hp')]
  rw [text_eq_iff hp hp' htext htext']
  cases hm : m.placement with
  | header =>
    rw [signedPairs_header hm, signedPairs_header (h.placement ▸ hm)]
    constructor
    · rintro ⟨-, -, -, hnames, htexts, -⟩
      exact h.words_of_fields hm hp hp' hnames htexts
    · intro htold
      obtain ⟨hnames, htexts⟩ := h.fields_of_words hm hp hp' htold
      exact ⟨rfl, rfl, List.Perm.refl _, hnames, htexts, hpayload⟩
  | query expiry =>
    have hheader : prepared.header = prepared'.header :=
      (signedHeader_query hm hp).trans (signedHeader_query (h.placement ▸ hm) hp').symm
    rw [signedPairs, signedPairs, hheader, List.perm_append_left_iff]
    refine Iff.trans ⟨?_, ?_⟩ (h.added_perm_iff hm prepared'.header)
    · rintro ⟨-, -, hpairs, -⟩
      exact hpairs
    · intro hpairs
      exact ⟨rfl, rfl, hpairs, fun _ => Iff.rfl, fun _ _ => rfl, rfl⟩

end Mandate

namespace Signer

namespace Step

def signer : Step → Signer
  | .sign s _ _ => s
  | .presign s _ _ => s

/-- The same step by another signer. -/
def withSigner (s : Signer) : Step → Step
  | .sign _ now body => .sign s now body
  | .presign _ now nanos => .presign s now nanos

variable {st : Step} {s : Signer}

/-- Whether a step comes to its mandate is not up to the signer. -/
theorem attempt_withSigner (st : Step) (s : Signer) (r : Request) :
    (st.attempt r = st.mandate.sign (st.handed r) ∧
      (st.withSigner s).attempt r = (st.withSigner s).mandate.sign (st.handed r)) ∨
    (st.withSigner s).attempt r = st.attempt r ∧ (st.attempt r).canonicalRequest = none := by
  cases st with
  | sign _ now body => exact .inl ⟨rfl, rfl⟩
  | presign _ now nanos =>
    by_cases he : isExpiry nanos = true
    · exact .inl ⟨if_pos he, if_pos he⟩
    · have hrefused : ∀ k : Signer, (presign k now nanos).attempt r =
          { request := r, fault := some (.expiryOutOfRange (nanos / nanosPerSecond)) } := fun k => if_neg he
      refine .inr ⟨(hrefused s).trans (hrefused _).symm, ?_⟩
      rw [hrefused]

theorem resembles_withSigner (hkey : s.credential.accessKeyId = st.signer.credential.accessKeyId)
    (hregion : s.region = st.signer.region) (htime : s.time = st.signer.time) :
    st.mandate.Resembles (st.withSigner s).mandate := by
  have hscope : ∀ now, Signer.scope st.signer now = s.scope now := by
    intro now
    rw [Signer.scope, Signer.scope, hregion, htime]
  cases st with
  | sign _ now body => exact ⟨hkey.symm, hscope now, rfl⟩
  | presign _ now nanos => exact ⟨hkey.symm, hscope now, rfl⟩

theorem sessionToken_mandate (st : Step) : st.mandate.credential.sessionToken = st.signer.credential.sessionToken := by
  cases st <;> rfl

theorem signer_withSigner (st : Step) (s : Signer) : (st.withSigner s).signer = s := by
  cases st <;> rfl

end Step

/-- What the logged texts tell of a credential whose access key is known. The scope tells nothing, and the secret key
has no part in the canonical request. A session token is shown in it, and texts that differ in the credential
only are the same exactly when they show the same of the tokens. -/
theorem logged_texts (st : Step) (s : Signer) (hkey : s.credential.accessKeyId = st.signer.credential.accessKeyId)
    (hregion : s.region = st.signer.region) (htime : s.time = st.signer.time) (r : Request) :
    ((st.withSigner s).attempt r).scope = (st.attempt r).scope ∧
    (s.credential.sessionToken = st.signer.credential.sessionToken →
      ((st.withSigner s).attempt r).canonicalRequest = (st.attempt r).canonicalRequest) ∧
    ∀ text, (st.attempt r).canonicalRequest = some text →
      (∀ token, st.signer.credential.sessionToken = some token → st.mandate.Discloses text token) ∧
      ∀ text', ((st.withSigner s).attempt r).canonicalRequest = some text' →
        (text' = text ↔ s.credential.sessionToken.map st.mandate.placement.told =
          st.signer.credential.sessionToken.map st.mandate.placement.told) := by
  have hresembles := Step.resembles_withSigner hkey hregion htime
  have htoken := st.sessionToken_mandate
  have htoken' := (st.withSigner s).sessionToken_mandate
  rw [st.signer_withSigner] at htoken'
  rcases st.attempt_withSigner s r with ⟨heq, heq'⟩ | ⟨heq, hnone⟩
  · rw [heq, heq', ← htoken, ← htoken']
    refine ⟨(hresembles.scope_eq _).symm, fun e => (hresembles.text_eq e.symm _).symm, fun text h => ⟨?_, ?_⟩⟩
    · exact fun token ht => Mandate.discloses h ht
    · intro text' h'
      rw [eq_comm, hresembles.texts_eq_iff h h', eq_comm]
  · rw [heq, hnone]
    refine ⟨rfl, fun _ => rfl, fun text h => ?_⟩
    cases h

/-- The signer with another secret key. -/
def rotated : Signer :=
  { temporary with
    credential := { temporary.credential with secretAccessKey := "other" }
    keys := by decide +kernel }

theorem logged_texts_rotated : ∃ text, (temporary.sign morning plain []).canonicalRequest = some text ∧
    (rotated.sign morning plain []).canonicalRequest = some text ∧
    utf8 "x-amz-security-token:" ++ collapse (utf8 "token") ∈ fieldsIn text := by
  have h : (temporary.sign morning plain []).fault = none := sign_of_isReady (by decide +kernel)
  obtain ⟨-, -, -, text, -, -, -, htext, -⟩ := signed_of_sign h
  obtain ⟨-, hsame, htexts⟩ := logged_texts (.sign temporary morning []) rotated rfl rfl rfl plain
  exact ⟨text, htext, (hsame rfl).trans htext, (htexts text htext).1 "token" rfl⟩

/-- The signer with another session token. -/
def renewed : Signer :=
  { temporary with
    credential := { temporary.credential with sessionToken := some "renewed" }
    keys := by decide +kernel }

/-- With the token the text changes, and each of both can be read in its text. -/
theorem log_tells_tokens : ∃ text text', (temporary.sign morning plain []).fault = none ∧
    (temporary.sign morning plain []).canonicalRequest = some text ∧ (renewed.sign morning plain []).fault = none ∧
    (renewed.sign morning plain []).canonicalRequest = some text' ∧ text ≠ text' ∧
    utf8 "x-amz-security-token:token" ∈ fieldsIn text ∧ utf8 "x-amz-security-token:renewed" ∈ fieldsIn text' := by
  have h : (temporary.sign morning plain []).fault = none := sign_of_isReady (by decide +kernel)
  have h' : (renewed.sign morning plain []).fault = none := sign_of_isReady (by decide +kernel)
  obtain ⟨-, -, -, text, -, -, -, htext, -⟩ := signed_of_sign h
  obtain ⟨-, -, -, text', -, -, -, htext', -⟩ := signed_of_sign h'
  have hline : utf8 "x-amz-security-token:" ++ collapse (utf8 "token") ∈ fieldsIn text := Mandate.discloses htext rfl
  have hline' : utf8 "x-amz-security-token:" ++ collapse (utf8 "renewed") ∈ fieldsIn text' :=
    Mandate.discloses htext' rfl
  have hresembles : Mandate.Resembles ⟨temporary.credential, temporary.scope morning, .header⟩
      ⟨renewed.credential, renewed.scope morning, .header⟩ := ⟨rfl, rfl, rfl⟩
  have htold : some (collapse (utf8 "token")) ≠ some (collapse (utf8 "renewed")) := by decide
  have hspelled : utf8 "x-amz-security-token:token" = utf8 "x-amz-security-token:" ++ collapse (utf8 "token") := by
    decide
  have hspelled' : utf8 "x-amz-security-token:renewed" =
      utf8 "x-amz-security-token:" ++ collapse (utf8 "renewed") := by decide
  exact ⟨text, text', h, htext, h', htext', fun e => htold ((hresembles.texts_eq_iff htext htext').1 e),
    hspelled ▸ hline, hspelled' ▸ hline'⟩

end Signer

end SigV4
