import SigV4.Proofs.Canonicity
import SigV4.Proofs.Coverage
import SigV4.Proofs.History
/-!
# Payloads of signatures in the URI

The last line of a canonical request is the hash of the payload. A signature in the header declares the
hash of its body, whatever was declared before. A signature in the URI has no body and takes what it
finds: the hash of nothing only if no other one has been declared.
-/

namespace SigV4

open Http Canonical

namespace Canonical

/-- The hash of the payload, the last line. -/
def payloadIn (text : Bytes) : Bytes := (linesIn text).getLast?.getD []

theorem payloadIn_eq {r : SigningRequest} {ps : List Form.Pair} {text : Bytes} (hq : r.query = encodeQuery ps)
    (ht : request? r = some text) : payloadHash? r.header = some (payloadIn text) := by
  obtain ⟨hread, payload, hp, rfl⟩ := request?_eq_some.1 ht
  have hlines : linesIn (Bytes.join [0x0A] (lines r payload)) = lines r payload :=
    Bytes.splitOn_join (by simp [lines]) (notMem_lines hq hread hp)
  rw [hp, payloadIn, hlines, lines, List.getLast?_append]
  rfl

/-- The hash that a header declares for the payload. -/
def declared? (h : Header) : Option Bytes := (h.first? .amzContentSha256).map (·.trim.bytes)

theorem declared?_eq (h : Header) : declared? h = ((h.values .amzContentSha256).map (·.trim.bytes)).head? := by
  rw [declared?, Header.first?, List.head?_map]

end Canonical

namespace Mandate

variable {m : Mandate} {r sent : Request} {taken prepared : SigningRequest} {text : Bytes}

/-- The hash that is declared is the one that is signed. -/
theorem payloadIn_sign (h : (m.sign r).canonicalRequest = some text) :
    payloadIn text = (declared? r.header).getD (Sha256.hex []) := by
  obtain ⟨taken, prepared, htaken, hp, ht⟩ := canonicalRequest_eq_some.1 h
  have hpayload := payloadIn_eq (prepare_query hp) ht
  rw [payloadHash?_signedHeader (prepare_header hp), SigningRequest.header_of_ofRequest? htaken, ← declared?] at hpayload
  cases hd : declared? r.header with
  | none =>
    rw [hd] at hpayload
    exact (Option.some.inj hpayload).symm
  | some hash =>
    simp only [hd, Option.ite_none_right_eq_some] at hpayload
    exact (Option.some.inj hpayload.2).symm

/-- A mandate leaves the hash that is declared alone. -/
theorem Signed.declared_sent (h : m.Signed r taken prepared text sent) : declared? sent.header = declared? r.header := by
  have hbytes : (sent.header.values .amzContentSha256).map (·.bytes) =
      (r.header.values .amzContentSha256).map (·.trim.bytes) := by
    rw [h.bytes_sent (by decide), bytesOf_free (by decide) (notMem_fresh (by decide) (by decide)),
      if_neg (fun e => absurd e.1 (by decide))]
  have hvalues : sent.header.values .amzContentSha256 = (r.header.values .amzContentSha256).map FieldValue.trim := by
    apply FieldValue.map_bytes_inj
    rw [hbytes, List.map_map]
    rfl
  have htwice : (fun v : FieldValue => v.trim.bytes) ∘ FieldValue.trim = fun v => v.trim.bytes :=
    funext fun v => congrArg FieldValue.bytes v.trim_trim
  rw [declared?_eq, declared?_eq, hvalues, List.map_map, htwice]

end Mandate

namespace Signer

/-! ## Steps -/

namespace Step

/-- The body whose hash a step declares. -/
def body? : Step → Option Bytes
  | .sign _ _ body => some body
  | .presign .. => none

variable {st : Step} {r : Request} {text : Bytes}

theorem declared_handed (st : Step) (r : Request) :
    declared? (st.handed r).header = (st.body?.map Sha256.hex).or (declared? r.header) := by
  cases st with
  | sign s now body =>
    rw [declared?_eq, handed, withPayloadHash, Header.values_set, if_pos rfl, List.map_singleton, FieldValue.trim_hex]
    rfl
  | presign s now nanos => rfl

theorem payloadIn_attempt (h : (st.attempt r).canonicalRequest = some text) :
    payloadIn text = ((st.body?.map Sha256.hex).or (declared? r.header)).getD (Sha256.hex []) := by
  rcases st.attempt_cases r with heq | ⟨f, heq⟩
  · rw [heq] at h
    rw [Mandate.payloadIn_sign h, declared_handed]
  · rw [heq] at h
    cases h

/-- Only a signature in the header declares another hash. -/
theorem declared_attempt {back : SigningRequest} (h : SigningRequest.ofRequest? (st.attempt r).request = some back) :
    (∃ taken, SigningRequest.ofRequest? r = some taken) ∧
      declared? (st.attempt r).request.header = (st.body?.map Sha256.hex).or (declared? r.header) := by
  have hmandate : st.attempt r = st.mandate.sign (st.handed r) → (∃ taken, SigningRequest.ofRequest? r = some taken) ∧
      declared? (st.attempt r).request.header = (st.body?.map Sha256.hex).or (declared? r.header) := by
    intro heq
    rw [heq] at h
    obtain ⟨taken, prepared, text, sent, hsigned, hsent, -⟩ := Mandate.sign_ok (Mandate.fault_of_ofRequest? h)
    obtain ⟨t, ht, -⟩ := ofRequest?_handed hsigned.taken_eq
    refine ⟨⟨t, ht⟩, ?_⟩
    rw [heq, hsent, hsigned.declared_sent, declared_handed]
  cases st with
  | sign s now body => exact hmandate rfl
  | presign s now nanos =>
    rcases (presign s now nanos).attempt_cases r with heq | ⟨f, heq⟩
    · exact hmandate heq
    · rw [heq] at h ⊢
      exact ⟨⟨back, h⟩, rfl⟩

end Step

/-! ## Histories -/

/-- The hash that a request declares after some steps: that of the body signed last in the header, or else the one
that it came with. -/
def declaredAfter (r : Request) (steps : List Step) : Option Bytes :=
  ((steps.filterMap Step.body?).getLast?.map Sha256.hex).or (declared? r.header)

theorem declaredAfter_cons (r : Request) (st : Step) (steps : List Step) : declaredAfter r (st :: steps) =
    ((steps.filterMap Step.body?).getLast?.map Sha256.hex).or ((st.body?.map Sha256.hex).or (declared? r.header)) := by
  cases hb : st.body? with
  | none => rw [declaredAfter, List.filterMap_cons_none hb, Option.map_none, Option.none_or]
  | some body =>
    rw [declaredAfter, List.filterMap_cons_some hb, List.getLast?_cons]
    cases (steps.filterMap Step.body?).getLast? <;> rfl

/-- What a whole history declares: no step forgets a hash. -/
theorem declared_after {r : Request} {steps : List Step} {back : SigningRequest}
    (h : SigningRequest.ofRequest? (after r steps) = some back) :
    (∃ taken, SigningRequest.ofRequest? r = some taken) ∧ declared? (after r steps).header = declaredAfter r steps := by
  induction steps generalizing r with
  | nil => exact ⟨⟨back, h⟩, rfl⟩
  | cons st steps ih =>
    obtain ⟨⟨mid, hmid⟩, hlater⟩ := ih h
    obtain ⟨htaken, hfirst⟩ := Step.declared_attempt hmid
    refine ⟨htaken, ?_⟩
    change declared? (after (st.attempt r).request steps).header = _
    rw [hlater, declaredAfter, hfirst, declaredAfter_cons]

theorem payloadIn_after {r : Request} {earlier : List Step} {st : Step} {text : Bytes}
    (h : (st.attempt (after r earlier)).canonicalRequest = some text) :
    payloadIn text = ((st.body?.map Sha256.hex).or (declaredAfter r earlier)).getD (Sha256.hex []) := by
  obtain ⟨-, back, hback, -⟩ := Step.canonicalRequest_attempt h
  rw [Step.payloadIn_attempt h, (declared_after hback).2]

theorem exists_text_of_presign {s : Signer} {now : Time} {r : Request} {nanos : Nat}
    (h : (s.presign now r nanos).fault = none) : ∃ text, (s.presign now r nanos).canonicalRequest = some text := by
  obtain ⟨-, heq⟩ := presign_eq h
  rw [heq] at h ⊢
  obtain ⟨-, -, text, -, -, -, htext, -⟩ := Mandate.sign_ok h
  exact ⟨text, htext⟩

theorem payloadIn_presign {s : Signer} {now : Time} {nanos : Nat} (r : Request) (earlier : List Step) {text : Bytes}
    (h : (s.presign now (after r earlier) nanos).canonicalRequest = some text) :
    payloadIn text = (declaredAfter r earlier).getD (Sha256.hex []) := by
  have hstep : ((Step.presign s now nanos).attempt (after r earlier)).canonicalRequest = some text := h
  exact payloadIn_after hstep

/-- Whatever was signed before, a signature in the URI is about the payload hash that is declared by then: that of
the body signed last in the header, or else the one the request came with. It is the hash of nothing exactly when
none but that is declared, and requests have one payload line exactly when they declare one hash. -/
theorem presign_payload (s : Signer) (now : Time) (nanos : Nat) (r : Request) (earlier : List Step) :
    ((s.presign now (after r earlier) nanos).fault = none →
      ∃ text, (s.presign now (after r earlier) nanos).canonicalRequest = some text) ∧
    ∀ text, (s.presign now (after r earlier) nanos).canonicalRequest = some text →
      payloadIn text = (declaredAfter r earlier).getD (Sha256.hex []) ∧
      (payloadIn text = Sha256.hex [] ↔ ∀ hash, declaredAfter r earlier = some hash → hash = Sha256.hex []) ∧
      ∀ s' now' nanos' r' earlier' text', (presign s' now' (after r' earlier') nanos').canonicalRequest = some text' →
        (payloadIn text = payloadIn text' ↔
          (declaredAfter r earlier).getD (Sha256.hex []) = (declaredAfter r' earlier').getD (Sha256.hex [])) := by
  refine ⟨exists_text_of_presign, fun text h => ⟨payloadIn_presign r earlier h, ?_, ?_⟩⟩
  · rw [payloadIn_presign r earlier h]
    cases declaredAfter r earlier <;> simp
  · intro s' now' nanos' r' earlier' text' h'
    rw [payloadIn_presign r earlier h, payloadIn_presign r' earlier' h']

theorem presign_payload_signed : ∃ text,
    (longTerm.presign morning (after plain [.sign longTerm morning (utf8 "x")]) 60000000000).canonicalRequest =
        some text ∧ payloadIn text = Sha256.hex (utf8 "x") := by
  have hfirst : ((Step.sign longTerm morning (utf8 "x")).attempt plain).fault = none :=
    sign_of_isReady (by decide +kernel)
  have hexpiry : isExpiry 60000000000 = true := by decide
  obtain ⟨text, h⟩ := exists_text_after hfirst longTerm morning hexpiry
  obtain ⟨-, hpayload⟩ := presign_payload longTerm morning 60000000000 plain [.sign longTerm morning (utf8 "x")]
  exact ⟨text, h, (hpayload text h).1⟩

/-- Two requests that differ in the declared hash alone are not signed for one payload. -/
theorem presign_declared : ∃ text text',
    (longTerm.presign morning plain 60000000000).fault = none ∧
      (longTerm.presign morning plain 60000000000).canonicalRequest = some text ∧
      (longTerm.presign morning (withPayloadHash plain (utf8 "x")) 60000000000).fault = none ∧
      (longTerm.presign morning (withPayloadHash plain (utf8 "x")) 60000000000).canonicalRequest = some text' ∧
      payloadIn text' ≠ Sha256.hex [] ∧ payloadIn text ≠ payloadIn text' := by
  have hexpiry : isExpiry 60000000000 = true := by decide
  have h : (longTerm.presign morning plain 60000000000).fault = none :=
    presign_of_isReady hexpiry (by decide +kernel)
  have h' : (longTerm.presign morning (withPayloadHash plain (utf8 "x")) 60000000000).fault = none :=
    presign_of_isReady hexpiry (by decide +kernel)
  obtain ⟨text, htext⟩ := exists_text_of_presign h
  obtain ⟨text', htext'⟩ := exists_text_of_presign h'
  have hfresh : payloadIn text = Sha256.hex [] := payloadIn_presign plain [] htext
  have hstale : payloadIn text' = Sha256.hex (utf8 "x") := by
    have hdeclared := Step.declared_handed (.sign longTerm morning (utf8 "x")) plain
    have hpayload := payloadIn_presign (withPayloadHash plain (utf8 "x")) [] htext'
    exact hpayload.trans (congrArg (·.getD (Sha256.hex [])) hdeclared)
  have hne : Sha256.hex (utf8 "x") ≠ Sha256.hex [] := by decide +kernel
  refine ⟨text, text', h, htext, h', htext', hstale ▸ hne, ?_⟩
  rw [hfresh, hstale]
  exact hne.symm

end Signer

end SigV4
