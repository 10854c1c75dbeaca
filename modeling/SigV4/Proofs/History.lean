import SigV4.Proofs.Signatures
/-!
# Histories of signatures

A request may be signed many times, in its header and in its URI. An earlier `authorization` is never
signed again. A signature in the URI stays there: whatever is signed afterwards shows the pairs of all
earlier ones.
-/

namespace SigV4

open Http Canonical

/-! ## Steps -/

namespace Signer

/-- One signature, by any signer at any time. -/
inductive Step where
  | sign (s : Signer) (now : Time) (body : Bytes)
  | presign (s : Signer) (now : Time) (nanos : Nat)

namespace Step

def attempt (r : Request) : Step → Attempt
  | .sign s now body => s.sign now r body
  | .presign s now nanos => s.presign now r nanos

def mandate : Step → Mandate
  | .sign s now _ => ⟨s.credential, s.scope now, .header⟩
  | .presign s now nanos => ⟨s.credential, s.scope now, .query (nanos / nanosPerSecond)⟩

/-- The request as it is handed to the mandate. -/
def handed (r : Request) : Step → Request
  | .sign _ _ body => withPayloadHash r body
  | .presign .. => r

/-- The pair that a step puts into the URI, if it has no fault. -/
def left (r : Request) (st : Step) : List Form.Pair :=
  match (st.attempt r).fault, (st.attempt r).canonicalRequest with
  | none, some text => st.mandate.left text
  | _, _ => []

variable {st : Step} {r : Request} {text : Bytes}

theorem left_eq (hfault : (st.attempt r).fault = none) (htext : (st.attempt r).canonicalRequest = some text) :
    st.left r = st.mandate.left text := by
  simp only [left, hfault, htext]

/-- Only an expiry out of range keeps a step from its mandate. -/
theorem attempt_cases (st : Step) (r : Request) :
    st.attempt r = st.mandate.sign (st.handed r) ∨ ∃ f, st.attempt r = { request := r, fault := some f } := by
  cases st with
  | sign s now body => exact .inl rfl
  | presign s now nanos =>
    change s.presign now r nanos = _ ∨ ∃ f, s.presign now r nanos = _
    unfold Signer.presign
    by_cases he : isExpiry nanos = true
    · exact .inl (if_pos he)
    · exact .inr ⟨_, if_neg he⟩

theorem ofRequest?_handed {taken : SigningRequest} (h : SigningRequest.ofRequest? (st.handed r) = some taken) :
    ∃ t, SigningRequest.ofRequest? r = some t ∧ taken.query = t.query := by
  cases st with
  | sign s now body =>
    obtain ⟨t, ht, hquery, -⟩ := ofRequest?_withPayloadHash h
    exact ⟨t, ht, hquery⟩
  | presign s now nanos => exact ⟨taken, h, rfl⟩

/-- Behind a step the request has the signatures it had and the one of the step. -/
theorem signatures_attempt {back : SigningRequest} (h : SigningRequest.ofRequest? (st.attempt r).request = some back) :
    ∃ taken, SigningRequest.ofRequest? r = some taken ∧
      (back.query.filter isSignature).Perm (taken.query.filter isSignature ++ st.left r) := by
  rcases st.attempt_cases r with heq | ⟨f, heq⟩
  · rw [heq] at h
    have hfault := Mandate.fault_of_ofRequest? h
    obtain ⟨taken, prepared, text, sent, hsigned, hsent, htext, -⟩ := Mandate.sign_ok hfault
    obtain ⟨t, ht, hquery⟩ := ofRequest?_handed hsigned.taken_eq
    obtain ⟨back', hback, hperm⟩ := hsigned.signatures_sent
    rw [hsent, hback] at h
    obtain rfl := Option.some.inj h
    rw [← heq] at hfault htext
    exact ⟨t, ht, left_eq hfault htext ▸ hquery ▸ hperm⟩
  · rw [heq] at h
    refine ⟨back, h, ?_⟩
    simp only [left, heq, List.append_nil]
    exact List.Perm.refl _

theorem left_presign {s : Signer} {now : Time} {nanos : Nat} (h : (s.presign now r nanos).fault = none) :
    ∃ sig, (Step.presign s now nanos).left r = [Mandate.signaturePair sig] := by
  obtain ⟨-, heq⟩ := presign_eq h
  have hfault := h
  rw [heq] at hfault
  obtain ⟨-, -, text, -, -, -, htext, -⟩ := Mandate.sign_ok hfault
  rw [← heq] at htext
  have hleft : (Step.presign s now nanos).left r = (Step.presign s now nanos).mandate.left text := left_eq h htext
  exact ⟨_, hleft⟩

/-- What a step signs shows the signatures that the request has, and no `authorization`. -/
theorem canonicalRequest_attempt (h : (st.attempt r).canonicalRequest = some text) :
    (∀ line ∈ fieldsIn text, ¬ utf8 "authorization:" <+: line) ∧
      ∃ taken, SigningRequest.ofRequest? r = some taken ∧
        (signaturesIn text).Perm ((taken.query.filter isSignature).map shown) := by
  rcases st.attempt_cases r with heq | ⟨f, heq⟩
  · rw [heq] at h
    obtain ⟨taken, prepared, htaken, hp, ht⟩ := Mandate.canonicalRequest_eq_some.1 h
    obtain ⟨t, ht', hquery⟩ := ofRequest?_handed htaken
    exact ⟨Mandate.notMem_fieldsIn hp ht, t, ht', hquery ▸ Mandate.signaturesIn_perm hp ht⟩
  · rw [heq] at h
    cases h

end Step

/-! ## Histories -/

/-- The request as it is after some steps. -/
def after (r : Request) (steps : List Step) : Request := steps.foldl (fun r st => (st.attempt r).request) r

/-- All signatures that the steps put into the URI. -/
def signatures (r : Request) : List Step → List Form.Pair
  | [] => []
  | st :: steps => st.left r ++ signatures (st.attempt r).request steps

/-- Behind a whole history the request has the signatures it had and those of all steps. -/
theorem signatures_after {r : Request} {steps : List Step} {back : SigningRequest}
    (h : SigningRequest.ofRequest? (after r steps) = some back) :
    ∃ taken, SigningRequest.ofRequest? r = some taken ∧
      (back.query.filter isSignature).Perm (taken.query.filter isSignature ++ signatures r steps) := by
  induction steps generalizing r with
  | nil => exact ⟨back, h, by rw [signatures, List.append_nil]⟩
  | cons st steps ih =>
    obtain ⟨mid, hmid, hperm⟩ := ih h
    obtain ⟨taken, htaken, hstep⟩ := Step.signatures_attempt hmid
    refine ⟨taken, htaken, hperm.trans ?_⟩
    rw [signatures, ← List.append_assoc]
    exact hstep.append_right _

/-- Signatures in the header leave none in the URI. -/
theorem signatures_eq_nil {r : Request} {steps : List Step} (h : ∀ st ∈ steps, st.mandate.placement = .header) :
    signatures r steps = [] := by
  induction steps generalizing r with
  | nil => rfl
  | cons st steps ih =>
    rw [List.forall_mem_cons] at h
    have hleft : st.left r = [] := by
      unfold Step.left
      split
      · rw [Mandate.left, h.1]
      · rfl
    rw [signatures, hleft, ih h.2, List.append_nil]

section
variable {r : Request} {earlier : List Step} {st : Step} {text : Bytes}

theorem signaturesIn_after (h : (st.attempt (after r earlier)).canonicalRequest = some text) :
    ∃ taken, SigningRequest.ofRequest? r = some taken ∧
      (signaturesIn text).Perm ((taken.query.filter isSignature ++ signatures r earlier).map shown) := by
  obtain ⟨-, back, hback, hshown⟩ := Step.canonicalRequest_attempt h
  obtain ⟨taken, htaken, hperm⟩ := signatures_after hback
  exact ⟨taken, htaken, hshown.trans (hperm.map shown)⟩

theorem shown_mem_pairsIn (h : (st.attempt (after r earlier)).canonicalRequest = some text) {p : Form.Pair}
    (hp : p ∈ signatures r earlier) : shown p ∈ pairsIn text := by
  obtain ⟨taken, -, hperm⟩ := signaturesIn_after h
  have hin : shown p ∈ signaturesIn text := hperm.symm.subset (List.mem_map_of_mem (List.mem_append_right _ hp))
  exact (List.mem_filter.1 hin).1

/-- A second signature, in the URI, has a text. -/
theorem exists_text_after (h : (st.attempt r).fault = none) (s : Signer) (now : Time) {nanos : Nat}
    (he : isExpiry nanos = true) :
    ∃ text, ((Step.presign s now nanos).attempt (after r [st])).canonicalRequest = some text := by
  have hsecond : ∀ q, (Step.presign s now nanos).attempt q = (Step.presign s now nanos).mandate.sign q :=
    fun q => if_pos he
  change ∃ text, ((Step.presign s now nanos).attempt (st.attempt r).request).canonicalRequest = some text
  rcases st.attempt_cases r with heq | ⟨f, heq⟩
  · rw [heq] at h ⊢
    obtain ⟨taken, prepared, text, sent, hsigned, hsent, -, -⟩ := Mandate.sign_ok h
    rw [hsecond, hsent]
    exact hsigned.exists_text rfl
  · rw [heq] at h
    cases h

/-- Whatever was signed before, no `authorization` is signed again. The query line shows the signatures that the
request came with and those that earlier steps put into the URI: none of theirs exactly when there are none. -/
theorem canonicalRequest_after (h : (st.attempt (after r earlier)).canonicalRequest = some text) :
    (∀ line ∈ fieldsIn text, ¬ utf8 "authorization:" <+: line) ∧
      (∃ taken, SigningRequest.ofRequest? r = some taken ∧
        (signaturesIn text).Perm ((taken.query.filter isSignature ++ signatures r earlier).map shown)) ∧
      ((∀ p ∈ signatures r earlier, shown p ∉ pairsIn text) ↔ signatures r earlier = []) := by
  refine ⟨(Step.canonicalRequest_attempt h).1, signaturesIn_after h, fun hnone => ?_, fun hnil p hp => ?_⟩
  · rw [List.eq_nil_iff_forall_not_mem]
    exact fun p hp => hnone p hp (shown_mem_pairsIn h hp)
  · rw [hnil] at hp
    cases hp

end

/-- A request without a query. -/
def plain : Request := ⟨.get, .full .https .exampleCom .root, {}⟩

theorem canonicalRequest_after_sign :
    ∃ text, ((Step.presign longTerm morning 60000000000).attempt
        (after plain [.sign longTerm morning []])).canonicalRequest = some text ∧
      (∀ line ∈ fieldsIn text, ¬ utf8 "authorization:" <+: line) ∧ signaturesIn text = [] := by
  have hfirst : ((Step.sign longTerm morning []).attempt plain).fault = none := sign_of_isReady (by decide +kernel)
  have hexpiry : isExpiry 60000000000 = true := by decide
  obtain ⟨text, h⟩ := exists_text_after hfirst longTerm morning hexpiry
  obtain ⟨hfields, ⟨taken, htaken, hperm⟩, -⟩ := canonicalRequest_after h
  refine ⟨text, h, hfields, ?_⟩
  have hquery : taken.query = [] := by
    rw [← Option.some.inj htaken]
    rfl
  rw [hquery, signatures_eq_nil (by simp [Step.mandate])] at hperm
  exact hperm.eq_nil

/-- Of two signatures in the URI the second one is about the first. -/
theorem presign_shows_presign :
    (longTerm.presign morning plain 60000000000).fault = none ∧
      ∃ sig text, signatures plain [.presign longTerm morning 60000000000] = [Mandate.signaturePair sig] ∧
        ((Step.presign longTerm morning 60000000000).attempt
          (after plain [.presign longTerm morning 60000000000])).canonicalRequest = some text ∧
        shown (Mandate.signaturePair sig) ∈ pairsIn text := by
  have hexpiry : isExpiry 60000000000 = true := by decide
  have hfirst : ((Step.presign longTerm morning 60000000000).attempt plain).fault = none :=
    presign_of_isReady hexpiry (by decide +kernel)
  obtain ⟨sig, hleft⟩ := Step.left_presign hfirst
  have hsignatures : signatures plain [.presign longTerm morning 60000000000] = [Mandate.signaturePair sig] := by
    simp only [signatures, hleft, List.append_nil]
  obtain ⟨text, h⟩ := exists_text_after hfirst longTerm morning hexpiry
  exact ⟨hfirst, _, text, hsignatures, h, shown_mem_pairsIn h (by simp [hsignatures])⟩

end Signer

end SigV4
