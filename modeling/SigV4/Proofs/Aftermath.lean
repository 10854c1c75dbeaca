import SigV4.Proofs.History
/-!
# What a failed attempt leaves

A request is taken apart before it is signed and put together again afterwards. `Leaves` sums up what is there
when something goes wrong in between: the request as it was, the request without its URI, or no more of it than
the method. None of these is partly signed.
-/

namespace SigV4

open Http

/-! ## Late faults -/

namespace Signing

/-- A fault that is found when a request is signed or put together again. -/
inductive Fault.IsLate : Fault → Prop
  | value (f : ValueFault) : IsLate (.value f)
  | uri (f : UriFault) : IsLate (.uri f)

/-- Whatever goes wrong is a late fault. -/
def FailsLate {α : Type} (x : Except Fault α) : Prop := ∀ f, x = .error f → f.IsLate

variable {α β : Type}

theorem failsLate_ok (a : α) : FailsLate (.ok a) := by
  intro f h
  cases h

theorem FailsLate.bind {x : Except Fault α} {k : α → Except Fault β} (hx : FailsLate x) (hk : ∀ a, FailsLate (k a)) :
    FailsLate (x >>= k) := by
  intro f h
  cases hr : x with
  | error g =>
    rw [hr] at h
    obtain rfl := Except.error.inj h
    exact hx g hr
  | ok a =>
    rw [hr] at h
    exact hk a f h

end Signing

open Signing

theorem SigningRequest.ofRequest?_eq_none {r : Request} : ofRequest? r = none ↔ r.uri.authority? = none := by
  unfold ofRequest?
  cases r.uri <;> simp [Uri.authority?]

theorem SigningRequest.failsLate_toRequest (s : SigningRequest) : FailsLate s.toRequest := by
  intro f h
  unfold toRequest at h
  split at h
  · cases h
  · rename_i u _
    obtain rfl := Except.error.inj h
    exact .uri u

namespace Mandate

variable {m : Mandate}

theorem failsLate_fieldValue (bs : Bytes) : FailsLate (fieldValue bs) := by
  intro f h
  unfold fieldValue at h
  split at h
  · cases h
  · obtain rfl := Except.error.inj h
    exact .value .invalid

theorem failsLate_stampHeader (m : Mandate) (h : Header) : FailsLate (m.stampHeader h) := by
  unfold stampHeader
  apply (failsLate_fieldValue _).bind
  intro d
  cases m.credential.sessionToken with
  | none => exact failsLate_ok _
  | some token =>
    apply (failsLate_fieldValue _).bind
    intro v
    exact failsLate_ok _

theorem failsLate_prepare (m : Mandate) (r : SigningRequest) : FailsLate (m.prepare r) := by
  unfold prepare
  rw [commonHeader_eq]
  apply (failsLate_ok _).bind
  intro h
  cases m.placement with
  | query expiry => exact failsLate_ok _
  | header =>
    apply (failsLate_stampHeader m h).bind
    intro h'
    exact failsLate_ok _

theorem failsLate_attach (m : Mandate) (p : SigningRequest) (sig : Bytes) : FailsLate (m.attach p sig) := by
  unfold attach
  cases m.placement with
  | query expiry => exact failsLate_ok _
  | header =>
    apply (failsLate_fieldValue _).bind
    intro v
    exact failsLate_ok _

/-- Once a request is taken apart every fault is a late one, and takes all but the method with it. -/
theorem sign_late {r : Request} {taken : SigningRequest} (ht : SigningRequest.ofRequest? r = some taken)
    {f : Fault} (h : (m.sign r).fault = some f) : f.IsLate ∧ (m.sign r).request = { method := r.method } := by
  have hleft : SigningRequest.remainder r = { method := r.method } := by
    unfold SigningRequest.remainder
    rw [ht]
    rfl
  unfold sign at h ⊢
  rw [hleft, ht] at h ⊢
  dsimp only at h ⊢
  cases hp : m.prepare taken with
  | error g =>
    rw [hp] at h
    obtain rfl := Option.some.inj h
    exact ⟨failsLate_prepare m taken _ hp, rfl⟩
  | ok prepared =>
    rw [hp] at h
    dsimp only at h ⊢
    cases hx : Canonical.request? prepared with
    | none =>
      rw [hx] at h
      obtain rfl := Option.some.inj h
      exact ⟨.value .notText, rfl⟩
    | some text =>
      rw [hx] at h
      dsimp only at h ⊢
      generalize m.scope.signature m.credential.secretAccessKey (m.scope.stringToSign text) = sig at h ⊢
      have hlate : FailsLate (m.attach prepared sig >>= SigningRequest.toRequest) :=
        (failsLate_attach m prepared sig).bind SigningRequest.failsLate_toRequest
      cases hs : m.attach prepared sig >>= SigningRequest.toRequest with
      | ok sent =>
        rw [hs] at h
        cases h
      | error g =>
        rw [hs] at h
        obtain rfl := Option.some.inj h
        exact ⟨hlate _ hs, rfl⟩

/-- Without an authority the request loses its URI and nothing else. -/
theorem sign_unlocated {r : Request} (hr : r.uri.authority? = none) :
    (m.sign r).fault = some .noAuthority ∧ (m.sign r).request = r.withoutUri := by
  have hnone := SigningRequest.ofRequest?_eq_none.2 hr
  unfold sign SigningRequest.remainder
  rw [hnone]
  exact ⟨rfl, rfl⟩

end Mandate

namespace Signer

/-! ## Steps with a fault -/

/-- Whether a step asks for no expiry or for one in range. -/
def Step.isTimely : Step → Bool
  | .sign .. => true
  | .presign _ _ nanos => isExpiry nanos

theorem Step.attempt_of_isTimely {st : Step} (h : st.isTimely = true) (r : Request) :
    st.attempt r = st.mandate.sign (st.handed r) := by
  cases st with
  | sign s now body => rfl
  | presign s now nanos => exact if_pos h

theorem Step.attempt_of_not_isTimely {st : Step} (h : ¬ st.isTimely = true) (r : Request) :
    ∃ s now nanos, st = .presign s now nanos ∧ isExpiry nanos = false ∧
      st.attempt r = { request := r, fault := some (.expiryOutOfRange (nanos / nanosPerSecond)) } := by
  cases st with
  | sign s now body => exact absurd rfl h
  | presign s now nanos => exact ⟨s, now, nanos, rfl, Bool.eq_false_iff.2 h, if_neg h⟩

theorem Step.handed_rest (st : Step) (r : Request) :
    (st.handed r).method = r.method ∧ (st.handed r).uri = r.uri ∧
      ∀ n, n ≠ .amzContentSha256 → (st.handed r).header.values n = r.header.values n := by
  cases st with
  | presign s now nanos => exact ⟨rfl, rfl, fun _ _ => rfl⟩
  | sign s now body =>
    refine ⟨rfl, rfl, ?_⟩
    intro n hn
    exact (Header.values_set ..).trans (if_neg hn.symm)

/-- What a step with a fault leaves of a request. -/
inductive Leaves (r : Request) : Step → Fault → Request → Prop
  /-- The expiry is looked at first. -/
  | untouched {s : Signer} {now : Time} {nanos : Nat} (expiry : isExpiry nanos = false) :
    Leaves r (.presign s now nanos) (.expiryOutOfRange (nanos / nanosPerSecond)) r
  /-- The URI was taken out and names no server. The fields are still there, by now with the hash of the body. -/
  | unlocated {s : Signer} {now : Time} {body : Bytes} {payload : FieldValue} (authority : r.uri.authority? = none)
    (hash : payload.bytes = Sha256.hex body) :
    Leaves r (.sign s now body) .noAuthority
      { method := r.method, header := r.header.set .amzContentSha256 payload }
  /-- For a signature in the URI there is no body, and the fields are as they were. -/
  | unlocatedInUri {s : Signer} {now : Time} {nanos : Nat} (expiry : isExpiry nanos = true)
    (authority : r.uri.authority? = none) :
    Leaves r (.presign s now nanos) .noAuthority { method := r.method, header := r.header }
  /-- The request was taken apart and never put together again. -/
  | emptied {st : Step} {f : Fault} (timely : st.isTimely = true) (authority : r.uri.authority? ≠ none)
    (late : f.IsLate) : Leaves r st f { method := r.method }

/-- A fault is of one of these kinds, and each leaves its own. -/
theorem leaves_of_fault {st : Step} {r : Request} {f : Fault} (h : (st.attempt r).fault = some f) :
    Leaves r st f (st.attempt r).request := by
  by_cases ht : st.isTimely = true
  · obtain ⟨hmethod, huri, -⟩ := st.handed_rest r
    rw [Step.attempt_of_isTimely ht] at h ⊢
    cases htaken : SigningRequest.ofRequest? (st.handed r) with
    | none =>
      have hnone := SigningRequest.ofRequest?_eq_none.1 htaken
      obtain ⟨hfault, hleft⟩ := st.mandate.sign_unlocated hnone
      rw [hfault] at h
      obtain rfl := Option.some.inj h
      rw [hleft, Request.withoutUri, hmethod]
      rw [huri] at hnone
      cases st with
      | sign s now body => exact .unlocated hnone rfl
      | presign s now nanos => exact .unlocatedInUri ht hnone
    | some taken =>
      obtain ⟨hlate, hleft⟩ := Mandate.sign_late htaken h
      rw [hleft, hmethod]
      apply Leaves.emptied ht _ hlate
      rw [← huri, Ne, ← SigningRequest.ofRequest?_eq_none, htaken]
      exact Option.some_ne_none taken
  · obtain ⟨s, now, nanos, rfl, hexpiry, heq⟩ := Step.attempt_of_not_isTimely ht r
    rw [heq] at h ⊢
    obtain rfl := Option.some.inj h
    exact .untouched hexpiry

namespace Leaves

variable {r left : Request} {st : Step} {f : Fault}

theorem method (h : Leaves r st f left) : left.method = r.method := by
  cases h <;> rfl

theorem uri (h : Leaves r st f left) : left = r ∨ left.uri = .none := by
  cases h with
  | untouched => exact .inl rfl
  | unlocated => exact .inr rfl
  | unlocatedInUri => exact .inr rfl
  | emptied => exact .inr rfl

/-- All fields are still there, or none. -/
theorem fields (h : Leaves r st f left) :
    (∀ n, n ≠ .amzContentSha256 → left.header.values n = r.header.values n) ∨ left.header = {} := by
  cases h with
  | untouched => exact .inl fun _ _ => rfl
  | unlocated => exact .inl fun n hn => (Header.values_set ..).trans (if_neg hn.symm)
  | unlocatedInUri => exact .inl fun _ _ => rfl
  | emptied => exact .inr rfl

/-- With the fields of a request that was to be signed there is the hash of its body, and no other one. -/
theorem payload {s : Signer} {now : Time} {body : Bytes} (h : Leaves r (.sign s now body) f left) :
    (left.header.values .amzContentSha256).map (·.bytes) = [Sha256.hex body] ∨ left.header = {} := by
  cases h with
  | unlocated _ hash =>
    rw [Header.values_set, if_pos rfl, List.map_singleton, hash]
    exact .inl rfl
  | emptied => exact .inr rfl

theorem authorization (h : Leaves r st f left) :
    ∀ v ∈ left.header.values .authorization, v ∈ r.header.values .authorization := by
  intro v hv
  rcases h.fields with hall | hnone
  · rwa [hall _ (by decide)] at hv
  · rw [hnone] at hv
    cases hv

end Leaves

theorem Step.fault_of_authority {r : Request} (hr : r.uri.authority? = none) (st : Step) :
    (st.attempt r).fault ≠ none := by
  by_cases ht : st.isTimely = true
  · rw [attempt_of_isTimely ht, (Mandate.sign_unlocated ((st.handed_rest r).2.1.symm ▸ hr)).1]
    exact Option.some_ne_none _
  · obtain ⟨s, now, nanos, -, -, heq⟩ := attempt_of_not_isTimely ht r
    rw [heq]
    exact Option.some_ne_none _

/-- A step with a fault leaves the request as it was, without its URI, or empty but for its method. It never leaves
a new signature or a part of the fields, and what is not as it was cannot be signed any more. The one field that may
have been changed is the hash of the payload, which is that of the body then. -/
theorem fault_leaves {st : Step} {r : Request} {f : Fault} (h : (st.attempt r).fault = some f) :
    Leaves r st f (st.attempt r).request ∧ (st.attempt r).request.method = r.method ∧
      ((st.attempt r).request = r ∨
        (st.attempt r).request.uri = .none ∧ ∀ st' : Step, (st'.attempt (st.attempt r).request).fault ≠ none) ∧
      (∀ v ∈ (st.attempt r).request.header.values .authorization, v ∈ r.header.values .authorization) ∧
      ((∀ n, n ≠ .amzContentSha256 → (st.attempt r).request.header.values n = r.header.values n) ∨
        (st.attempt r).request.header = {}) ∧
      ∀ s now body, st = .sign s now body →
        ((st.attempt r).request.header.values .amzContentSha256).map (·.bytes) = [Sha256.hex body] ∨
          (st.attempt r).request.header = {} := by
  have hleaves := leaves_of_fault h
  refine ⟨hleaves, hleaves.method, ?_, hleaves.authorization, hleaves.fields, ?_⟩
  · rcases hleaves.uri with hsame | huri
    · exact .inl hsame
    · refine .inr ⟨huri, ?_⟩
      intro st'
      apply Step.fault_of_authority
      rw [huri]
      rfl
  · rintro s now body rfl
    exact hleaves.payload

/-- A request with a field that is no text. -/
def accented : Request := { plain with header := ⟨[(.contentType, ⟨utf8 "é", by decide +kernel⟩)]⟩ }

theorem fault_leaves_accented :
    ((Step.presign longTerm morning 0).attempt accented).fault = some (.expiryOutOfRange 0) ∧
      ((Step.presign longTerm morning 0).attempt accented).request.method = .get ∧
      ((Step.sign longTerm morning []).attempt accented.withoutUri).fault = some .noAuthority ∧
      Leaves accented.withoutUri (.sign longTerm morning []) .noAuthority
        ((Step.sign longTerm morning []).attempt accented.withoutUri).request ∧
      ((Step.sign longTerm morning []).attempt accented).fault = some (.value .notText) ∧
      Leaves accented (.sign longTerm morning []) (.value .notText)
        ((Step.sign longTerm morning []).attempt accented).request := by
  have hexpiry : ((Step.presign longTerm morning 0).attempt accented).fault = some (.expiryOutOfRange 0) := rfl
  have hauthority : ((Step.sign longTerm morning []).attempt accented.withoutUri).fault = some .noAuthority := rfl
  have htext : ((Step.sign longTerm morning []).attempt accented).fault = some (.value .notText) := by
    decide +kernel
  exact ⟨hexpiry, (fault_leaves hexpiry).2.1, hauthority, (fault_leaves hauthority).1, htext, (fault_leaves htext).1⟩

end Signer

end SigV4
