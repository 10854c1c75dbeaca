import SigV4.Proofs.Again
import SigV4.Proofs.Creation
import SigV4.Proofs.Uri
/-!
# Hosts of the token service

A well-formed region has a regional host and, with all regions of its partition, a global one. A request
that is made for a host goes to that host and no other, and a signature on it is for the region that the
host belongs to.
-/

namespace SigV4

open Http

/-! ## Signed requests -/

/-- A signature in the header leaves the method and the server as they are. -/
theorem Mandate.Signed.sent_full {m : Mandate} {r sent : Request} {taken prepared : SigningRequest} {text : Bytes}
    (h : m.Signed r taken prepared text sent) (hm : m.placement = .header) {s : Scheme} {a : Authority} {t : Target}
    (hr : r.uri = .full s a t) : ∃ (v : FieldValue) (t' : Target),
      v.bytes = m.authorizationText (Canonical.signedNames prepared.header)
        (m.scope.signature m.credential.secretAccessKey (m.scope.stringToSign text)) ∧
      sent = ⟨r.method, .full s a t', prepared.header.set .authorization v⟩ := by
  have htaken := h.taken_eq
  rw [SigningRequest.ofRequest?, hr] at htaken
  obtain ⟨hmethod, hscheme, hauthority, -⟩ := prepare_rest h.prepared_eq
  rw [← Option.some.inj htaken] at hmethod hscheme hauthority
  obtain ⟨q, hq, hsent⟩ := h.attached
  obtain ⟨v, hv, rfl⟩ := attach_header_ok hm hq
  obtain ⟨t', rfl⟩ := SigningRequest.toRequest_eq_ok hsent
  refine ⟨v, t', hv, ?_⟩
  rw [hmethod, hscheme, hauthority]

/-! ## Hosts -/

namespace Sts

/-- The regions whose names start with `cn-` are a partition of their own. -/
def InChina (region : String) : Prop := "cn-".toList <+: region.toList

instance (region : String) : Decidable (InChina region) := inferInstanceAs (Decidable (_ <+: _))

/-- The global and the regional host for a region, and the region that requests to the host are signed for. -/
inductive Host (region : String) : Bool → String → String → Prop where
  | global (h : ¬ InChina region) : Host region false "sts.amazonaws.com" "us-east-1"
  | globalChina (h : InChina region) : Host region false "sts.amazonaws.com.cn" "cn-north-1"
  | regional (h : ¬ InChina region) : Host region true ("sts." ++ region ++ ".amazonaws.com") region
  | regionalChina (h : InChina region) : Host region true ("sts." ++ region ++ ".amazonaws.com.cn") region

namespace Host

variable {region host host' home home' : String} {regional : Bool}

/-- Nothing else has a say. -/
theorem unique (h : Host region regional host home) (h' : Host region regional host' home') :
    host = host' ∧ home = home' := by
  cases h with
  | global h => cases h' with
    | global => exact ⟨rfl, rfl⟩
    | globalChina h' => exact absurd h' h
  | globalChina h => cases h' with
    | global h' => exact absurd h h'
    | globalChina => exact ⟨rfl, rfl⟩
  | regional h => cases h' with
    | regional => exact ⟨rfl, rfl⟩
    | regionalChina h' => exact absurd h' h
  | regionalChina h => cases h' with
    | regional h' => exact absurd h h'
    | regionalChina => exact ⟨rfl, rfl⟩

theorem home_valid (h : Host region regional host home) (hr : Region.WellFormed region) :
    Region.isValid home = true := by
  cases h with
  | global => decide
  | globalChina => decide
  | regional => exact Region.isValid_iff.2 hr
  | regionalChina => exact Region.isValid_iff.2 hr

def isHostChar (c : Char) : Bool := Region.isRegionChar c || c == '.'

theorem all_isHostChar (h : Host region regional host home) (hr : Region.WellFormed region) :
    host.toList.all isHostChar = true := by
  have hregion : region.toList.all isHostChar = true := by
    refine List.all_eq_true.2 fun c hc => ?_
    have hplain := hr.plain c hc
    simp only [isHostChar, Region.isRegionChar, Bool.or_eq_true, Bool.and_eq_true, decide_eq_true_eq, beq_iff_eq,
      or_assoc]
    rcases hplain with hletter | hdigit | hhyphen
    · exact .inl hletter
    · exact .inr (.inl hdigit)
    · exact .inr (.inr (.inl hhyphen))
  have hends : "sts.".toList.all isHostChar = true ∧ ".amazonaws.com".toList.all isHostChar = true ∧
      ".amazonaws.com.cn".toList.all isHostChar = true := by decide
  cases h with
  | global => decide
  | globalChina => decide
  | regional =>
    rw [String.toList_append, String.toList_append, List.all_append, List.all_append, hends.1, hregion, hends.2.1]
    rfl
  | regionalChina =>
    rw [String.toList_append, String.toList_append, List.all_append, List.all_append, hends.1, hregion, hends.2.2]
    rfl

/-- A host ends where the path of a URI starts. -/
theorem endsAuthority (h : Host region regional host home) (hr : Region.WellFormed region) :
    ∀ b ∈ utf8 host, Uri.endsAuthority b = false := by
  have hmark : ∀ b : UInt8, b = 0x2F ∨ b = 0x3F ∨ b = 0x23 → b ∉ utf8 host := by
    intro b hb
    have hb : b.toNat = 47 ∨ b.toNat = 63 ∨ b.toNat = 35 := by rcases hb with rfl | rfl | rfl <;> simp
    refine Verifier.notMem_utf8 fun c hc => ?_
    have hc : isHostChar c = true := List.all_eq_true.1 (h.all_isHostChar hr) c hc
    rw [isHostChar, Bool.or_eq_true, beq_iff_eq] at hc
    rcases hc with hc | rfl
    · have hnat := Verifier.toNat_of_isRegionChar hc
      omega
    · have hnat : '.'.toNat = 46 := rfl
      omega
  intro b hb
  by_contra hne
  simp only [Uri.endsAuthority, Bool.not_eq_false, Bool.or_eq_true, beq_iff_eq, or_assoc] at hne
  exact hmark b hne hb

end Host

/-- The endpoint for a region is at one of its hosts. -/
theorem Endpoint.choose_eq_ok {region : String} (hr : Region.WellFormed region) (regional : Bool) :
    ∃ e, choose (some region) regional = .ok e ∧ Host region regional e.host e.region := by
  have hfilter : (some region).filter (· ≠ "") = some region := by
    rw [Option.filter_some, if_pos (by simpa using hr.nonempty)]
  have hchina : isChina region = true ↔ InChina region := List.isPrefixOf_iff_prefix
  unfold choose
  rw [hfilter]
  cases regional with
  | false =>
    refine ⟨_, rfl, ?_⟩
    by_cases h : InChina region
    · simp only [Option.any_some, hchina.2 h]
      exact .globalChina h
    · simp only [Option.any_some, Bool.eq_false_iff.2 (mt hchina.1 h)]
      exact .global h
  | true =>
    refine ⟨_, rfl, ?_⟩
    have hdot : ∀ d : String, s!"sts.{region}.{d}" = "sts." ++ region ++ ("." ++ d) := by
      intro d
      simp [String.append_assoc, toString]
    unfold Endpoint.regional
    rw [hdot]
    by_cases h : InChina region
    · simp only [hchina.2 h]
      exact .regionalChina h
    · simp only [Bool.eq_false_iff.2 (mt hchina.1 h)]
      exact .regional h

/-! ## Requests -/

/-- A request that asks the token service for a credential, wherever it goes to. -/
def IsExchange (q : Request) : Prop := ∃ (x : Exchange) (now : Time), x.request now = .ok q

/-- A request to a host, whose signature, if it has one, is for the host's region. -/
structure SentTo (host home : String) (q : Request) : Prop where
  method : q.method = .get
  uri : ∃ a t, q.uri = .full .https a t ∧ a.bytes = utf8 host
  signature : ∀ v ∈ q.header.values .authorization, ∃ ticket, Verifier.Ticket.read? v.bytes = some ticket ∧
    ticket.issuer.region = utf8 home ∧ ticket.issuer.service = utf8 "sts"

namespace Exchange

variable {x : Exchange} {now : Time} {q : Request}

theorem uri_eq (x : Exchange) : x.uri = utf8 "https://" ++ (utf8 x.endpoint.host ++ 0x2F :: 0x3F :: x.query) := by
  have hend : utf8 "/?" = [0x2F, 0x3F] := by decide
  unfold Exchange.uri
  simp [toString, hend]

theorem request_unsigned (hx : x.signer = none) (h : x.request now = .ok q) : x.unsigned? = some q := by
  unfold request at h
  rw [hx] at h
  cases hr : x.unsigned? with
  | none => simp [hr] at h
  | some r =>
    simp only [hr] at h
    rw [Except.ok.inj h]

theorem request_signed {c : Credential} (hx : x.signer = some c) (h : x.request now = .ok q) :
    ∃ r taken prepared text, x.unsigned? = some r ∧ (x.mandate c now).Signed r taken prepared text q := by
  unfold request at h
  rw [hx] at h
  cases hr : x.unsigned? with
  | none => simp [hr] at h
  | some r =>
    cases hfault : ((x.mandate c now).sign r).fault with
    | some f => simp [hr, hfault] at h
    | none =>
      simp only [hr, hfault] at h
      obtain ⟨taken, prepared, text, sent, hsigned, hsent, -⟩ := Mandate.sign_ok hfault
      rw [Except.ok.inj h] at hsent
      exact ⟨r, taken, prepared, text, rfl, hsent ▸ hsigned⟩

/-- A request is sent as it is or with a signature in its header. -/
theorem request_cases (h : x.request now = .ok q) : ∃ r, x.unsigned? = some r ∧ (q = r ∨
    ∃ c taken prepared text, (x.mandate c now).Signed r taken prepared text q) := by
  cases hx : x.signer with
  | none => exact ⟨q, request_unsigned hx h, .inl rfl⟩
  | some c =>
    obtain ⟨r, taken, prepared, text, hr, hsigned⟩ := request_signed hx h
    exact ⟨r, hr, .inr ⟨c, taken, prepared, text, hsigned⟩⟩

theorem unsigned_eq {r : Request} (h : x.unsigned? = some r) : ∃ uri, Uri.read? x.uri = some uri ∧
    r = ⟨.get, uri, ⟨[(.contentType, .form), (.amzContentSha256, .hex (Sha256.digest []))]⟩⟩ := by
  obtain ⟨uri, huri, hr⟩ := Option.map_eq_some_iff.1 h
  exact ⟨uri, huri, hr.symm⟩

/-- Every request carries a form. -/
theorem contains_contentType (h : x.request now = .ok q) : q.header.contains .contentType = true := by
  obtain ⟨r, hr, hq⟩ := request_cases h
  obtain ⟨uri, -, rfl⟩ := unsigned_eq hr
  rcases hq with rfl | ⟨c, taken, prepared, text, hsigned⟩
  · rfl
  · rw [Header.contains_iff, hsigned.values_sent (by decide)]
    intro hnone
    have hbytes := Mandate.values_prepared hsigned.prepared_eq .contentType
    rw [hnone, SigningRequest.header_of_ofRequest? hsigned.taken_eq, Mandate.bytesOf, if_neg (by decide),
      if_neg (fun h => absurd h.2 (by decide)), if_neg (fun h => absurd h.2 (by decide)),
      if_neg (fun h => absurd h.1 (by decide))] at hbytes
    cases hbytes

/-- A request is sent to the host of its endpoint. -/
theorem sentTo (h : x.request now = .ok q) (hhost : ∀ b ∈ utf8 x.endpoint.host, Uri.endsAuthority b = false)
    (hregion : Region.isValid x.endpoint.region = true) : SentTo x.endpoint.host x.endpoint.region q := by
  obtain ⟨r, hr, hq⟩ := request_cases h
  obtain ⟨uri, huri, rfl⟩ := unsigned_eq hr
  rw [uri_eq] at huri
  obtain ⟨a, t, rfl, ha, -⟩ := Uri.read?_https hhost huri
  rcases hq with rfl | ⟨c, taken, prepared, text, hsigned⟩
  · refine ⟨rfl, ⟨a, t, rfl, ha⟩, ?_⟩
    intro v hv
    cases hv
  · obtain ⟨v, t', hv, rfl⟩ := hsigned.sent_full rfl rfl
    refine ⟨rfl, ⟨a, t', rfl, ha⟩, ?_⟩
    intro u hu
    rw [Header.values_set, if_pos rfl, List.mem_singleton] at hu
    -- what a verifier reads off the signature
    let m := x.mandate c now
    let signature := m.scope.signature c.secretAccessKey (m.scope.stringToSign text)
    have hservice : (0x2F : UInt8) ∉ utf8 service := by decide
    have hissuer : Verifier.Issuer.read? m.credentialText = some (Verifier.issuerOf m) :=
      Verifier.Issuer.read?_credentialText hregion hservice
    have hcomma : (0x2C : UInt8) ∉ signature := by
      intro hm
      have hhex := List.all_eq_true.1 (Mandate.all_signature m.scope c.secretAccessKey (m.scope.stringToSign text)) _ hm
      exact absurd hhex (by decide)
    have hread := Verifier.Ticket.read?_authorizationText hissuer
      (Mandate.signedNames_ne_nil hsigned.prepared_eq) hcomma
    rw [hu, hv]
    exact ⟨_, hread, rfl, congrArg utf8 (rfl : m.scope.service = "sts")⟩

end Exchange

end Sts

end SigV4
