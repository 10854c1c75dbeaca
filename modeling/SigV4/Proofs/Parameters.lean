import SigV4.Proofs.Hops
/-!
# Parameters of the token service

The parameters of an exchange stand in the query of its URI, as a form. For a signature they are read from there,
sorted, and written once more in another encoding. Either way whoever reads the query that is sent finds them as they
were given, and nothing else in the URI depends on them.
-/

namespace SigV4.Sts

open Http

/-! ## Endpoints -/

/-- An endpoint that is chosen for a well-formed region, or for none. -/
def Endpoint.IsChosen (e : Endpoint) : Prop :=
  ∃ region regional, (∀ r ∈ region, Region.WellFormed r) ∧ choose region regional = .ok e

theorem Endpoint.IsChosen.endsAuthority {e : Endpoint} (h : e.IsChosen) :
    ∀ b ∈ utf8 e.host, Uri.endsAuthority b = false := by
  obtain ⟨region, regional, hregion, he⟩ := h
  cases region with
  | some r =>
    obtain ⟨e', he', hhost⟩ := choose_eq_ok (hregion r rfl) regional
    obtain rfl := Except.ok.inj (he'.symm.trans he)
    exact hhost.endsAuthority (hregion r rfl)
  | none =>
    cases regional with
    | true => cases he
    | false =>
      obtain rfl := Except.ok.inj he
      decide +kernel

namespace Exchange

/-! ## Pairs -/

/-- The names and values that are to arrive. -/
def pairs (x : Exchange) : List Form.Pair :=
  ([("Action", x.action.name), ("Version", version)] ++ x.parameters).map fun p => (utf8 p.1, utf8 p.2)

/-- What the sources ask for: the credential of a role, with another credential or with a token. -/
inductive IsAsked (now : Time) : Exchange → Prop where
  | role (r : Role) (e : Endpoint) (c : Credential) : IsAsked now (r.exchange e c now)
  | webIdentity (e : Endpoint) (roleArn session token : String) :
      IsAsked now (Source.WebIdentity.exchange e roleArn session token)

/-- A parameter that may be left out. -/
def optional (name : String) (value : Option String) : List (String × String) := value.toList.map fun v => (name, v)

/-- The names of the parameters and what stands behind them. -/
inductive HasParameters (now : Time) : Exchange → List (String × String) → Prop where
  | role (r : Role) (e : Endpoint) (c : Credential) : HasParameters now (r.exchange e c now)
      ([("Action", "AssumeRole"), ("Version", "2011-06-15"), ("RoleArn", r.arn),
          ("RoleSessionName", r.sessionName.getD s!"apisign-session-{now.seconds}")] ++
        optional "ExternalId" r.externalId ++ optional "DurationSeconds" (r.duration.map toString))
  | webIdentity (e : Endpoint) (roleArn session token : String) :
      HasParameters now (Source.WebIdentity.exchange e roleArn session token)
        [("Action", "AssumeRoleWithWebIdentity"), ("Version", "2011-06-15"), ("RoleArn", roleArn),
          ("RoleSessionName", session), ("WebIdentityToken", token)]

variable {x : Exchange} {now : Time} {q r : Request}

theorem IsAsked.exists_parameters (h : x.IsAsked now) :
    ∃ given, x.HasParameters now given ∧ x.pairs = given.map fun p => (utf8 p.1, utf8 p.2) := by
  cases h with
  | webIdentity e roleArn session token => exact ⟨_, .webIdentity e roleArn session token, rfl⟩
  | role r e c =>
    have hparameters : r.parameters now = [("RoleArn", r.arn), ("RoleSessionName", r.sessionName.getD (sessionName now))]
        ++ optional "ExternalId" r.externalId ++ optional "DurationSeconds" (r.duration.map toString) := by
      rw [Role.parameters, optional, optional, Option.toList_map, List.map_map]
      rfl
    refine ⟨_, .role r e c, ?_⟩
    rw [pairs, Role.exchange, hparameters]
    rfl

theorem query_eq (x : Exchange) : x.query = Form.write x.pairs := rfl

theorem wellFormed_pairs (x : Exchange) : ∀ p ∈ x.pairs, Form.WellFormed p := by
  intro p hp
  obtain ⟨texts, -, rfl⟩ := List.mem_map.1 hp
  exact ⟨Utf8.wellFormed_utf8 texts.1, Utf8.wellFormed_utf8 texts.2⟩

theorem fst_pairs (x : Exchange) :
    x.pairs.map Prod.fst = (["Action", "Version"] ++ x.parameters.map Prod.fst).map utf8 := by
  simp [pairs]

/-- The names that parameters may have, in the order in which they stand. -/
def names : Action → List String
  | .assumeRole => ["RoleArn", "RoleSessionName", "ExternalId", "DurationSeconds"]
  | .assumeRoleWithWebIdentity => ["RoleArn", "RoleSessionName", "WebIdentityToken"]

theorem IsAsked.parameters_sublist (h : x.IsAsked now) : (x.parameters.map Prod.fst).Sublist (names x.action) := by
  cases h with
  | webIdentity e roleArn session token => exact List.Sublist.refl _
  | role r e c =>
    obtain ⟨arn, session, external, duration⟩ := r
    cases external <;> cases duration <;> simp [Role.exchange, Role.parameters, names]

/-- No name stands twice, and none is empty. -/
theorem IsAsked.nodup (h : x.IsAsked now) : (x.pairs.map Prod.fst).Nodup ∧ [] ∉ x.pairs.map Prod.fst := by
  have hall : ∀ a, ((["Action", "Version"] ++ names a).map utf8).Nodup ∧
      [] ∉ (["Action", "Version"] ++ names a).map utf8 := by
    intro a
    cases a <;> decide +kernel
  have hsub : (x.pairs.map Prod.fst).Sublist ((["Action", "Version"] ++ names x.action).map utf8) := by
    rw [fst_pairs]
    exact (h.parameters_sublist.append_left _).map utf8
  exact ⟨(hall x.action).1.sublist hsub, fun hmem => (hall x.action).2 (hsub.subset hmem)⟩

/-! ## Requests -/

/-- A request for the root of a host, whose query is read as the pairs. -/
structure Carries (host : String) (pairs : List Form.Pair) (q : Request) : Prop where
  method : q.method = .get
  uri : ∃ a t, q.uri = .full .https a t ∧ a.bytes = utf8 host ∧ t.shownPath = utf8 "/" ∧
    t.query.map Form.read = some pairs

/-- The query is all that the parameters make of the URI. -/
theorem carries_unsigned (hhost : ∀ b ∈ utf8 x.endpoint.host, Uri.endsAuthority b = false) (h : x.unsigned? = some r) :
    Carries x.endpoint.host x.pairs r := by
  obtain ⟨uri, huri, rfl⟩ := unsigned_eq h
  rw [uri_eq] at huri
  obtain ⟨a, t, rfl, ha, ht⟩ := Uri.read?_https hhost huri
  have hfragment : (0x23 : UInt8) ∉ 0x2F :: 0x3F :: x.query := by
    simp only [List.mem_cons, not_or, query_eq]
    exact ⟨by decide, by decide, Form.notMem_write x.pairs⟩
  have hslash : utf8 "/" = [0x2F] := by decide
  have hroot : (0x3F : UInt8) ∉ [0x2F] := by decide
  obtain ⟨hpath, hquery⟩ := Target.parts_path_query hroot x.query
  obtain ⟨hp, hq⟩ := Target.read_eq_ok ht
  rw [Target.withoutFragment_eq hfragment] at hp hq
  refine ⟨rfl, a, t, rfl, ha, ?_, ?_⟩
  · rw [Target.shownPath, hp.trans hpath, hslash]
    rfl
  · rw [hq.trans hquery, Option.map_some, query_eq, Form.read_write x.wellFormed_pairs]

/-- A signature sorts the pairs that it finds and leaves the rest. -/
theorem Carries.signed {host : String} {pairs : List Form.Pair} {m : Mandate} {taken prepared : SigningRequest}
    {text : Bytes} (hr : Carries host pairs r) (h : m.Signed r taken prepared text q) (hm : m.placement = .header)
    (hpairs : pairs ≠ []) (hnone : ([], []) ∉ pairs) : Carries host (Canonical.sortPairs pairs) q := by
  obtain ⟨hmethod, a, t, huri, ha, hpath, hquery⟩ := hr
  have htaken : taken.path = utf8 "/" ∧ taken.query = pairs := by
    have htaken := h.taken_eq
    rw [SigningRequest.ofRequest?, huri] at htaken
    rw [← Option.some.inj htaken]
    exact ⟨hpath, by rw [hquery, Option.getD_some]⟩
  have hkept : m.keptPairs taken prepared = Canonical.sortPairs pairs := by
    rw [Mandate.keptPairs, Mandate.signedPairs_header hm, htaken.2, List.filter_eq_self]
    intro p hp
    refine decide_eq_true ?_
    rintro rfl
    exact hnone ((Canonical.sortPairs_perm pairs).subset hp)
  have hprepared : prepared.path = utf8 "/" := (Mandate.prepare_rest h.prepared_eq).2.2.2.trans htaken.1
  obtain ⟨v, t', -, rfl⟩ := h.sent_full hm huri
  obtain ⟨v', -, hback⟩ := h.sent_header hm
  -- what a reader of the sent request finds
  simp only [SigningRequest.ofRequest?, Option.some.injEq, SigningRequest.mk.injEq] at hback
  obtain ⟨-, -, -, hpath', hquery', -⟩ := hback
  refine ⟨hmethod, a, t', rfl, ha, hpath'.trans hprepared, ?_⟩
  rw [hkept] at hquery'
  cases hq : t'.query with
  | some query => rw [← hquery', hq, Option.map_some, Option.getD_some]
  | none =>
    rw [hq] at hquery'
    exact absurd (hquery' ▸ Canonical.sortPairs_perm pairs).symm.eq_nil hpairs

/-- The parameters of an exchange arrive as they are, in the order in which they were given or, when the request is
signed, in that of their encoded forms. They have no say in where the request goes. -/
theorem parameters_arrive {x : Exchange} {w : World} (hx : x.IsAsked w.now) (he : x.endpoint.IsChosen)
    (before : List Call) :
    (x.run.run w before).2 = before ++ (x.request w.now).toOption.toList.flatMap w.noted ∧
    (∃ given, x.HasParameters w.now given ∧ x.pairs = given.map fun p => (utf8 p.1, utf8 p.2)) ∧
    (x.pairs.map Prod.fst).Nodup ∧
    ∀ q, x.request w.now = .ok q →
      Carries x.endpoint.host (if x.signer.isSome then Canonical.sortPairs x.pairs else x.pairs) q := by
  obtain ⟨hnodup, hnames⟩ := hx.nodup
  refine ⟨x.calls_run w before, hx.exists_parameters, hnodup, fun q hq => ?_⟩
  cases hsigner : x.signer with
  | none => exact carries_unsigned he.endsAuthority (request_unsigned hsigner hq)
  | some c =>
    obtain ⟨r, taken, prepared, text, hr, hsigned⟩ := request_signed hsigner hq
    refine (carries_unsigned he.endsAuthority hr).signed hsigned rfl ?_ ?_
    · exact List.cons_ne_nil _ _
    · exact fun hnone => hnames (List.mem_map_of_mem hnone)

/-- A role whose texts are full of what a query and a URI are split at. -/
def oddRole : Role := ⟨"a&Action=b", some "x+y z%26", some "", some 900⟩

/-- A web identity of the same kind. -/
def oddIdentity : Exchange := Source.WebIdentity.exchange (.global false) "a#b" "x y" "t=&é"

theorem parameters_arrive_oddTexts :
    let w : World := { now := ⟨0, 0⟩, http := some fun _ _ _ => .ok ⟨.ok, []⟩ }
    let x := oddRole.exchange (.regional "eu-west-1") ⟨"AKID", "secret", none, none⟩ w.now
    let arrived := [(utf8 "Action", utf8 "AssumeRole"), (utf8 "DurationSeconds", utf8 "900"),
      (utf8 "ExternalId", utf8 ""), (utf8 "RoleArn", utf8 "a&Action=b"), (utf8 "RoleSessionName", utf8 "x+y z%26"),
      (utf8 "Version", utf8 "2011-06-15")]
    let identified := [(utf8 "Action", utf8 "AssumeRoleWithWebIdentity"), (utf8 "Version", utf8 "2011-06-15"),
      (utf8 "RoleArn", utf8 "a#b"), (utf8 "RoleSessionName", utf8 "x y"), (utf8 "WebIdentityToken", utf8 "t=&é")]
    (∃ q, (x.run.run w []).2 = [.http q []] ∧ Carries "sts.eu-west-1.amazonaws.com" arrived q) ∧
      ∃ q, (oddIdentity.run.run w []).2 = [.http q []] ∧ Carries "sts.amazonaws.com" identified q := by
  intro w x arrived identified
  constructor
  · have hregion : Region.WellFormed "eu-west-1" := Region.isValid_iff.1 (by decide +kernel)
    have hchosen : x.endpoint.IsChosen := ⟨some "eu-west-1", true, by simpa using hregion, rfl⟩
    have hsorted : Canonical.sortPairs x.pairs = arrived :=
      Canonical.sortPairs_eq (by decide +kernel) (by decide +kernel)
    obtain ⟨q, hq⟩ : ∃ q, x.request w.now = .ok q := exists_request rfl (by decide +kernel)
    obtain ⟨hcalls, -, -, hcarries⟩ := parameters_arrive (w := w) (.role oddRole _ _) hchosen []
    refine ⟨q, ?_, hsorted ▸ hcarries q hq⟩
    rw [hcalls, hq]
    rfl
  · have hchosen : oddIdentity.endpoint.IsChosen := ⟨none, false, by simp, rfl⟩
    obtain ⟨q, hunsigned⟩ : ∃ q, oddIdentity.unsigned? = some q := Option.isSome_iff_exists.1 (by decide +kernel)
    have hq : oddIdentity.request w.now = .ok q := by
      rw [request, hunsigned]
      rfl
    have hasked : oddIdentity.IsAsked w.now := .webIdentity _ _ _ _
    obtain ⟨hcalls, -, -, hcarries⟩ := parameters_arrive hasked hchosen []
    refine ⟨q, ?_, hcarries q hq⟩
    rw [hcalls, hq]
    rfl

end Exchange

end SigV4.Sts
