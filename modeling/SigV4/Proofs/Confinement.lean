import SigV4.Proofs.Calls
import SigV4.Proofs.Hosts
import SigV4.Proofs.Precedence
/-!
# Exchanges stay with their host

While a signer is made, credentials and tokens are handed to the token service only, at a host that is
settled by the signer's region and by whether a regional host is wanted. Neither the region of a profile or of
the environment nor an answer from outside has a say in it.
-/

namespace SigV4

open Resolve

/-! ## What is wanted -/

/-- The environment names a web identity, and the caller names no profile that would come before it. -/
def HasWebIdentity (c : Config) (w : World) : Prop :=
  c.profile = none ∧ (w.filled? Variable.roleArn).isSome ∧ (w.filled? Variable.webIdentityTokenFile).isSome

/-- Whether the regional host is wanted. The environment tells that for its own web identity; otherwise the
profile in question does, and the environment where the profile is silent. -/
inductive Wish (c : Config) (w : World) (before : List Call) : Bool → Prop where
  | environment (h : HasWebIdentity c w) :
      Wish c w before ((w.filled? Variable.regionalEndpoints).any Sts.isRegional)
  | profile {f : SharedFiles} {after : List Call} {p : Profile} (h : ¬ HasWebIdentity c w)
      (loaded : (Source.Profile.loadFiles (Source.Default.profileSettings c)).run w before = (.ok f, after))
      (found : f.profile? ((Source.Default.profileSettings c).profileName w) = some p) :
      Wish c w before ((p.get "sts_regional_endpoints" <|> w.lookup Variable.regionalEndpoints).any Sts.isRegional)

theorem Wish.unique {c : Config} {w : World} {before : List Call} {regional regional' : Bool}
    (h : Wish c w before regional) (h' : Wish c w before regional') : regional = regional' := by
  cases h with
  | environment h => cases h' with
    | environment => rfl
    | profile h' => exact absurd h h'
  | profile h loaded found => cases h' with
    | environment h' => exact absurd h' h
    | profile _ loaded' found' =>
      rw [loaded] at loaded'
      cases loaded'
      rw [found] at found'
      cases found'
      rfl

/-! ## Calls -/

/-- A plain call, or an exchange with a host of the configured region. -/
inductive Call.IsConfined (c : Config) (w : World) (before : List Call) : Call → Prop where
  | plain {call : Call} (h : call.IsPlain) : IsConfined c w before call
  | exchange {q : Http.Request} {region host home : String} {regional : Bool} (asked : Sts.IsExchange q)
      (configured : c.region = some region) (wellFormed : Region.WellFormed region) (wish : Wish c w before regional)
      (settled : Sts.Host region regional host home) (sent : Sts.SentTo host home q) :
      IsConfined c w before (.http q [])

section
variable {c : Config} {w : World} {before : List Call} {call : Call}

theorem Call.IsPlain.not_isExchange {q : Http.Request} {body : Bytes} (h : (Call.http q body).IsPlain) :
    ¬ Sts.IsExchange q := by
  rintro ⟨x, now, hq⟩
  have hform : q.header.contains .contentType = false := h
  rw [Sts.Exchange.contains_contentType hq] at hform
  cases hform

/-- An exchange at the endpoint that is chosen for the region and the wish. -/
theorem Call.Within.isConfined {region : String} {regional : Bool} (hc : c.region = some region)
    (hr : Region.WellFormed region) (hw : Wish c w before regional)
    (h : call.Within (Sts.Endpoint.choose (some region) regional)) : call.IsConfined c w before := by
  cases h with
  | plain h => exact .plain h
  | exchange there sent =>
    obtain ⟨e, he, hhost⟩ := Sts.Endpoint.choose_eq_ok hr regional
    rw [he] at there
    obtain rfl := Except.ok.inj there
    have hsent := Sts.Exchange.sentTo sent (hhost.endsAuthority hr) (hhost.home_valid hr)
    exact .exchange ⟨_, _, sent⟩ hc hr hw hhost hsent

/-- Two exchanges of one run are with the same server. -/
theorem Call.IsConfined.authority_eq {q q' : Http.Request} {body body' : Bytes}
    (h : (Call.http q body).IsConfined c w before) (h' : (Call.http q' body').IsConfined c w before)
    (hform : ¬ (Call.http q body).IsPlain) (hform' : ¬ (Call.http q' body').IsPlain) :
    q.uri.authority? = q'.uri.authority? := by
  cases h with
  | plain h => exact absurd h hform
  | exchange _ hc _ hwish hhost hsent =>
    cases h' with
    | plain h' => exact absurd h' hform'
    | exchange _ hc' _ hwish' hhost' hsent' =>
      rw [hc] at hc'
      obtain rfl := Option.some.inj hc'
      obtain rfl := hwish.unique hwish'
      obtain ⟨rfl, -⟩ := hhost.unique hhost'
      obtain ⟨a, t, huri, ha⟩ := hsent.uri
      obtain ⟨a', t', huri', ha'⟩ := hsent'.uri
      obtain ⟨bytes, valid⟩ := a
      obtain ⟨bytes', valid'⟩ := a'
      obtain rfl : bytes = bytes' := ha.trans ha'.symm
      rw [huri, huri']
      rfl

end

/-! ## Sources -/

namespace Source

variable {c : Config} {w : World} {before : List Call} {region : String}

theorem makes_profile_confined (hc : c.region = some region) (hr : Region.WellFormed region)
    (hw : ¬ HasWebIdentity c w) :
    (profile (Default.profileSettings c)).Makes (Call.IsConfined c w before) w before := by
  refine makes_profile (fun _ => .plain) fun f after p hf hp => ?_
  have hregion : ((Default.profileSettings c).exchanges p w).region = some region := by
    unfold Profile.Settings.exchanges Default.profileSettings
    rw [hc]
    rfl
  refine (Profile.makes_resolve _ f p (by rw [hregion]; rfl)).mono fun call hcall => ?_
  rw [hregion] at hcall
  exact hcall.isConfined hc hr (.profile hw hf hp)

theorem makes_platform_confined {after : List Call} :
    (firstOf (Default.platform c)).Makes (Call.IsConfined c w before) w after :=
  (makes_platform c).mono fun _ => .plain

theorem makes_webIdentity_confined (hc : c.region = some region) (hr : Region.WellFormed region)
    (hw : HasWebIdentity c w) :
    (webIdentity { region := c.region }).Makes (Call.IsConfined c w before) w before := by
  obtain ⟨roleArn, hrole⟩ := Option.isSome_iff_exists.1 hw.2.1
  obtain ⟨tokenFile, htoken⟩ := Option.isSome_iff_exists.1 hw.2.2
  have hrun : (webIdentity { region := c.region }).run w before =
      (some <$> WebIdentity.assume { region := c.region } roleArn tokenFile : Source).run w before :=
    webIdentity_run hrole htoken
  unfold Makes
  rw [hrun]
  refine Makes.map ((WebIdentity.makes_assume _ roleArn tokenFile).mono fun call hcall => ?_) some
  rw [WebIdentity.Settings.endpoint, hc] at hcall
  exact hcall.isConfined hc hr (.environment hw)

theorem makes_default_confined (hc : c.region = some region) (hr : Region.WellFormed region) :
    (default (.ofConfig c)).Makes (Call.IsConfined c w before) w before := by
  cases hname : c.profile with
  | some name =>
    have hw : ¬ HasWebIdentity c w := fun hw => by rw [hw.1] at hname; cases hname
    rw [default_named hname]
    exact makes_firstOf_cons (makes_profile_confined hc hr hw) fun _ _ => makes_platform_confined
  | none =>
    rw [default_unnamed hname]
    refine makes_firstOf_cons (makes_of_silent environment_silent) fun after henvironment => ?_
    obtain rfl : before = after := by
      have h : (environment.run w before).2 = before := environment_silent
      rw [henvironment] at h
      exact h.symm
    by_cases hw : HasWebIdentity c w
    · refine makes_firstOf_cons (makes_webIdentity_confined hc hr hw) fun after hnone => ?_
      exact absurd hnone (webIdentity_ne_none hw.2.1 hw.2.2)
    · have hnone : (webIdentity { region := c.region }).run w before = (.ok none, before) := by
        refine webIdentity_none ?_
        by_contra hboth
        rw [not_or] at hboth
        exact hw ⟨hname, Option.isSome_iff_ne_none.2 hboth.1, Option.isSome_iff_ne_none.2 hboth.2⟩
      refine makes_firstOf_cons (makes_of_silent (by rw [hnone])) fun after hafter => ?_
      rw [hnone] at hafter
      cases hafter
      exact makes_firstOf_cons (makes_profile_confined hc hr hw) fun _ _ => makes_platform_confined

end Source

/-! ## Signers -/

namespace Signer

variable {c : Config} {w : World} {before : List Call}

theorem makes_create {P : Call → Prop} {source : Source} {region : String}
    (h : Region.WellFormed region → source.Makes P w before) : (create source region).Makes P w before := by
  by_cases hr : Region.WellFormed region
  · obtain ⟨made, hrun, hmade⟩ := h hr
    refine ⟨made, ?_, hmade⟩
    rw [create_run (Region.isValid_iff.2 hr), ← hrun]
    rcases source.run w before with ⟨e | _ | credential, after⟩ <;> rfl
  · refine makes_of_silent ?_
    rw [create_of_invalid hr]

theorem makes_ofConfig_confined : (ofConfig c).Makes (Call.IsConfined c w before) w before := by
  cases hc : c.region with
  | none =>
    refine makes_of_silent ?_
    rw [ofConfig_noRegion hc]
  | some region =>
    unfold Makes
    rw [ofConfig_run hc]
    exact makes_create fun hr => Source.makes_default_confined hc hr

/-- What is called in a run: files, programs and plain requests, and hosts of the configured region, all on one
server. -/
def ExchangesAtHome (c : Config) (w : World) (before : List Call) (x : Resolve Signer) : Prop :=
  ∃ made, (x.run w before).2 = before ++ made ∧ (∀ call ∈ made, call.IsConfined c w before) ∧
    ∀ q body q' body', .http q body ∈ made → .http q' body' ∈ made →
      ¬ (Call.http q body).IsPlain → ¬ (Call.http q' body').IsPlain → q.uri.authority? = q'.uri.authority?

theorem exchangesAtHome_of_makes {x : Resolve Signer} (h : x.Makes (Call.IsConfined c w before) w before) :
    ExchangesAtHome c w before x := by
  obtain ⟨made, hrun, hmade⟩ := h
  refine ⟨made, hrun, hmade, ?_⟩
  intro q body q' body' hq hq' hform hform'
  exact (hmade _ hq).authority_eq (hmade _ hq') hform hform'

/-- Whatever the files, the environment and the answers hold, credentials are only ever exchanged with the
token service at a host of the configured region, and signatures on the way there are for that host. -/
theorem exchanges_at_home (w : World) (before : List Call) :
    (∀ c, ExchangesAtHome c w before (ofConfig c)) ∧
    ∀ region profile, ExchangesAtHome { region := some region, profile } w before (ofRegion region profile) := by
  refine ⟨fun c => exchangesAtHome_of_makes makes_ofConfig_confined, fun region profile => ?_⟩
  apply exchangesAtHome_of_makes
  exact makes_create fun hr => Source.makes_default_confined rfl hr

/-- A web identity and a region in the environment, which is not the one that is asked for. -/
def elsewhere : Script where
  environment := [(Variable.roleArn, "arn"), (Variable.webIdentityTokenFile, "/token"),
    (Variable.regionalEndpoints, "regional"), (Variable.region, "eu-west-1")]
  files := some [("/token", .ok (utf8 "token"))]
  routes := some []

theorem exchanges_at_home_elsewhere : ∃ q,
    Call.http q [] ∈ ((ofRegion "cn-north-1" none).run (elsewhere.world ⟨0, 0⟩) []).2 ∧ Sts.IsExchange q ∧
      Sts.SentTo "sts.cn-north-1.amazonaws.com.cn" "cn-north-1" q := by
  let x : Sts.Exchange := Source.WebIdentity.exchange ⟨"sts.cn-north-1.amazonaws.com.cn", "cn-north-1"⟩ "arn"
    "apisign-session-0" "token"
  obtain ⟨q, hq⟩ : ∃ q, x.unsigned? = some q := Option.isSome_iff_exists.1 (by decide +kernel)
  have hcalls : ((ofRegion "cn-north-1" none).run (elsewhere.world ⟨0, 0⟩) []).2 =
      .file "/token" :: x.unsigned?.toList.map (Call.http · []) := by
    decide +kernel
  rw [hq] at hcalls
  have hexchange : Sts.IsExchange q := by
    refine ⟨x, ⟨0, 0⟩, ?_⟩
    rw [Sts.Exchange.request, hq]
    rfl
  obtain ⟨made, hrun, hconfined, -⟩ := (exchanges_at_home (elsewhere.world ⟨0, 0⟩) []).2 "cn-north-1" none
  have hmem : Call.http q [] ∈ made := by
    rw [hrun] at hcalls
    rw [← List.nil_append made, hcalls]
    simp
  cases hconfined _ hmem with
  | plain h => exact absurd hexchange h.not_isExchange
  | @exchange _ region host home regional _ hregion _ hwish hhost hsent =>
    obtain rfl := Option.some.inj hregion
    obtain rfl : true = regional := Wish.unique (.environment ⟨rfl, rfl, rfl⟩) hwish
    obtain ⟨rfl, rfl⟩ := Sts.Host.unique (.regionalChina (by decide)) hhost
    exact ⟨q, by rw [hcalls]; simp, hexchange, hsent⟩

end Signer

end SigV4
