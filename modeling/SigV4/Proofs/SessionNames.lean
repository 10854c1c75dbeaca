import SigV4.Proofs.Confinement
import SigV4.Proofs.Parameters
/-!
# Names of sessions

Whoever takes on a role names the session, and that name is kept in the records. For the roles of a
named profile it is up to the profile that has the role, or else the name tells the time. A web identity
without a name of its own asks the environment first.
-/

namespace SigV4

open Resolve

/-! ## Roles and the profiles that have them -/

namespace Profile

/-- The name of the session as the profile has it, or else the time. -/
def sessionName (p : Profile) (now : Time) : String := (p.get "role_session_name").getD (Sts.sessionName now)

/-- The role is the one that the profile has. -/
structure GivesRole (p : Profile) (r : Role) : Prop where
  arn : p.get "role_arn" = some r.arn
  session : p.get "role_session_name" = r.sessionName

/-- The profile has this role for the web identity in this file. -/
structure GivesIdentity (p : Profile) (arn file : String) (session : Option String) : Prop where
  arn : p.get "role_arn" = some arn
  file : p.get "web_identity_token_file" = some file
  session : p.get "role_session_name" = session

/-- The role that a step takes on. -/
def Step.role? : Step → Option Role
  | .role r _ => some r
  | .link r _ => some r
  | _ => none

variable {p : Profile} {first : Bool} {s : Step} {arn file : String} {session : Option String} {r : Role}

theorem givesRole_of_role (ha : p.get "role_arn" = some arn) (h : p.role arn = .ok r) : p.GivesRole r := by
  unfold role at h
  cases hd : p.get "duration_seconds" with
  | none =>
    rw [hd] at h
    cases h
    exact ⟨ha, rfl⟩
  | some value =>
    cases hn : duration? value with
    | none => simp only [hd, hn] at h; cases h
    | some n =>
      simp only [hd, hn] at h
      cases h
      exact ⟨ha, rfl⟩

theorem givesRole_of_step (h : p.step first = .ok s) (hr : s.role? = some r) : p.GivesRole r := by
  cases leads_of_step h with
  | keys => cases hr
  | nothing => cases hr
  | process => cases hr
  | token => cases hr
  | role sound role noToken reads source =>
    rcases roleStep_cases source with ⟨place, -, rfl⟩ | ⟨c, -, rfl⟩ | ⟨name, rfl⟩
    all_goals
      cases hr
      exact givesRole_of_role role reads

theorem givesIdentity_of_step (h : p.step first = .ok s) (hb : s.base? = some (.webIdentity arn file session)) :
    p.GivesIdentity arn file session := by
  cases leads_of_step h with
  | keys => cases hb
  | nothing => cases hb
  | process => cases hb
  | token sound role token =>
    cases hb
    exact ⟨role, token, rfl⟩
  | role sound role noToken reads source =>
    rcases roleStep_cases source with ⟨place, -, rfl⟩ | ⟨c, -, rfl⟩ | ⟨name, rfl⟩
    all_goals cases hb

end Profile

namespace Visit

variable {f : SharedFiles} {visited : List String} {roles : List Role} {p : Profile} {plan : Profile.Plan}

/-- All that a walk collects comes from the profiles that it passes. -/
theorem walk_gives {v : Visit} (hv : v.names = visited) (hp : v.profile = p) (hr : roles.isEmpty = v.first)
    (h : f.walk visited roles p = .ok (some plan)) :
    (∀ r ∈ plan.roles, r ∈ roles ∨ ∃ v', Reaches f v v' ∧ v'.profile.GivesRole r) ∧
      ∀ arn file session, plan.base = .webIdentity arn file session →
        ∃ v', Reaches f v v' ∧ v'.profile.GivesIdentity arn file session := by
  fun_induction SharedFiles.walk f visited roles p generalizing v with
  | case1 => cases h
  | case2 => cases h
  | case3 => cases h
  | case4 visited roles p b hs =>
    cases h
    subst hp
    refine ⟨fun r hm => .inl hm, fun arn file session hb => ⟨v, .refl, ?_⟩⟩
    exact Profile.givesIdentity_of_step hs (congrArg some hb)
  | case5 visited roles p r b hs =>
    cases h
    subst hp
    refine ⟨fun r' hm => ?_, fun arn file session hb => ⟨v, .refl, ?_⟩⟩
    · rcases List.mem_cons.1 hm with rfl | hm
      · exact .inr ⟨v, .refl, Profile.givesRole_of_step hs rfl⟩
      · exact .inl hm
    · exact Profile.givesIdentity_of_step hs (congrArg some hb)
  | case6 => cases h
  | case7 visited roles p r source hs new q found ih =>
    subst hp hv
    have hfollows : Follows f v ⟨v.names, q⟩ := .link (hr ▸ hs) new found
    have hnames : (⟨v.names, q⟩ : Visit).names = v.names ++ [source] := by
      rw [names, SharedFiles.name_of_profile? found]
    have hfirst : (r :: roles).isEmpty = (⟨v.names, q⟩ : Visit).first := by simp [first, names]
    obtain ⟨hroles, hbase⟩ := ih hnames rfl hfirst h
    constructor
    · intro r' hm
      rcases hroles r' hm with hm | ⟨v', hreach, hgives⟩
      · rcases List.mem_cons.1 hm with rfl | hm
        · exact .inr ⟨v, .refl, Profile.givesRole_of_step hs rfl⟩
        · exact .inl hm
      · exact .inr ⟨v', .head hfollows hreach, hgives⟩
    · intro arn file session hb
      obtain ⟨v', hreach, hgives⟩ := hbase arn file session hb
      exact ⟨v', .head hfollows hreach, hgives⟩
  | case8 => cases h

theorem plan_gives (h : f.plan p = .ok (some plan)) :
    (∀ r ∈ plan.roles, ∃ v, Reaches f (.start p) v ∧ v.profile.GivesRole r) ∧
      ∀ arn file session, plan.base = .webIdentity arn file session →
        ∃ v, Reaches f (.start p) v ∧ v.profile.GivesIdentity arn file session := by
  obtain ⟨hroles, hbase⟩ := walk_gives (v := .start p) rfl rfl rfl h
  exact ⟨fun r hm => (hroles r hm).resolve_left List.not_mem_nil, hbase⟩

end Visit

/-! ## Requests that name a session -/

/-- What is asked for arrives in the query, in some order. -/
theorem Sts.Exchange.IsAsked.exists_carries {x : Sts.Exchange} {now : Time} {q : Http.Request} (hx : x.IsAsked now)
    (hhost : ∀ b ∈ utf8 x.endpoint.host, Http.Uri.endsAuthority b = false) (hq : x.request now = .ok q) :
    ∃ pairs, Carries x.endpoint.host pairs q ∧ pairs.Perm x.pairs := by
  cases hsigner : x.signer with
  | none => exact ⟨x.pairs, carries_unsigned hhost (request_unsigned hsigner hq), .refl _⟩
  | some c =>
    obtain ⟨r, taken, prepared, text, hr, hsigned⟩ := request_signed hsigner hq
    have hnone : ([], []) ∉ x.pairs := fun hm => hx.nodup.2 (List.mem_map_of_mem hm)
    exact ⟨_, (carries_unsigned hhost hr).signed hsigned rfl (List.cons_ne_nil _ _) hnone,
      Canonical.sortPairs_perm x.pairs⟩

namespace Source.Profile

open SigV4.Profile

/-- What is asked for a profile, and under which name: the role of the profile with another credential, or the one for
its web identity. -/
inductive Asks (p : SigV4.Profile) (w : World) : Sts.Exchange → String → Prop where
  | role {r : Role} (gives : p.GivesRole r) (endpoint : Sts.Endpoint) (c : Credential) :
      Asks p w (r.exchange endpoint c w.now) (r.sessionName.getD (Sts.sessionName w.now))
  | webIdentity {s : WebIdentity.Settings} {arn file : String} (gives : p.GivesIdentity arn file s.sessionName)
      (endpoint : Sts.Endpoint) (token : String) :
      Asks p w (WebIdentity.exchange endpoint arn (s.session w) token) (s.session w)

/-- A request for the role of a profile under the name of a session. -/
structure AskedFor (p : SigV4.Profile) (w : World) (x : Sts.Exchange) (session : String) (q : Http.Request) : Prop where
  sent : x.request w.now = .ok q
  role : ∃ arn, p.get "role_arn" = some arn ∧ ("RoleArn", arn) ∈ x.parameters
  name : ("RoleSessionName", session) ∈ x.parameters
  once : (x.parameters.map Prod.fst).Nodup
  /-- Whoever reads the query finds the name, and no other. -/
  arrives : (∀ b ∈ utf8 x.endpoint.host, Http.Uri.endsAuthority b = false) → ∃ pairs,
    Sts.Exchange.Carries x.endpoint.host pairs q ∧ (utf8 "RoleSessionName", utf8 session) ∈ pairs ∧
      (pairs.map Prod.fst).Nodup

/-- The environment does not name the session for a web identity, or names it as it would be named anyway. -/
def EnvironmentIsSilent (w : World) : Prop :=
  w.filled? Variable.roleSessionName = none ∨ w.filled? Variable.roleSessionName = some (Sts.sessionName w.now)

variable {p : SigV4.Profile} {w : World} {x : Sts.Exchange} {session : String} {q : Http.Request}

theorem Asks.isAsked (h : Asks p w x session) : x.IsAsked w.now := by
  cases h with
  | role gives endpoint c => exact .role _ endpoint c
  | webIdentity gives endpoint token => exact .webIdentity endpoint _ _ token

theorem Asks.askedFor (h : Asks p w x session) (hq : x.request w.now = .ok q) : AskedFor p w x session q := by
  have hasked := h.isAsked
  have hnames : ∀ a, (Sts.Exchange.names a).Nodup := by
    intro a
    cases a <;> decide
  have hsession : ("RoleSessionName", session) ∈ x.parameters := by
    cases h <;> simp [Role.exchange, Role.parameters, WebIdentity.exchange]
  refine ⟨hq, ?_, hsession, (hnames x.action).sublist hasked.parameters_sublist, fun hhost => ?_⟩
  · cases h with
    | role gives endpoint c => exact ⟨_, gives.arn, by simp [Role.exchange, Role.parameters]⟩
    | webIdentity gives endpoint token => exact ⟨_, gives.arn, by simp [WebIdentity.exchange]⟩
  · obtain ⟨pairs, hcarries, hperm⟩ := hasked.exists_carries hhost hq
    refine ⟨pairs, hcarries, hperm.symm.subset ?_, (hperm.map Prod.fst).nodup_iff.2 hasked.nodup.1⟩
    exact List.mem_map.2 ⟨_, List.mem_append_right _ hsession, rfl⟩

/-- Only for a web identity without a name of its own the environment has a say. -/
theorem Asks.session_eq_iff (h : Asks p w x session) : session = p.sessionName w.now ↔
    x.action = .assumeRole ∨ p.has "role_session_name" = true ∨ EnvironmentIsSilent w := by
  cases h with
  | role gives endpoint c =>
    rw [SigV4.Profile.sessionName, gives.session]
    exact iff_of_true rfl (.inl rfl)
  | @webIdentity s arn file gives endpoint token =>
    have haction : (WebIdentity.exchange endpoint arn (s.session w) token).action ≠ .assumeRole := nofun
    rw [or_iff_right haction, SigV4.Profile.sessionName, SigV4.Profile.has, gives.session,
      WebIdentity.Settings.session, EnvironmentIsSilent]
    cases s.sessionName with
    | some name => simp
    | none => cases w.filled? Variable.roleSessionName <;> simp

/-! ## Runs -/

variable {s : Settings} {before : List Call}

/-- A request for a profile that is reached from the one in question. -/
def AsksOnTheWay (s : Settings) (w : World) (before : List Call) (q : Http.Request) : Prop :=
  ∃ f loaded p v x session, (loadFiles s).run w before = (.ok f, loaded) ∧ f.profile? (s.profileName w) = some p ∧
    Visit.Reaches f (.start p) v ∧ Asks v.profile w x session ∧ x.request w.now = .ok q

/-- All that is exchanged for a profile is asked for it or for the profiles behind it. -/
theorem makes_profile_asked (s : Settings) (w : World) (before : List Call) :
    (profile s).Makes (fun call => call.IsPlain ∨ ∃ q, call = .http q [] ∧ AsksOnTheWay s w before q) w before := by
  refine makes_profile (fun _ => .inl) fun f loaded p hf hp => ?_
  refine makes_iff_proceeds.2 (proceeds_resolve fun plan hplan => makes_iff_proceeds.1 ?_)
  obtain ⟨hroles, hbase⟩ := Visit.plan_gives hplan
  refine makes_carryOut_of s _ ?_ fun r hr endpoint c calls _ => ?_
  · refine makes_base_of s _ (fun _ => .inl) plan.base fun arn file session hb => ?_
    refine WebIdentity.makes_exchange (fun _ => .inl) _ arn file fun endpoint token q _ hq => ?_
    obtain ⟨v, hreach, hgives⟩ := hbase arn file session hb
    exact .inr ⟨q, rfl, f, loaded, p, v, _, _, hf, hp, hreach, .webIdentity hgives endpoint token, hq⟩
  · refine makes_iff_proceeds.2 (Role.proceeds_assume fun q hq => ?_)
    obtain ⟨v, hreach, hgives⟩ := hroles r hr
    exact .inr ⟨q, rfl, f, loaded, p, v, _, _, hf, hp, hreach, .role hgives endpoint c, hq⟩

/-- What follows a named profile calls nobody but the platform. -/
theorem makes_named_asked {name : String} (hs : s.name = some name) {source : Source}
    (hsource : source = profile s ∨ ∃ c, s = Default.profileSettings c ∧ source = default (.ofConfig c)) :
    source.Makes (fun call => call.IsPlain ∨ ∃ q, call = .http q [] ∧ AsksOnTheWay s w before q) w before := by
  have hprofile := makes_profile_asked s w before
  rcases hsource with rfl | ⟨c, rfl, rfl⟩
  · exact hprofile
  · rw [default_named hs]
    exact makes_firstOf_cons hprofile fun _ _ => (makes_platform c).mono fun _ => .inl

/-- Every request for a named profile that is not plain is for the role of a profile that is reached from it, and its
session has the name that this profile gives it, or tells the time, except where a web identity has no name of its own
and the environment has one. -/
theorem named_sessions {name : String} (hs : s.name = some name) {source : Source}
    (hsource : source = profile s ∨ ∃ c, s = Default.profileSettings c ∧ source = default (.ofConfig c))
    (w : World) (before : List Call) :
    ∃ made, (source.run w before).2 = before ++ made ∧
      ∀ q body, Call.http q body ∈ made → (Call.http q body).IsPlain ∨ ∃ f loaded p v x session,
        (loadFiles s).run w before = (.ok f, loaded) ∧ f.profile? name = some p ∧ Visit.Reaches f (.start p) v ∧
        AskedFor v.profile w x session q ∧
        (session = v.profile.sessionName w.now ↔
          x.action = .assumeRole ∨ v.profile.has "role_session_name" = true ∨ EnvironmentIsSilent w) := by
  obtain ⟨made, hrun, hmade⟩ := makes_named_asked hs hsource
  refine ⟨made, hrun, fun q body hmem => ?_⟩
  rcases hmade _ hmem with hplain | ⟨q', hq', f, loaded, p, v, x, session, hf, hp, hreach, hasks, hrequest⟩
  · exact .inl hplain
  · cases hq'
    rw [Settings.profileName_named hs] at hp
    exact .inr ⟨f, loaded, p, v, x, session, hf, hp, hreach, hasks.askedFor hrequest, hasks.session_eq_iff⟩

/-- A profile with a web identity that has no name of its own, and an environment that names the session. -/
def borrowed : Script where
  environment := [(Variable.roleSessionName, "pod")]
  home := some "/home/me"
  files := some [("/home/me/.aws/config", .ok (utf8 "[profile dev]\nrole_arn = a\nweb_identity_token_file = /token\n")),
    ("/token", .ok (utf8 "t"))]
  routes := some []

/-- The profile as it is read. -/
def borrower : SigV4.Profile :=
  ⟨"dev", [⟨"profile dev", [("role_arn", "a"), ("web_identity_token_file", "/token")]⟩]⟩

/-- What is exchanged for it. -/
def borrowing : Sts.Exchange := WebIdentity.exchange (.global false) "a" "pod" "t"

theorem exists_borrowed_request : ∃ q, borrowing.request ⟨0, 0⟩ = .ok q ∧
    ((profile { name := some "dev" }).run (borrowed.world ⟨0, 0⟩) []).2 =
      [.file "/home/me/.aws/credentials", .file "/home/me/.aws/config", .file "/token", .http q []] ∧
    q.uri.bytes = utf8 ("https://sts.amazonaws.com/?Action=AssumeRoleWithWebIdentity&Version=2011-06-15&RoleArn=a"
      ++ "&RoleSessionName=pod&WebIdentityToken=t") := by
  obtain ⟨q, hq⟩ : ∃ q, borrowing.unsigned? = some q := Option.isSome_iff_exists.1 (by decide +kernel)
  have hcalls : ((profile { name := some "dev" }).run (borrowed.world ⟨0, 0⟩) []).2 =
      [.file "/home/me/.aws/credentials", .file "/home/me/.aws/config", .file "/token"] ++
        borrowing.unsigned?.toList.map (Call.http · []) := by
    decide +kernel
  have huri : borrowing.unsigned?.map (·.uri.bytes) = some (utf8
      ("https://sts.amazonaws.com/?Action=AssumeRoleWithWebIdentity&Version=2011-06-15&RoleArn=a"
        ++ "&RoleSessionName=pod&WebIdentityToken=t")) := by
    decide +kernel
  rw [hq] at hcalls huri
  refine ⟨q, ?_, hcalls, Option.some.inj huri⟩
  rw [Sts.Exchange.request, hq]
  rfl

theorem named_sessions_borrowed : ∃ (q : Http.Request) (v : Visit) (x : Sts.Exchange) (session : String),
    Call.http q [] ∈ ((profile { name := some "dev" }).run (borrowed.world ⟨0, 0⟩) []).2 ∧ Sts.IsExchange q ∧
      AskedFor v.profile (borrowed.world ⟨0, 0⟩) x session q := by
  obtain ⟨q, hq, hcalls, -⟩ := exists_borrowed_request
  have hexchange : Sts.IsExchange q := ⟨borrowing, ⟨0, 0⟩, hq⟩
  have hmem : Call.http q [] ∈ ((profile { name := some "dev" }).run (borrowed.world ⟨0, 0⟩) []).2 := by
    rw [hcalls]
    simp
  have hs : ({ name := some "dev" } : Settings).name = some "dev" := rfl
  obtain ⟨made, hrun, hmade⟩ := named_sessions hs (.inl rfl) (borrowed.world ⟨0, 0⟩) []
  have hmem' := hmem
  rw [hrun, List.nil_append] at hmem'
  rcases hmade q [] hmem' with hplain | ⟨f, loaded, p, v, x, session, -, -, -, hasked, -⟩
  · exact absurd hexchange hplain.not_isExchange
  · exact ⟨q, v, x, session, hmem, hexchange, hasked⟩

/-- The profile names no session, and the one that the environment names is asked for. -/
theorem session_from_environment : ∃ (f : SharedFiles) (loaded : List Call) (q : Http.Request),
    (loadFiles { name := some "dev" }).run (borrowed.world ⟨0, 0⟩) [] = (.ok f, loaded) ∧
      f.profile? "dev" = some borrower ∧ borrower.get "role_arn" = some "a" ∧
      borrower.get "role_session_name" = none ∧ borrower.sessionName ⟨0, 0⟩ = "apisign-session-0" ∧
      Sts.IsExchange q ∧
      Call.http q [] ∈ ((profile { name := some "dev" }).run (borrowed.world ⟨0, 0⟩) []).2 ∧
      q.uri.bytes = utf8 ("https://sts.amazonaws.com/?Action=AssumeRoleWithWebIdentity&Version=2011-06-15&RoleArn=a"
        ++ "&RoleSessionName=pod&WebIdentityToken=t") := by
  have hread : (loadFiles { name := some "dev" }).run (borrowed.world ⟨0, 0⟩) [] =
      (.ok ⟨[], borrower.sections⟩, [.file "/home/me/.aws/credentials", .file "/home/me/.aws/config"]) :=
    run_eq_ok (by decide +kernel)
  have hfound : SharedFiles.profile? ⟨[], borrower.sections⟩ "dev" = some borrower := by decide
  have harn : borrower.get "role_arn" = some "a" := by decide
  have hsession : borrower.get "role_session_name" = none := by decide
  have hdefault : borrower.sessionName ⟨0, 0⟩ = "apisign-session-0" := by
    rw [SigV4.Profile.sessionName, hsession]
    rfl
  obtain ⟨q, hq, hcalls, huri⟩ := exists_borrowed_request
  refine ⟨_, _, q, hread, hfound, harn, hsession, hdefault, ⟨borrowing, ⟨0, 0⟩, hq⟩, ?_, huri⟩
  rw [hcalls]
  simp

end Source.Profile

end SigV4
