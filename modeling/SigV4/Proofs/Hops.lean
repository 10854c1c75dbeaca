import SigV4.Proofs.Calls
import SigV4.Proofs.Origins
import SigV4.Proofs.Success
/-!
# What a role is taken on with

The first role of a plan is taken on with the base credential, and each other one with the credential of the role
before it. A request to the token service is signed with that credential and no other, so what signs has both keys
as long as nobody who is believed answers without them.
-/

namespace SigV4

open Resolve

variable {w : World} {before : List Call}

/-! ## Exchanges -/

namespace Sts

/-- A request that proves its right with a token and is not signed. -/
def IsUnsigned (q : Http.Request) : Prop := ∃ (x : Exchange) (now : Time),
  x.action = .assumeRoleWithWebIdentity ∧ x.signer = none ∧ x.request now = .ok q

theorem IsUnsigned.noAuthorization {q : Http.Request} (h : IsUnsigned q) :
    q.header.contains .authorization = false := by
  obtain ⟨x, now, -, hsigner, hq⟩ := h
  obtain ⟨uri, -, rfl⟩ := Exchange.unsigned_eq (Exchange.request_unsigned hsigner hq)
  rfl

theorem Exchange.run_sent {x : Exchange} {q : Http.Request}
    {answer : List Call → Http.Request → Bytes → Except Error Http.Response} (hq : x.request w.now = .ok q)
    (hw : w.http = some answer) :
    x.run.run w before = (((answer before q []).mapError x.unreachable).bind x.accept, before ++ [.http q []]) := by
  unfold run send
  simp only [run_bind, run_now, run_lift, hq, run_mapError, run_read, hw, run_ask]
  cases answer before q [] <;> rfl

theorem Exchange.contains_authorization {x : Exchange} {c : Credential} {now : Time} {q : Http.Request}
    (hc : x.signer = some c) (h : x.request now = .ok q) : q.header.contains .authorization = true := by
  obtain ⟨r, taken, prepared, text, -, hsigned⟩ := request_signed hc h
  obtain ⟨v, -, hback⟩ := hsigned.sent_header rfl
  rw [Http.Header.contains_iff, ← SigningRequest.header_of_ofRequest? hback, Http.Header.values_set, if_pos rfl]
  exact List.cons_ne_nil _ _

theorem Exchange.exists_request {x : Exchange} {c : Credential} {now : Time} (hc : x.signer = some c)
    (h : x.unsigned?.any (x.mandate c now).isReady = true) : ∃ q, x.request now = .ok q := by
  cases hr : x.unsigned? with
  | none => simp [hr] at h
  | some r =>
    rw [hr, Option.any_some] at h
    unfold request
    simp only [hr, hc, Mandate.sign_of_isReady h]
    exact ⟨_, rfl⟩

/-- An exchange is one request, if it can be put together and there is someone to send it. -/
theorem Exchange.calls_run (x : Exchange) (w : World) (before : List Call) :
    (x.run.run w before).2 = before ++ (x.request w.now).toOption.toList.flatMap w.noted := by
  unfold run
  cases hq : x.request w.now with
  | error e => simp [run_bind, hq, Except.toOption]
  | ok q =>
    cases hr : w.reply? before q with
    | none =>
      obtain ⟨e, hsend⟩ := run_send_of_no_reply hr
      simp [run_bind, hq, hsend, Except.mapError, Except.toOption]
    | some r =>
      simp [run_bind, hq, run_send_of_reply hr, Except.mapError, Except.toOption, World.noted_of_reply hr]

/-- An exchange is one request if anything. -/
theorem Exchange.proceeds_run {P : List Call → Call → Prop} {x : Exchange}
    (h : ∀ q, x.request w.now = .ok q → P before (.http q [])) : x.run.Proceeds P w before := by
  refine ⟨_, calls_run x w before, ?_⟩
  intro front call rest hsplit
  cases hq : x.request w.now with
  | error e =>
    rw [hq] at hsplit
    cases front <;> cases hsplit
  | ok q =>
    have hone : (x.request w.now).toOption.toList.flatMap w.noted = w.noted q := by simp [hq, Except.toOption]
    obtain ⟨rfl, rfl⟩ : front = [] ∧ call = .http q [] := by
      rw [hone, World.noted] at hsplit
      split at hsplit
      · cases front <;> simp_all
      · cases front <;> cases hsplit
    rw [List.append_nil]
    exact h q hq

end Sts

theorem Role.run_assume (r : Role) (endpoint : Sts.Endpoint) (c : Credential) : (r.assume endpoint c).run w before =
    ((r.exchange endpoint c w.now).run.mapError (·.during s!"role_arn: {r.arn}")).run w before := by
  unfold assume
  rw [run_bind, run_now]

theorem Role.proceeds_assume {P : List Call → Call → Prop} {r : Role} {endpoint : Sts.Endpoint} {c : Credential}
    (h : ∀ q, (r.exchange endpoint c w.now).request w.now = .ok q → P before (.http q [])) :
    (r.assume endpoint c).Proceeds P w before := by
  unfold Proceeds
  rw [run_assume]
  exact (Sts.Exchange.proceeds_run h).mapError _

namespace Source.Profile

open SigV4.Profile

variable {s : Settings} {x : Exchanges} {b : Base} {roles : List Role} {plan : Plan} {c : Credential}
  {start after calls : List Call}

/-! ## Hops -/

/-- The request that takes on a role of a plan, signed with the credential that the roles before it lead to. -/
def Hop (s : Settings) (x : Exchanges) (plan : Plan) (w : World) (start calls : List Call) (c : Credential)
    (q : Http.Request) : Prop :=
  ∃ front r rest endpoint, plan.roles = front ++ r :: rest ∧
    (carryOut s x ⟨plan.base, front⟩).run w start = (.ok c, calls) ∧
    Sts.Endpoint.choose x.region x.regional = .ok endpoint ∧ (Role.exchange r endpoint c w.now).request w.now = .ok q

/-- Where an endpoint can be chosen the roles are taken on at it. -/
theorem carryOut_chosen {endpoint : Sts.Endpoint} (h : Sts.Endpoint.choose x.region x.regional = .ok endpoint) :
    carryOut s x ⟨b, roles⟩ = base s x b >>= fun c => roles.foldlM (fun c r => r.assume endpoint c) c := by
  unfold carryOut
  rw [h]
  refine bind_congr fun c => ?_
  cases roles with
  | nil => rfl
  | cons r roles => exact pure_bind endpoint _

/-- More roles are taken on with the credential so far. -/
theorem carryOut_append {endpoint : Sts.Endpoint} (h : Sts.Endpoint.choose x.region x.regional = .ok endpoint)
    (rest : List Role) : carryOut s x ⟨b, roles ++ rest⟩ =
      carryOut s x ⟨b, roles⟩ >>= fun c => rest.foldlM (fun c r => r.assume endpoint c) c := by
  rw [carryOut_chosen h, carryOut_chosen h, bind_assoc]
  simp only [List.foldlM_append]

/-- What a plan comes to is told to it by whoever answers last, or has been looked at. -/
theorem carryOut_grounded (hb : ∀ k, b = .keys k → k.hasKeys = true)
    (h : (carryOut s x ⟨b, roles⟩).run w start = (.ok c, after)) : c.IsGrounded w s.metadata after := by
  obtain ⟨first, between, hbase, hroles⟩ := run_bind_eq_ok.1 h
  rcases List.eq_nil_or_concat' roles with rfl | ⟨front, r, rfl⟩
  · cases hroles
    exact base_grounded hb hbase
  · -- the last role decides
    have hsome : (front ++ [r]).isEmpty = false := by simp
    simp only [hsome, Bool.false_eq_true, if_false, run_bind_eq_ok, List.foldlM_append, List.foldlM_cons,
      List.foldlM_nil, bind_pure] at hroles
    obtain ⟨endpoint, _, -, c', _, -, hassume⟩ := hroles
    exact fun _ => Role.tells_assume hassume

theorem Hop.grounded {q : Http.Request} (hb : ∀ k, plan.base = .keys k → k.hasKeys = true)
    (h : Hop s x plan w start calls c q) : c.IsGrounded w s.metadata calls := by
  obtain ⟨front, r, rest, endpoint, -, hled, -⟩ := h
  exact carryOut_grounded hb hled

/-- A hop is sent when the roles before it have been taken on. -/
theorem Hop.sent {q : Http.Request} {answer : List Call → Http.Request → Bytes → Except Error Http.Response}
    (h : Hop s x plan w start calls c q) (hw : w.http = some answer) :
    ∃ more, ((carryOut s x plan).run w start).2 = calls ++ .http q [] :: more := by
  obtain ⟨b, roles⟩ := plan
  obtain ⟨front, r, rest, endpoint, rfl, hled, hchosen, hq⟩ := h
  have hassume : ((r.assume endpoint c).run w calls).2 = calls ++ [.http q []] := by
    rw [Role.run_assume, run_mapError, Sts.Exchange.run_sent hq hw]
  rw [carryOut_append hchosen, run_bind, hled]
  simp only [List.foldlM_cons, run_bind]
  rcases hrun : (r.assume endpoint c).run w calls with ⟨e | c', between⟩
  · rw [hrun] at hassume
    exact ⟨[], hassume⟩
  · rw [hrun] at hassume
    obtain rfl : between = _ := hassume
    have hrest : (rest.foldlM (fun c r => Role.assume r endpoint c) c').Makes (Call.Within (.ok endpoint)) w
        (calls ++ [.http q []]) := makes_foldlM (fun r _ c _ => Role.makes_assume r endpoint c) c'
    obtain ⟨made, hmade, -⟩ := hrest
    exact ⟨made, by simp only [hmade, List.append_assoc, List.singleton_append]⟩

/-! ## Calls on the way -/

/-- A call that is made for a plan: a plain one, the exchange of a web identity, or a hop. -/
inductive Serves (s : Settings) (x : Exchanges) (plan : Plan) (w : World) (start calls : List Call) : Call → Prop where
  | plain {call : Call} (h : call.IsPlain) : Serves s x plan w start calls call
  | unsigned {q : Http.Request} (h : Sts.IsUnsigned q) : Serves s x plan w start calls (.http q [])
  | hop {c : Credential} {q : Http.Request} (h : Hop s x plan w start calls c q) :
      Serves s x plan w start calls (.http q [])

theorem proceeds_base (b : Base) : (base s x b).Proceeds (Serves s x plan w start) w before := by
  let P : Call → Prop := fun call => call.IsPlain ∨ ∃ q, Sts.IsUnsigned q ∧ call = .http q []
  have hmakes : (base s x b).Makes P w before := by
    refine makes_base_of s x (fun _ => .inl) b fun roleArn tokenFile sessionName _ => ?_
    refine WebIdentity.makes_exchange (fun _ => .inl) _ roleArn tokenFile ?_
    intro endpoint token q _ hq
    exact .inr ⟨q, ⟨WebIdentity.exchange endpoint roleArn _ token, w.now, rfl, rfl, hq⟩, rfl⟩
  refine hmakes.proceeds ?_
  rintro calls call (h | ⟨q, h, rfl⟩)
  · exact .plain h
  · exact .unsigned h

/-- Each of the roles to come is a hop when the ones before it have led to the credential. -/
theorem proceeds_roles {endpoint : Sts.Endpoint} (hchosen : Sts.Endpoint.choose x.region x.regional = .ok endpoint)
    {front rest : List Role} (hroles : plan.roles = front ++ rest)
    (hled : (carryOut s x ⟨plan.base, front⟩).run w start = (.ok c, calls)) :
    (rest.foldlM (fun c r => Role.assume r endpoint c) c).Proceeds (Serves s x plan w start) w calls := by
  -- what is kept: the roles behind have led to the credential at hand
  induction rest generalizing front c calls with
  | nil => exact proceeds_of_silent rfl
  | cons r rest ih =>
    rw [List.foldlM_cons]
    refine Proceeds.bind ?_ fun c' after hassume => ?_
    · exact Role.proceeds_assume fun q hq => .hop ⟨front, r, rest, endpoint, hroles, hled, hchosen, hq⟩
    · have hroles' : plan.roles = (front ++ [r]) ++ rest := by simpa using hroles
      refine ih hroles' ?_
      rw [carryOut_append hchosen, run_bind, hled]
      simp only [List.foldlM_cons, List.foldlM_nil, bind_pure, hassume]

theorem proceeds_carryOut (plan : Plan) : (carryOut s x plan).Proceeds (Serves s x plan w before) w before := by
  refine (proceeds_base plan.base).bind fun c after hbase => ?_
  split
  · exact proceeds_of_silent rfl
  · refine Proceeds.bind (proceeds_of_silent (by rw [run_lift])) fun endpoint calls hlift => ?_
    obtain ⟨hchosen, rfl⟩ := run_lift_eq_ok.1 hlift
    refine proceeds_roles hchosen (List.nil_append _).symm ?_
    rw [carryOut_chosen hchosen]
    simp only [run_bind, hbase, List.foldlM_nil, run_pure]

/-! ## Profiles -/

theorem proceeds_resolve {P : List Call → Call → Prop} {f : SharedFiles} {p : SigV4.Profile}
    (h : ∀ plan, f.plan p = .ok (some plan) → (carryOut s (s.exchanges p w) plan).Proceeds P w before) :
    (resolve s f p).Proceeds P w before := by
  cases hplan : f.plan p with
  | error e =>
    refine proceeds_of_silent ?_
    rw [resolve_of_plan_error hplan]
  | ok o =>
    cases o with
    | none =>
      refine proceeds_of_silent ?_
      rw [resolve_nothing hplan]
    | some plan =>
      unfold Proceeds
      rw [resolve_run hplan]
      exact (h plan hplan).map some

/-- The plan for the profile in question, once the files are read. -/
def Plans (s : Settings) (w : World) (before loaded : List Call) (x : Exchanges) (plan : Plan) : Prop :=
  ∃ f p, (loadFiles s).run w before = (.ok f, loaded) ∧ f.profile? (s.profileName w) = some p ∧
    f.plan p = .ok (some plan) ∧ x = s.exchanges p w

/-- A request that takes on a role for the profile in question, and the credential that it is signed with. -/
def SignsWith (s : Settings) (w : World) (before calls : List Call) (c : Credential) (q : Http.Request) : Prop :=
  ∃ loaded x plan, Plans s w before loaded x plan ∧ Hop s x plan w loaded calls c q

theorem Plans.hasKeys {loaded : List Call} {k : Credential} (h : Plans s w before loaded x plan)
    (hb : plan.base = .keys k) : k.hasKeys = true := by
  obtain ⟨f, p, -, -, hplan, -⟩ := h
  exact SharedFiles.hasKeys_of_plan hplan hb

theorem SignsWith.grounded {q : Http.Request} (h : SignsWith s w before calls c q) :
    c.IsGrounded w s.metadata calls := by
  obtain ⟨loaded, x, plan, hplans, hhop⟩ := h
  exact hhop.grounded fun k => hplans.hasKeys

theorem SignsWith.contains_authorization {q : Http.Request} (h : SignsWith s w before calls c q) :
    q.header.contains .authorization = true := by
  obtain ⟨loaded, x, plan, -, front, r, rest, endpoint, -, -, -, hq⟩ := h
  exact Sts.Exchange.contains_authorization rfl hq

theorem SignsWith.sent {q : Http.Request} {answer : List Call → Http.Request → Bytes → Except Error Http.Response}
    (h : SignsWith s w before calls c q) (hw : w.http = some answer) :
    ∃ more, ((profile s).run w before).2 = calls ++ .http q [] :: more := by
  obtain ⟨loaded, x, plan, ⟨f, p, hf, hp, hplan, rfl⟩, hhop⟩ := h
  rw [profile_run hf hp, resolve_run hplan, run_map]
  exact hhop.sent hw

theorem profile_eq_some (h : (profile s).run w before = (.ok (some c), after)) :
    ∃ loaded x plan, Plans s w before loaded x plan ∧ (carryOut s x plan).run w loaded = (.ok c, after) := by
  rw [profile_eq, run_bind_eq_ok] at h
  obtain ⟨f, loaded, hf, h⟩ := h
  cases hp : f.profile? (s.profileName w) with
  | none => cases hs : s.name <;> simp [hp, hs] at h
  | some p =>
    simp only [hp, Option.elim_some] at h
    cases hplan : f.plan p with
    | error e => rw [resolve_of_plan_error hplan] at h; cases h
    | ok o =>
      cases o with
      | none => rw [resolve_nothing hplan] at h; cases h
      | some plan =>
        rw [resolve_run hplan, run_map_eq_ok] at h
        obtain ⟨c', hcarry, hc⟩ := h
        cases hc
        exact ⟨loaded, _, plan, ⟨f, p, hf, hp, hplan, rfl⟩, hcarry⟩

/-- A call that is made for a profile. -/
inductive ServesProfile (s : Settings) (w : World) (before calls : List Call) : Call → Prop where
  | plain {call : Call} (h : call.IsPlain) : ServesProfile s w before calls call
  | unsigned {q : Http.Request} (h : Sts.IsUnsigned q) : ServesProfile s w before calls (.http q [])
  | signed {c : Credential} {q : Http.Request} (h : SignsWith s w before calls c q) :
      ServesProfile s w before calls (.http q [])

theorem proceeds_profile (s : Settings) (w : World) (before : List Call) :
    (profile s).Proceeds (ServesProfile s w before) w before := by
  unfold Proceeds
  rw [profile_eq]
  refine Proceeds.bind ((makes_loadFiles s).proceeds fun _ _ => .plain) fun f loaded hf => ?_
  cases hp : f.profile? (s.profileName w) with
  | none =>
    refine proceeds_of_silent ?_
    cases s.name <;> rfl
  | some p =>
    refine proceeds_resolve fun plan hplan => (proceeds_carryOut plan).mono fun calls call hserves => ?_
    cases hserves with
    | plain h => exact .plain h
    | unsigned h => exact .unsigned h
    | hop h => exact .signed ⟨loaded, _, plan, ⟨f, p, hf, hp, hplan, rfl⟩, h⟩

/-- Whatever is sent for a profile is plain, or goes to the token service without a signature, or takes on a role and is
signed with what the base and the roles before it have led to; and every role that is come to is asked for so. The
credential that signs has both keys, and so has the one that comes out in the end, unless the last answer was believed
and lacks them. -/
theorem signers_grounded (s : Settings) (w : World) (before : List Call) :
    (∃ made, ((profile s).run w before).2 = before ++ made ∧
      ∀ front q body rest, made = front ++ .http q body :: rest →
        (Call.http q body).IsPlain ∨
        (Sts.IsUnsigned q ∧ q.header.contains .authorization = false) ∨
        (∃ c, SignsWith s w before (before ++ front) c q ∧ c.IsGrounded w s.metadata (before ++ front)) ∧
          q.header.contains .authorization = true) ∧
    (w.http.isSome → ∀ calls c q, SignsWith s w before calls c q →
      ∃ more, ((profile s).run w before).2 = calls ++ .http q [] :: more) ∧
    ∀ c after, (profile s).run w before = (.ok (some c), after) → c.IsGrounded w s.metadata after := by
  obtain ⟨made, hrun, hmade⟩ := proceeds_profile s w before
  refine ⟨⟨made, hrun, ?_⟩, ?_, ?_⟩
  · intro front q body rest hsplit
    cases hmade front _ rest hsplit with
    | plain h => exact .inl h
    | unsigned h => exact .inr (.inl ⟨h, h.noAuthorization⟩)
    | signed h => exact .inr (.inr ⟨⟨_, h, h.grounded⟩, h.contains_authorization⟩)
  · intro hw calls c q h
    obtain ⟨answer, hanswer⟩ := Option.isSome_iff_exists.1 hw
    exact h.sent hanswer
  · intro c after h
    obtain ⟨loaded, x, plan, hplans, hcarry⟩ := profile_eq_some h
    exact carryOut_grounded (fun k => hplans.hasKeys) hcarry

/-- A role that is taken on with keys that stand beside it. -/
def keysBeside : Script where
  home := some "/home/me"
  files := some [("/home/me/.aws/config", .ok (utf8 ("[default]\nrole_arn = a\nsource_profile = default\n"
    ++ "aws_access_key_id = AKID\naws_secret_access_key = secret\n")))]
  routes := some []

theorem signers_grounded_keysBeside : ∃ q c more,
    ((profile {}).run (keysBeside.world ⟨0, 0⟩) []).2 =
      [.file "/home/me/.aws/credentials", .file "/home/me/.aws/config"] ++ .http q [] :: more ∧
    SignsWith {} (keysBeside.world ⟨0, 0⟩) [] [.file "/home/me/.aws/credentials", .file "/home/me/.aws/config"] c q ∧
    c.hasKeys = true := by
  let c : Credential := ⟨"AKID", "secret", none, none⟩
  let r : Role := ⟨"a", none, none, none⟩
  let p : SigV4.Profile := ⟨"default", [⟨"default", [("role_arn", "a"), ("source_profile", "default"),
    ("aws_access_key_id", "AKID"), ("aws_secret_access_key", "secret")]⟩]⟩
  have hread : (loadFiles {}).run (keysBeside.world ⟨0, 0⟩) [] =
      (.ok ⟨[], p.sections⟩, [.file "/home/me/.aws/credentials", .file "/home/me/.aws/config"]) :=
    run_eq_ok (by decide +kernel)
  have hplan : SharedFiles.plan ⟨[], p.sections⟩ p = .ok (some ⟨.keys c, [r]⟩) := by decide +kernel
  have hx : ({} : Settings).exchanges p (keysBeside.world ⟨0, 0⟩) = ⟨none, false⟩ := by decide +kernel
  obtain ⟨q, hq⟩ : ∃ q, (r.exchange (.global false) c ⟨0, 0⟩).request ⟨0, 0⟩ = .ok q :=
    Sts.Exchange.exists_request rfl (by decide +kernel)
  have hsigns : SignsWith {} (keysBeside.world ⟨0, 0⟩) []
      [.file "/home/me/.aws/credentials", .file "/home/me/.aws/config"] c q :=
    ⟨_, _, _, ⟨_, p, hread, by decide +kernel, hplan, hx.symm⟩, [], r, [], .global false, rfl, rfl, rfl, hq⟩
  obtain ⟨⟨made, hmade, hsigners⟩, hsent, -⟩ := signers_grounded {} (keysBeside.world ⟨0, 0⟩) []
  obtain ⟨more, hmore⟩ := hsent rfl _ c q hsigns
  rcases hsigners [.file "/home/me/.aws/credentials", .file "/home/me/.aws/config"] q [] more
    (hmade.symm.trans hmore) with hplain | ⟨-, hnone⟩ | ⟨⟨c', hc', hgrounded⟩, -⟩
  · have hform : q.header.contains .contentType = false := hplain
    rw [Sts.Exchange.contains_contentType hq] at hform
    cases hform
  · rw [hsigns.contains_authorization] at hnone
    cases hnone
  · refine ⟨q, c', more, hmore, hc', ?_⟩
    -- the last answer was that of a file
    by_contra hkeys
    obtain ⟨q', hlast⟩ := (hgrounded (by simpa using hkeys)).last
    cases hlast

/-- A role that is taken on with what a container answers, which is two empty keys. -/
def emptyKeys : Script where
  environment := [(Variable.containerRelativeUri, "/keys")]
  home := some "/home/me"
  files := some [("/home/me/.aws/config", .ok (utf8 "[default]\nrole_arn = a\ncredential_source = EcsContainer\n"))]
  routes := some [⟨none, none, none, none,
    .ok ⟨.ok, utf8 "\x7b\"AccessKeyId\":\"\",\"SecretAccessKey\":\"\"\x7d"⟩⟩]

/-- The empty keys are taken for a credential and sign the request of the role. -/
theorem signers_emptyKeys : ∃ q calls more, Sts.IsExchange q ∧
    ((profile {}).run (emptyKeys.world ⟨0, 0⟩) []).2 = calls ++ .http q [] :: more ∧
    SignsWith {} (emptyKeys.world ⟨0, 0⟩) [] calls ⟨"", "", none, none⟩ q := by
  let c : Credential := ⟨"", "", none, none⟩
  let r : Role := ⟨"a", none, none, none⟩
  let p : SigV4.Profile := ⟨"default", [⟨"default", [("role_arn", "a"), ("credential_source", "EcsContainer")]⟩]⟩
  have hread : (loadFiles {}).run (emptyKeys.world ⟨0, 0⟩) [] =
      (.ok ⟨[], p.sections⟩, [.file "/home/me/.aws/credentials", .file "/home/me/.aws/config"]) :=
    run_eq_ok (by decide +kernel)
  have hplan : SharedFiles.plan ⟨[], p.sections⟩ p = .ok (some ⟨.place .container, [r]⟩) := by decide +kernel
  have hx : ({} : Settings).exchanges p (emptyKeys.world ⟨0, 0⟩) = ⟨none, false⟩ := by decide +kernel
  obtain ⟨calls, hled⟩ : ∃ calls, (carryOut {} ⟨none, false⟩ ⟨.place .container, []⟩).run (emptyKeys.world ⟨0, 0⟩)
      [.file "/home/me/.aws/credentials", .file "/home/me/.aws/config"] = (.ok c, calls) :=
    ⟨_, run_eq_ok (Prod.ext (by decide +kernel) rfl)⟩
  obtain ⟨q, hq⟩ : ∃ q, (r.exchange (.global false) c ⟨0, 0⟩).request ⟨0, 0⟩ = .ok q :=
    Sts.Exchange.exists_request rfl (by decide +kernel)
  have hsigns : SignsWith {} (emptyKeys.world ⟨0, 0⟩) [] calls c q :=
    ⟨_, _, _, ⟨_, p, hread, by decide +kernel, hplan, hx.symm⟩, [], r, [], .global false, rfl, hled, rfl, hq⟩
  obtain ⟨more, hmore⟩ := hsigns.sent rfl
  exact ⟨q, calls, more, ⟨_, _, hq⟩, hmore, hsigns⟩

end Source.Profile

end SigV4
