import SigV4.Proofs.Creation
import SigV4.Proofs.Hosts
import SigV4.Proofs.Isolation
/-!
# Where keys come from

Keys in the files, in the environment and on the output of a program are looked at before they are taken, so both
are there. What the container, the machine and the token service answer is believed: a credential of theirs has the
keys of the last answer, be they empty or not.
-/

namespace SigV4

/-! ## Runs that succeed -/

namespace Resolve

variable {α β : Type} {w : World} {before after : List Call} {a : α} {b : β}

theorem run_bind_eq_ok {x : Resolve α} {f : α → Resolve β} : (x >>= f).run w before = (.ok b, after) ↔
    ∃ a between, x.run w before = (.ok a, between) ∧ (f a).run w between = (.ok b, after) := by
  rw [run_bind]
  rcases x.run w before with ⟨e | a, between⟩ <;> simp

theorem run_map_eq_ok {x : Resolve α} {f : α → β} :
    (f <$> x).run w before = (.ok b, after) ↔ ∃ a, x.run w before = (.ok a, after) ∧ f a = b := by
  rw [run_map]
  rcases x.run w before with ⟨e | a, between⟩ <;> simp [Except.map, and_comm]

theorem run_mapError_eq_ok {x : Resolve α} {f : Error → Error} :
    (x.mapError f).run w before = (.ok a, after) ↔ x.run w before = (.ok a, after) := by
  rw [run_mapError]
  rcases x.run w before with ⟨e | a, between⟩ <;> simp [Except.mapError]

theorem run_orFail_eq_ok {e : Error} {o : Option α} :
    (orFail e o).run w before = (.ok a, after) ↔ o = some a ∧ before = after := by
  cases o <;> simp

theorem run_lift_eq_ok {r : Except Error α} :
    (lift r).run w before = (.ok a, after) ↔ r = .ok a ∧ before = after := by
  rw [run_lift, Prod.mk.injEq]

theorem run_send_eq_ok {q : Http.Request} {body : Bytes} {r : Http.Response} :
    (send q body).run w before = (.ok r, after) ↔
      ∃ answer, w.http = some answer ∧ answer before q body = .ok r ∧ before ++ [.http q body] = after := by
  rw [send, run_bind, run_read]
  cases hw : w.http with
  | none => simp [hw]
  | some answer => simp [hw]

/-- An expiry that may be left out is read without any call. -/
theorem run_expiry {e : Option String} {t : Option Time}
    (h : (e.mapM fun t => lift (Rfc3339.parse t)).run w before = (.ok t, after)) : before = after := by
  cases e with
  | none => exact congrArg Prod.snd h
  | some text =>
    obtain ⟨_, hparse, -⟩ := run_map_eq_ok.1 h
    exact (run_lift_eq_ok.1 hparse).2

end Resolve

open Resolve

/-! ## Answers -/

namespace World

/-- The last call is a request, and this is the answer to it, which is a good one. -/
def Heard (w : World) (calls : List Call) (q : Http.Request) (r : Http.Response) : Prop :=
  ∃ answer front, w.http = some answer ∧ calls = front ++ [.http q []] ∧ answer front q [] = .ok r ∧ r.status = .ok

/-- The access key and the secret that the last answer tells to whoever asks the container, the machine or the token
service. Those of the token service are not empty before the blanks around them are taken off. -/
inductive Tells (w : World) (s : Source.InstanceMetadata.Settings) (calls : List Call) : String → String → Prop where
  | container {uri : String} {fields : List (Http.FieldName × String)} {q : Http.Request} {r : Http.Response}
      {a : Source.Container.Answer} (there : ({} : Source.Container.Settings).uri? w = some uri)
      (asked : Http.Request.build? .get uri fields = some q) (heard : w.Heard calls q r)
      (read : Source.Container.Answer.read? r.text = some a) : Tells w s calls a.accessKeyId a.secretAccessKey
  | metadata {role token : String} {q : Http.Request} {r : Http.Response} {a : Source.InstanceMetadata.Answer}
      (asked : Http.Request.build? .get (Source.InstanceMetadata.rolesUri (s.base w) ++ role)
        [(.metadataToken, token)] = some q)
      (heard : w.Heard calls q r) (read : Source.InstanceMetadata.Answer.read? r.text = some a)
      (success : a.fault? = none) : Tells w s calls a.accessKeyId a.secretAccessKey
  | tokenService {q : Http.Request} {r : Http.Response} {g : Sts.Grant} (asked : Sts.IsExchange q)
      (heard : w.Heard calls q r) (read : Sts.Grant.read? r.text = some g) (keys : g.hasKeys = true) :
      Tells w s calls (Text.trim g.accessKeyId) (Text.trim g.secretAccessKey)

/-- Nothing is told by a file or a program. -/
theorem Tells.last {w : World} {s : Source.InstanceMetadata.Settings} {calls : List Call} {key secret : String}
    (h : w.Tells s calls key secret) : ∃ q, calls.getLast? = some (.http q []) := by
  have hlast : ∀ q r, w.Heard calls q r → calls.getLast? = some (.http q []) := by
    rintro q r ⟨answer, front, -, rfl, -⟩
    exact List.getLast?_concat
  cases h with
  | container _ _ heard => exact ⟨_, hlast _ _ heard⟩
  | metadata _ heard => exact ⟨_, hlast _ _ heard⟩
  | tokenService _ heard => exact ⟨_, hlast _ _ heard⟩

end World

/-- A credential that lacks a key has just what the last answer tells. -/
def Credential.IsGrounded (c : Credential) (w : World) (s : Source.InstanceMetadata.Settings)
    (calls : List Call) : Prop :=
  c.hasKeys = false → w.Tells s calls c.accessKeyId c.secretAccessKey

theorem Credential.IsGrounded.of_hasKeys {c : Credential} {w : World} {s : Source.InstanceMetadata.Settings}
    {calls : List Call} (h : c.hasKeys = true) : c.IsGrounded w s calls := by
  intro hlacks
  rw [h] at hlacks
  cases hlacks

variable {w : World} {before after : List Call} {c : Credential}

/-! ## Keys that are looked at -/

theorem World.ne_empty_of_filled? {name v : String} (h : w.filled? name = some v) : v ≠ "" := by
  simpa using (Option.filter_eq_some_iff.1 h).2

namespace Profile

variable {p : Profile} {s : Step} {first : Bool}

theorem ne_empty_of_get {key v : String} (h : p.get key = some v) : v ≠ "" := by
  obtain ⟨raw, -, hv⟩ := Option.bind_eq_some_iff.1 h
  unfold Text.nonEmpty? at hv
  split at hv
  · cases hv
  · rename_i hne
    rw [← Option.some.inj hv]
    simpa [String.isEmpty_iff] using hne

theorem hasKeys_of_keys (h : p.keys = .ok (some c)) : c.hasKeys = true := by
  unfold keys at h
  cases hk : p.get "aws_access_key_id" <;> cases hs : p.get "aws_secret_access_key" <;> simp [hk, hs] at h
  rw [← h]
  exact Credential.hasKeys_iff.2 ⟨ne_empty_of_get hk, ne_empty_of_get hs⟩

theorem hasKeys_of_step (h : p.step first = .ok s) (hb : s.base? = some (.keys c)) : c.hasKeys = true := by
  cases leads_of_step h with
  | keys settled both =>
    cases hb
    exact hasKeys_of_keys both
  | nothing => cases hb
  | process => cases hb
  | token => cases hb
  | role _ _ _ _ source =>
    rcases roleStep_cases source with ⟨place, -, rfl⟩ | ⟨own, hown, rfl⟩ | ⟨name, rfl⟩
    · cases hb
    · cases hb
      exact hasKeys_of_keys hown
    · cases hb

end Profile

/-- The base of a plan is the base of a step. -/
theorem SharedFiles.walk_base {f : SharedFiles} {visited : List String} {roles : List Role} {p : Profile}
    {plan : Profile.Plan} (h : f.walk visited roles p = .ok (some plan)) :
    ∃ (q : Profile) (first : Bool) (s : Profile.Step), q.step first = .ok s ∧ s.base? = some plan.base := by
  fun_induction walk f visited roles p with
  | case1 => cases h
  | case2 => cases h
  | case3 => cases h
  | case4 visited roles p b hs =>
    cases h
    exact ⟨p, _, _, hs, rfl⟩
  | case5 visited roles p r b hs =>
    cases h
    exact ⟨p, _, _, hs, rfl⟩
  | case6 => cases h
  | case7 visited roles p r source hs new q found ih => exact ih h
  | case8 => cases h

theorem SharedFiles.hasKeys_of_plan {f : SharedFiles} {p : Profile} {plan : Profile.Plan}
    (h : f.plan p = .ok (some plan)) (hb : plan.base = .keys c) : c.hasKeys = true := by
  obtain ⟨q, first, s, hstep, hbase⟩ := walk_base h
  exact Profile.hasKeys_of_step hstep (hbase.trans (congrArg some hb))

namespace Source

theorem environment_hasKeys (h : environment.run w before = (.ok (some c), after)) : c.hasKeys = true := by
  unfold environment at h
  simp only [run_bind, run_filled?] at h
  cases hk : w.filled? Variable.accessKeyId <;> cases hs : w.filled? Variable.secretAccessKey <;> simp [hk, hs] at h
  rw [← h.1]
  exact Credential.hasKeys_iff.2 ⟨World.ne_empty_of_filled? hk, World.ne_empty_of_filled? hs⟩

namespace Process

theorem hasKeys_of_check {o : CommandOutput} {out : Output} (h : check o = .ok out) :
    out.accessKeyId ≠ "" ∧ out.secretAccessKey ≠ "" := by
  unfold check at h
  split at h
  · cases h
  split at h
  · cases h
  split at h
  · cases h
  split at h
  · cases h
  · rename_i hkeys
    rw [← Except.ok.inj h]
    simpa [String.isEmpty_iff] using hkeys

theorem run_hasKeys {command : String} (h : (run command).run w before = (.ok c, after)) : c.hasKeys = true := by
  unfold run at h
  cases hwords : Text.words command with
  | nil => simp [hwords] at h
  | cons program arguments =>
    simp only [hwords, run_bind_eq_ok, run_lift_eq_ok] at h
    obtain ⟨output, _, -, out, _, ⟨hcheck, -⟩, expiry, _, -, hc⟩ := h
    cases hc
    apply Credential.hasKeys_iff.2
    cases ho : check output with
    | error e => rw [ho] at hcheck; cases hcheck
    | ok out' =>
      rw [ho] at hcheck
      cases hcheck
      exact hasKeys_of_check ho

end Process

/-! ## Keys that are believed -/

variable {s : InstanceMetadata.Settings}

theorem Container.tells_fetch {uri : String} {token : Option String}
    (there : ({} : Container.Settings).uri? w = some uri)
    (h : (Container.fetch uri token).run w before = (.ok c, after)) :
    w.Tells s after c.accessKeyId c.secretAccessKey := by
  unfold Container.fetch at h
  simp only [run_bind_eq_ok, run_orFail_eq_ok, run_mapError_eq_ok, run_send_eq_ok] at h
  obtain ⟨q, _, ⟨hq, rfl⟩, response, _, ⟨answer, hw, hanswer, rfl⟩, h⟩ := h
  split at h
  · simp [run_bind] at h
  · rename_i hstatus
    simp only [run_bind_eq_ok, run_orFail_eq_ok] at h
    obtain ⟨a, _, ⟨ha, rfl⟩, expiry, _, hexpiry, hc⟩ := h
    obtain rfl := run_expiry hexpiry
    cases hc
    exact .container there hq ⟨answer, _, hw, rfl, hanswer, by simpa using hstatus⟩ ha

theorem tells_container (h : (container {}).run w before = (.ok (some c), after)) :
    w.Tells s after c.accessKeyId c.secretAccessKey := by
  unfold container at h
  rw [run_bind, run_read] at h
  cases huri : ({} : Container.Settings).uri? w with
  | none => simp [huri] at h
  | some uri =>
    simp only [huri, run_bind_eq_ok, run_map_eq_ok, Option.some.injEq] at h
    obtain ⟨token, _, -, c', hfetch, rfl⟩ := h
    exact Container.tells_fetch huri hfetch

namespace InstanceMetadata

theorem get_eq_ok {uri token text : String} (h : (get uri token).run w before = (.ok text, after)) :
    ∃ q r, Http.Request.build? .get uri [(.metadataToken, token)] = some q ∧ w.Heard after q r ∧ r.text = text := by
  unfold get at h
  simp only [run_bind_eq_ok, run_orFail_eq_ok, run_mapError_eq_ok, run_send_eq_ok] at h
  obtain ⟨q, _, ⟨hq, rfl⟩, response, _, ⟨answer, hw, hanswer, rfl⟩, h⟩ := h
  split at h
  · rename_i hstatus
    cases h
    exact ⟨q, response, hq, ⟨answer, _, hw, rfl, hanswer, hstatus⟩, rfl⟩
  · cases h

theorem tells_fetch {token : String} (h : (fetch (s.base w) token).run w before = (.ok c, after)) :
    w.Tells s after c.accessKeyId c.secretAccessKey := by
  unfold fetch at h
  simp only [run_bind_eq_ok, run_orFail_eq_ok] at h
  obtain ⟨listing, _, -, role, _, ⟨-, rfl⟩, document, _, hdocument, a, _, ⟨ha, rfl⟩, h⟩ := h
  obtain ⟨q, r, hq, hheard, rfl⟩ := get_eq_ok hdocument
  cases hfault : a.fault? with
  | some e => simp [hfault, run_bind] at h
  | none =>
    simp only [hfault, run_bind_eq_ok, run_lift_eq_ok] at h
    obtain ⟨expiry, _, ⟨-, rfl⟩, hc⟩ := h
    cases hc
    exact .metadata hq hheard ha hfault

end InstanceMetadata

theorem tells_instanceMetadata (h : (instanceMetadata s).run w before = (.ok (some c), after)) :
    w.Tells s after c.accessKeyId c.secretAccessKey := by
  unfold instanceMetadata at h
  rw [run_bind, run_read] at h
  simp only at h
  split at h
  · cases h
  · obtain ⟨token, _, -, h⟩ := run_bind_eq_ok.1 h
    cases token with
    | none => cases h
    | some token =>
      obtain ⟨c', hfetch, hc⟩ := run_map_eq_ok.1 h
      cases hc
      exact InstanceMetadata.tells_fetch hfetch

end Source

namespace Sts

theorem Grant.credential_eq_ok {g : Grant} (h : g.credential = .ok c) :
    c.accessKeyId = Text.trim g.accessKeyId ∧ c.secretAccessKey = Text.trim g.secretAccessKey := by
  unfold credential at h
  cases ht : Rfc3339.parse (Text.trim g.expiration) with
  | error e => rw [ht] at h; cases h
  | ok t =>
    rw [ht] at h
    cases h
    exact ⟨rfl, rfl⟩

namespace Exchange

variable {x : Exchange} {s : Source.InstanceMetadata.Settings}

theorem accept_eq_ok {reply : Http.Response} (h : x.accept reply = .ok c) : reply.status = .ok ∧
    ∃ g, Grant.read? reply.text = some g ∧ g.hasKeys = true ∧ g.credential = .ok c := by
  unfold accept at h
  split at h
  · cases h
  rename_i hstatus
  split at h
  · cases h
  rename_i g hg
  split at h
  · rename_i hkeys
    exact ⟨by simpa using hstatus, g, hg, hkeys, h⟩
  · cases h

theorem tells_run (h : x.run.run w before = (.ok c, after)) : w.Tells s after c.accessKeyId c.secretAccessKey := by
  unfold run at h
  simp only [run_bind_eq_ok, run_mapError_eq_ok, run_send_eq_ok, run_lift_eq_ok] at h
  obtain ⟨now, _, -, q, _, ⟨hq, rfl⟩, reply, _, ⟨answer, hw, hanswer, rfl⟩, haccept, rfl⟩ := h
  obtain ⟨hstatus, g, hg, hkeys, hc⟩ := accept_eq_ok haccept
  obtain ⟨hkey, hsecret⟩ := Grant.credential_eq_ok hc
  rw [hkey, hsecret]
  exact .tokenService ⟨x, now, hq⟩ ⟨answer, _, hw, rfl, hanswer, hstatus⟩ hg hkeys

end Exchange

end Sts

theorem Role.tells_assume {r : Role} {endpoint : Sts.Endpoint} {b : Credential}
    {s : Source.InstanceMetadata.Settings} (h : (r.assume endpoint b).run w before = (.ok c, after)) :
    w.Tells s after c.accessKeyId c.secretAccessKey := by
  unfold assume at h
  simp only [run_bind_eq_ok, run_mapError_eq_ok] at h
  obtain ⟨now, _, -, hrun⟩ := h
  exact Sts.Exchange.tells_run hrun

/-! ## All bases -/

namespace Source

theorem WebIdentity.tells_assume {i : Settings} {roleArn tokenFile : String} {s : InstanceMetadata.Settings}
    (h : (assume i roleArn tokenFile).run w before = (.ok c, after)) :
    w.Tells s after c.accessKeyId c.secretAccessKey := by
  unfold assume at h
  simp only [run_bind_eq_ok, run_mapError_eq_ok] at h
  obtain ⟨token, _, -, session, _, -, now, _, -, here, _, -, endpoint, _, -, hrun⟩ := h
  exact Sts.Exchange.tells_run hrun

namespace Profile

variable {s : Settings} {x : Exchanges}

theorem place_grounded {p : SigV4.Profile.Place} (h : (place s p).run w before = (.ok (some c), after)) :
    c.IsGrounded w s.metadata after := by
  cases p with
  | environment => exact .of_hasKeys (environment_hasKeys h)
  | instanceMetadata => exact fun _ => tells_instanceMetadata h
  | container => exact fun _ => tells_container h

theorem base_grounded {b : SigV4.Profile.Base} (hb : ∀ k, b = .keys k → k.hasKeys = true)
    (h : (base s x b).run w before = (.ok c, after)) : c.IsGrounded w s.metadata after := by
  cases b with
  | keys k =>
    cases h
    exact .of_hasKeys (hb c rfl)
  | webIdentity roleArn tokenFile sessionName => exact fun _ => WebIdentity.tells_assume h
  | process command => exact .of_hasKeys (Process.run_hasKeys h)
  | place p =>
    obtain ⟨o, _, hplace, horFail⟩ := run_bind_eq_ok.1 h
    obtain ⟨rfl, rfl⟩ := run_orFail_eq_ok.1 horFail
    exact place_grounded hplace

end Profile

end Source

end SigV4
