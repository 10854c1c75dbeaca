import SigV4.Proofs.Bytes
import SigV4.Proofs.Calls
import SigV4.Proofs.Origins
import SigV4.Proofs.Text
import SigV4.World.Script
/-!
# Sessions with the metadata service

A session asks for a token, with it for the roles, and with it for the keys of the first role. `Stage` says how far a
session has come, `Stage.Leads` what an answer makes of a stage and `Stage.Faulty` which answers end the session, so
`Reaches` are the sessions that a world allows. A run goes through them to the last stage that is reached, and all it
knows of earlier answers is in the stage. Whether it starts at all and where it goes is up to the settings:
`Settings.IsOff`, `Settings.IsBase`.
-/

namespace SigV4

namespace Resolve

variable {α β : Type} {x y : Resolve α} {f : α → Resolve β} {w : World} {before after : List Call}

theorem ext (h : ∀ w calls, x.run w calls = y.run w calls) : x = y :=
  funext fun w => funext fun calls => h w calls

theorem run_bind_of_ok {a : α} (h : x.run w before = (.ok a, after)) :
    (x >>= f).run w before = (f a).run w after := by
  rw [run_bind, h]

theorem run_bind_of_error {e : Error} (h : x.run w before = (.error e, after)) :
    (x >>= f).run w before = (.error e, after) := by
  rw [run_bind, h]

end Resolve

namespace Source.InstanceMetadata

open Resolve

variable {w : World} {before calls : List Call} {base : String} {q : Http.Request} {r : Http.Response}

/-! ## Settings -/

/-- The caller or the environment has switched the service off. -/
def Settings.IsOff (s : Settings) (w : World) : Prop :=
  s.disabled = true ∨
    ∃ value, w.lookup Variable.metadataDisabled = some value ∧ value.toList.map Char.toLower = "true".toList

/-- The endpoint that the caller names, or else the environment, or else the well-known one. -/
inductive Settings.Names (s : Settings) (w : World) : String → Prop where
  | caller {endpoint : String} (given : s.endpoint = some endpoint) : Names s w endpoint
  | environment {endpoint : String} (silent : s.endpoint = none)
      (found : w.lookup Variable.metadataEndpoint = some endpoint) (nonempty : endpoint ≠ "") : Names s w endpoint
  | wellKnown (silent : s.endpoint = none)
      (empty : ∀ endpoint, w.lookup Variable.metadataEndpoint = some endpoint → endpoint = "") :
      Names s w "http://169.254.169.254"

/-- What stands in front of the paths of all requests: the endpoint without the slashes at its end. -/
def Settings.IsBase (s : Settings) (w : World) (base : String) : Prop :=
  ∃ endpoint n, s.Names w endpoint ∧ endpoint.toList = base.toList ++ List.replicate n '/' ∧
    base.toList.getLast? ≠ some '/'

theorem isDisabled_iff {s : Settings} : s.isDisabled w = true ↔ s.IsOff w := by
  have hlower : "true".toList.map Char.toLower = "true".toList := by decide
  simp only [Settings.isDisabled, Settings.IsOff, Bool.or_eq_true, Option.any_eq_true, isTrue,
    Text.equalsIgnoringCase, beq_iff_eq, hlower]

theorem isBase_base (s : Settings) (w : World) : s.IsBase w (s.base w) := by
  have hnames : s.Names w ((s.endpoint <|> w.filled? Variable.metadataEndpoint).getD defaultEndpoint) := by
    cases hs : s.endpoint with
    | some endpoint => exact .caller hs
    | none =>
      cases hw : w.filled? Variable.metadataEndpoint with
      | some endpoint =>
        obtain ⟨hfound, hne⟩ := Option.filter_eq_some_iff.1 hw
        exact .environment hs hfound (by simpa using hne)
      | none => exact .wellKnown hs fun endpoint h => by simpa using Option.filter_eq_none_iff.1 hw endpoint h
  obtain ⟨⟨n, hsplit⟩, hlast⟩ := Text.exists_slashes
    ((s.endpoint <|> w.filled? Variable.metadataEndpoint).getD defaultEndpoint)
  exact ⟨_, n, hnames, hsplit, hlast⟩

/-! ## Roles -/

def linesOf (text : String) : List (List Char) := text.toList.splitOnP (· == '\n')

/-- The first line that is not blank, without the blanks around it. -/
def IsFirstRole (listing role : String) : Prop := ∃ front line rest, linesOf listing = front ++ line :: rest ∧
  (∀ l ∈ front, l.all Text.isBlank = true) ∧ line.all Text.isBlank = false ∧ role = String.ofList (Text.strip line)

theorem firstRole?_eq_some {listing role : String} : firstRole? listing = some role ↔ IsFirstRole listing role := by
  unfold firstRole? IsFirstRole linesOf
  rw [List.find?_map, Option.map_eq_some_iff]
  constructor
  · rintro ⟨line, hfind, rfl⟩
    obtain ⟨hline, front, rest, hsplit, hfront⟩ := List.find?_eq_some_iff_append.1 hfind
    refine ⟨front, line, rest, hsplit, fun l hl => ?_, ?_, rfl⟩
    · simpa [Text.strip_eq_nil] using hfront l hl
    · simpa [Text.strip_eq_nil] using hline
  · rintro ⟨front, line, rest, hsplit, hfront, hline, rfl⟩
    refine ⟨line, List.find?_eq_some_iff_append.2 ⟨?_, front, rest, hsplit, fun l hl => ?_⟩, rfl⟩
    · simpa [Text.strip_eq_nil] using hline
    · simpa [Text.strip_eq_nil] using hfront l hl

theorem firstRole?_eq_none {listing : String} :
    firstRole? listing = none ↔ Text.isBlankText listing = true := by
  unfold firstRole? Text.isBlankText
  rw [List.find?_eq_none, List.forall_mem_map, List.all_eq_true]
  simp only [ne_eq, decide_not, Bool.not_eq_true', Bool.not_eq_false, decide_eq_true_eq, String.ofList_eq_empty_iff,
    Text.strip_eq_nil, List.all_eq_true]
  constructor
  · intro h c hc
    by_cases hbreak : c = '\n'
    · rw [hbreak]
      rfl
    · have hkept : (c == '\n') = false := by simpa using hbreak
      obtain ⟨line, hline, hmem⟩ := Bytes.exists_mem_splitOnP (p := (· == '\n')) hkept hc
      exact h line hline c hmem
  · intro h line hline c hc
    exact h c (Bytes.mem_of_mem_splitOnP hline hc)

/-- The credential of an answer, which expires at some time. -/
def Answer.credential (a : Answer) (t : Time) : Credential :=
  ⟨a.accessKeyId, a.secretAccessKey, Text.nonEmpty? a.token, some t⟩

/-! ## Stages -/

/-- How far a session has come, and what it has been told. -/
inductive Stage where
  | start
  | opened (token : String)
  | chosen (token role : String)
  | done (c : Credential)

namespace Stage

/-- The request of a stage, if it can be put together. -/
def request? (base : String) : Stage → Option Http.Request
  | start => Http.Request.build? .put (base ++ "/latest/api/token")
      [(.contentLength, "0"), (.metadataTokenTtl, "21600")]
  | opened token => Http.Request.build? .get (base ++ "/latest/meta-data/iam/security-credentials/")
      [(.metadataToken, token)]
  | chosen token role => Http.Request.build? .get (base ++ "/latest/meta-data/iam/security-credentials/" ++ role)
      [(.metadataToken, token)]
  | done _ => none

/-- What an answer makes of a stage. -/
inductive Leads : Stage → Http.Response → Stage → Prop where
  | opens {r : Http.Response} (ok : r.status = .ok) : Leads start r (opened r.text)
  | chooses {r : Http.Response} {token role : String} (ok : r.status = .ok) (first : IsFirstRole r.text role) :
      Leads (opened token) r (chosen token role)
  | grants {r : Http.Response} {token role : String} {a : Answer} {t : Time} (ok : r.status = .ok)
      (read : Answer.read? r.text = some a) (success : a.code = "Success")
      (expiry : Rfc3339.read? a.expiration = some t) :
      Leads (chosen token role) r (done (a.credential t))

/-- An answer that ends a session. -/
inductive Faulty : Stage → Http.Response → Prop where
  | refused {stage : Stage} {r : Http.Response} (h : r.status ≠ .ok) : Faulty stage r
  | noRole {r : Http.Response} {token : String} (h : Text.isBlankText r.text = true) : Faulty (opened token) r
  | unreadable {r : Http.Response} {token role : String} (h : Answer.read? r.text = none) :
      Faulty (chosen token role) r
  | failed {r : Http.Response} {token role : String} {a : Answer} (read : Answer.read? r.text = some a)
      (h : a.code ≠ "Success") : Faulty (chosen token role) r
  | undated {r : Http.Response} {token role : String} {a : Answer} (read : Answer.read? r.text = some a)
      (h : Rfc3339.read? a.expiration = none) : Faulty (chosen token role) r

variable {stage next : Stage}

/-- An answer leads on or ends the session. -/
theorem leads_or_faulty (h : stage.request? base = some q) (r : Http.Response) :
    (∃ next, stage.Leads r next) ∨ stage.Faulty r := by
  by_cases hok : r.status = .ok
  · cases stage with
    | start => exact .inl ⟨_, .opens hok⟩
    | opened token =>
      cases hrole : firstRole? r.text with
      | none => exact .inr (.noRole (firstRole?_eq_none.1 hrole))
      | some role => exact .inl ⟨_, .chooses hok (firstRole?_eq_some.1 hrole)⟩
    | chosen token role =>
      cases hread : Answer.read? r.text with
      | none => exact .inr (.unreadable hread)
      | some a =>
        by_cases hcode : a.code = "Success"
        · cases hexpiry : Rfc3339.read? a.expiration with
          | none => exact .inr (.undated hread hexpiry)
          | some t => exact .inl ⟨_, .grants hok hread hcode hexpiry⟩
        · exact .inr (.failed hread hcode)
    | done c => cases h
  · exact .inr (.refused hok)

end Stage

/-- No answer leads on from the stage. -/
def Stage.IsLast (base : String) (w : World) (calls : List Call) (stage : Stage) : Prop :=
  ∀ q r, stage.request? base = some q → w.reply? calls q = some r → stage.Faulty r

/-- How many requests are left. -/
def Stage.left : Stage → Nat
  | start => 3
  | opened _ => 2
  | chosen _ _ => 1
  | done _ => 0

theorem Stage.Leads.left_lt {stage next : Stage} (h : stage.Leads r next) : next.left < stage.left := by
  cases h <;> exact Nat.lt_succ_self _

/-- The sessions that a world allows after some calls, as far as they may come. -/
inductive Reaches (base : String) (w : World) (before : List Call) : List Call → Stage → Prop where
  | start : Reaches base w before [] .start
  | step {front : List Call} {stage next : Stage} {q : Http.Request} {r : Http.Response}
      (so : Reaches base w before front stage) (asked : stage.request? base = some q)
      (answered : w.reply? (before ++ front) q = some r) (leads : stage.Leads r next) :
      Reaches base w before (front ++ [.http q []]) next

/-! ## What a run does at a stage -/

/-- The credential in the document of a role. -/
def accept (role document : String) : Except Error Credential :=
  (Answer.read? document).elim (.error (unreadable role)) fun answer =>
    answer.fault?.elim ((Rfc3339.parse answer.expiration).map answer.credential) fun e =>
      .error (e.during s!"role: {role}")

/-- What is left to do at a stage. -/
def Stage.rest (base : String) : Stage → Source
  | start => openSession base >>= fun t => t.elim (pure none) fun token => some <$> fetch base token
  | opened token => some <$> fetch base token
  | chosen token role => some <$> (get (rolesUri base ++ role) token >>= fun document => lift (accept role document))
  | done c => pure (some c)

theorem fetch_eq (base token : String) : fetch base token = get (rolesUri base) token >>= fun listing =>
    orFail noRole (firstRole? listing) >>= fun role =>
      get (rolesUri base ++ role) token >>= fun document => lift (accept role document) := by
  unfold fetch
  refine bind_congr fun listing => bind_congr fun role => bind_congr fun document => Resolve.ext fun w calls => ?_
  unfold accept
  cases Answer.read? document with
  | none => simp [run_bind]
  | some answer =>
    cases hf : answer.fault? with
    | some e => simp [run_bind, hf]
    | none => cases hx : Rfc3339.parse answer.expiration <;> simp [run_bind, hf, hx, Except.map, Answer.credential]

theorem instanceMetadata_eq (s : Settings) : (instanceMetadata s).run w before =
    if s.isDisabled w then (.ok none, before) else (Stage.start.rest (s.base w)).run w before := by
  unfold instanceMetadata Stage.rest
  rw [run_bind, run_read]
  by_cases h : s.isDisabled w = true
  · simp [h]
  · simp only [h, Bool.false_eq_true, if_false]
    rw [run_bind, run_bind]
    rcases (openSession (s.base w)).run w before with ⟨e | t, after⟩
    · rfl
    · cases t <;> rfl

section
variable {uri token : String}

theorem get_of_no_request (h : Http.Request.build? .get uri [(.metadataToken, token)] = none) :
    ∃ e, (get uri token).run w calls = (.error e, calls) := by
  refine ⟨unbuildable "request" uri, ?_⟩
  unfold get
  rw [run_bind, h, run_orFail]
  rfl

theorem get_of_no_reply (h : Http.Request.build? .get uri [(.metadataToken, token)] = some q)
    (hr : w.reply? calls q = none) : ∃ e, (get uri token).run w calls = (.error e, calls ++ w.noted q) := by
  obtain ⟨e, hsend⟩ := run_send_of_no_reply hr
  refine ⟨unreachable uri e, ?_⟩
  unfold get
  simp [run_bind, h, hsend, Except.mapError]

theorem get_of_ok (h : Http.Request.build? .get uri [(.metadataToken, token)] = some q)
    (hr : w.reply? calls q = some r) (hok : r.status = .ok) :
    (get uri token).run w calls = (.ok r.text, calls ++ [.http q []]) := by
  unfold get
  simp [run_bind, h, run_send_of_reply hr, Except.mapError, hok]

theorem get_of_refusal (h : Http.Request.build? .get uri [(.metadataToken, token)] = some q)
    (hr : w.reply? calls q = some r) (hok : r.status ≠ .ok) :
    ∃ e, (get uri token).run w calls = (.error e, calls ++ [.http q []]) := by
  refine ⟨(refusal "get metadata" r).during s!"url: {uri}", ?_⟩
  unfold get
  simp [run_bind, h, run_send_of_reply hr, Except.mapError, hok]

end

theorem request?_start (base : String) : Stage.start.request? base =
    Http.Request.build? .put (tokenUri base) [(.contentLength, "0"), (.metadataTokenTtl, tokenLifetime)] := rfl

theorem openSession_of_no_request (h : Stage.start.request? base = none) :
    ∃ e, (openSession base).run w calls = (.error e, calls) := by
  refine ⟨unbuildable "token request" (tokenUri base), ?_⟩
  rw [request?_start] at h
  unfold openSession
  rw [run_bind, h, run_orFail]
  rfl

theorem openSession_of_no_reply (h : Stage.start.request? base = some q) (hr : w.reply? calls q = none) :
    (openSession base).run w calls = (.ok none, calls ++ w.noted q) := by
  rw [request?_start] at h
  obtain ⟨e, hsend⟩ := run_send_of_no_reply hr
  unfold openSession
  simp [run_bind, h, hsend]

theorem openSession_of_ok (h : Stage.start.request? base = some q) (hr : w.reply? calls q = some r)
    (hok : r.status = .ok) : (openSession base).run w calls = (.ok (some r.text), calls ++ [.http q []]) := by
  rw [request?_start] at h
  unfold openSession
  simp [run_bind, h, run_send_of_reply hr, hok]

theorem openSession_of_refusal (h : Stage.start.request? base = some q) (hr : w.reply? calls q = some r)
    (hok : r.status ≠ .ok) : ∃ e, (openSession base).run w calls = (.error e, calls ++ [.http q []]) := by
  refine ⟨refusal "fetch token" r, ?_⟩
  rw [request?_start] at h
  unfold openSession
  simp [run_bind, h, run_send_of_reply hr, hok]

namespace Stage

variable {stage next : Stage}

/-- All requests but the first are made alike. -/
theorem rest_eq_get (base : String) (hne : stage ≠ .start) (hd : ∀ c, stage ≠ .done c) : ∃ uri token k,
    stage.request? base = Http.Request.build? .get uri [(.metadataToken, token)] ∧
      stage.rest base = (get uri token >>= k : Source) := by
  cases stage with
  | start => exact absurd rfl hne
  | opened token => exact ⟨rolesUri base, token, _, rfl, by rw [rest, fetch_eq, map_bind]⟩
  | chosen token role => exact ⟨rolesUri base ++ role, token, _, rfl, by rw [rest, map_bind]⟩
  | done c => exact absurd rfl (hd c)

theorem ne_done (hq : stage.request? base = some q) (c : Credential) : stage ≠ .done c := by
  rintro rfl
  cases hq

/-- A session whose first request is not answered comes to nothing. -/
theorem rest_start_of_no_reply (hq : start.request? base = some q) (hr : w.reply? calls q = none) :
    (start.rest base).run w calls = (.ok none, calls ++ w.noted q) :=
  run_bind_of_ok (openSession_of_no_reply hq hr)

theorem rest_of_no_reply (hq : stage.request? base = some q) (hne : stage ≠ .start) (hr : w.reply? calls q = none) :
    ∃ e, (stage.rest base).run w calls = (.error e, calls ++ w.noted q) := by
  obtain ⟨uri, token, k, hget, hrest⟩ := rest_eq_get base hne (ne_done hq)
  obtain ⟨e, hrun⟩ := get_of_no_reply (hget ▸ hq) hr
  exact ⟨e, hrest ▸ run_bind_of_error hrun⟩

theorem rest_of_no_request (h : stage.request? base = none) (hd : ∀ c, stage ≠ .done c) :
    ∃ e, (stage.rest base).run w calls = (.error e, calls) := by
  by_cases hne : stage = .start
  · obtain rfl := hne
    obtain ⟨e, hrun⟩ : ∃ e, (openSession base).run w calls = (.error e, calls) := openSession_of_no_request h
    exact ⟨e, run_bind_of_error hrun⟩
  · obtain ⟨uri, token, k, hget, hrest⟩ := rest_eq_get base hne hd
    obtain ⟨e, hrun⟩ : ∃ e, (get uri token).run w calls = (.error e, calls) := get_of_no_request (hget ▸ h)
    exact ⟨e, hrest ▸ run_bind_of_error hrun⟩

/-- No stage takes an answer without success. -/
theorem rest_of_refusal (hq : stage.request? base = some q) (hr : w.reply? calls q = some r) (hok : r.status ≠ .ok) :
    ∃ e, (stage.rest base).run w calls = (.error e, calls ++ [.http q []]) := by
  by_cases hne : stage = .start
  · obtain rfl := hne
    obtain ⟨e, hrun⟩ := openSession_of_refusal hq hr hok
    exact ⟨e, run_bind_of_error hrun⟩
  · obtain ⟨uri, token, k, hget, hrest⟩ := rest_eq_get base hne (ne_done hq)
    obtain ⟨e, hrun⟩ := get_of_refusal (hget ▸ hq) hr hok
    exact ⟨e, hrest ▸ run_bind_of_error hrun⟩

theorem rest_opened {token : String} (hq : (opened token).request? base = some q) (hr : w.reply? calls q = some r)
    (hok : r.status = .ok) : ((opened token).rest base).run w calls =
      (orFail InstanceMetadata.noRole (firstRole? r.text) >>= fun role =>
        (chosen token role).rest base : Source).run w (calls ++ [.http q []]) := by
  have hget : (get (rolesUri base) token).run w calls = (.ok r.text, _) := get_of_ok hq hr hok
  rw [rest, fetch_eq, map_bind, run_bind_of_ok hget, map_bind]
  rfl

theorem rest_chosen {token role : String} (hq : (chosen token role).request? base = some q)
    (hr : w.reply? calls q = some r) (hok : r.status = .ok) :
    ((chosen token role).rest base).run w calls = ((accept role r.text).map some, calls ++ [.http q []]) := by
  have hget : (get (rolesUri base ++ role) token).run w calls = (.ok r.text, _) := get_of_ok hq hr hok
  rw [rest, map_bind, run_bind_of_ok hget, run_map, run_lift]

theorem fault?_eq_none {a : Answer} : a.fault? = none ↔ a.code = "Success" := by
  unfold Answer.fault?
  split_ifs with h <;> simp [h]

theorem accept_of_faulty {token role : String} (hok : r.status = .ok) (h : (chosen token role).Faulty r) :
    ∃ e, accept role r.text = .error e := by
  unfold accept
  cases h with
  | refused h => exact absurd hok h
  | unreadable h => exact ⟨_, by rw [h]; rfl⟩
  | failed hread h =>
    obtain ⟨e, he⟩ := Option.ne_none_iff_exists'.1 (mt fault?_eq_none.1 h)
    exact ⟨_, by rw [hread, Option.elim_some, he]; rfl⟩
  | @undated _ _ _ a hread h =>
    rw [hread, Option.elim_some]
    cases hf : a.fault? with
    | some e => exact ⟨_, rfl⟩
    | none => exact ⟨_, by rw [Option.elim_none, Rfc3339.parse, h]; rfl⟩

/-- A faulty answer is the last one. -/
theorem rest_of_faulty (hq : stage.request? base = some q) (hr : w.reply? calls q = some r) (h : stage.Faulty r) :
    ∃ e, (stage.rest base).run w calls = (.error e, calls ++ [.http q []]) := by
  by_cases hok : r.status = .ok
  · cases stage with
    | start => cases h with | refused h => exact absurd hok h
    | opened token =>
      cases h with
      | refused h => exact absurd hok h
      | noRole h => exact ⟨_, by rw [rest_opened hq hr hok, firstRole?_eq_none.2 h]; rfl⟩
    | chosen token role =>
      obtain ⟨e, he⟩ := accept_of_faulty hok h
      exact ⟨e, by rw [rest_chosen hq hr hok, he]; rfl⟩
    | done c => cases hq
  · exact rest_of_refusal hq hr hok

/-- After a good answer the run goes on at the next stage. -/
theorem rest_of_leads (hq : stage.request? base = some q) (hr : w.reply? calls q = some r) (h : stage.Leads r next) :
    (stage.rest base).run w calls = (next.rest base).run w (calls ++ [.http q []]) := by
  cases h with
  | opens hok => rw [rest, run_bind_of_ok (openSession_of_ok hq hr hok), Option.elim_some, rest]
  | chooses hok hfirst =>
    rw [rest_opened hq hr hok, firstRole?_eq_some.2 hfirst]
    rfl
  | @grants _ token role a t hok hread hcode hexpiry =>
    have haccept : accept role r.text = .ok (a.credential t) := by
      rw [accept, hread, Option.elim_some, fault?_eq_none.2 hcode, Option.elim_none, Rfc3339.parse, hexpiry]
      rfl
    rw [rest_chosen hq hr hok, haccept, rest, run_pure]
    rfl

/-- How a run ends at the last stage that it reaches: with the credential, with nothing, or with an error. -/
theorem rest_of_isLast (h : stage.IsLast base w calls) :
    (∃ c, stage = .done c ∧ (stage.rest base).run w calls = (.ok (some c), calls)) ∨
    (∃ q, stage = .start ∧ stage.request? base = some q ∧ w.reply? calls q = none ∧
      (stage.rest base).run w calls = (.ok none, calls ++ w.noted q)) ∨
    ∃ e made, (stage.rest base).run w calls = (.error e, calls ++ made) ∧
      (made = [] ∨ ∃ q, stage.request? base = some q ∧ made = w.noted q) := by
  cases hq : stage.request? base with
  | none =>
    by_cases hd : ∃ c, stage = .done c
    · obtain ⟨c, rfl⟩ := hd
      exact .inl ⟨c, rfl, rfl⟩
    · obtain ⟨e, hrun⟩ : ∃ e, (stage.rest base).run w calls = (.error e, calls) :=
        rest_of_no_request hq (not_exists.1 hd)
      exact .inr (.inr ⟨e, [], by rw [hrun, List.append_nil], .inl rfl⟩)
  | some q =>
    cases hr : w.reply? calls q with
    | none =>
      by_cases hne : stage = .start
      · obtain rfl := hne
        exact .inr (.inl ⟨q, rfl, rfl, hr, rest_start_of_no_reply hq hr⟩)
      · obtain ⟨e, hrun⟩ := rest_of_no_reply hq hne hr
        exact .inr (.inr ⟨e, _, hrun, .inr ⟨q, rfl, rfl⟩⟩)
    | some r =>
      obtain ⟨e, hrun⟩ := rest_of_faulty hq hr (h q r hq hr)
      exact .inr (.inr ⟨e, _, hrun, .inr ⟨q, rfl, (World.noted_of_reply hr).symm⟩⟩)

end Stage

/-! ## Whole runs -/

namespace Reaches

variable {front : List Call} {stage : Stage}

/-- A session has three requests, made or left. -/
theorem length_add_left (h : Reaches base w before front stage) : front.length + stage.left = 3 := by
  induction h with
  | start => rfl
  | step _ _ _ leads ih =>
    rw [List.length_append, List.length_singleton, ← ih]
    cases leads <;> rfl

/-- What is left of a run at a stage that it has reached. -/
theorem run_eq (h : Reaches base w before front stage) :
    (Stage.start.rest base).run w before = (stage.rest base).run w (before ++ front) := by
  induction h with
  | start => rw [List.append_nil]
  | step _ asked answered leads ih => rw [ih, Stage.rest_of_leads asked answered leads, List.append_assoc]

theorem exists_last {front : List Call} {stage : Stage} (h : Reaches base w before front stage) :
    ∃ front stage, Reaches base w before front stage ∧ stage.IsLast base w (before ++ front) := by
  by_cases hlast : stage.IsLast base w (before ++ front)
  · exact ⟨front, stage, h, hlast⟩
  · simp only [Stage.IsLast, not_forall] at hlast
    obtain ⟨q, r, hq, hr, hnot⟩ := hlast
    obtain ⟨next, hleads⟩ := (Stage.leads_or_faulty hq r).resolve_right hnot
    exact exists_last (h.step hq hr hleads)
termination_by stage.left
decreasing_by exact hleads.left_lt

theorem front_of_start (h : Reaches base w before front .start) : front = [] := by
  cases h with
  | start => rfl
  | step _ _ _ leads => cases leads

/-- A run that is allowed to start goes as far as it comes. -/
theorem exists_end (base : String) (w : World) (before : List Call) :
    ∃ made result, (Stage.start.rest base).run w before = (result, before ++ made) ∧
      (∃ front stage, Reaches base w before front stage ∧
        (made = front ∨ ∃ q, stage.request? base = some q ∧ made = front ++ w.noted q)) ∧
      (result = .ok none → ∃ q, Stage.start.request? base = some q ∧ w.reply? before q = none) ∧
      ∀ c, result = .ok (some c) → Reaches base w before made (.done c) := by
  obtain ⟨front, stage, hreaches, hlast⟩ := exists_last (.start : Reaches base w before [] .start)
  have hrun := hreaches.run_eq
  rcases Stage.rest_of_isLast hlast with ⟨c, rfl, hdone⟩ | ⟨q, rfl, hq, hr, hnone⟩ | ⟨e, made, herror, hmade⟩
  · refine ⟨front, _, hrun.trans hdone, ⟨front, _, hreaches, .inl rfl⟩, nofun, ?_⟩
    intro c' hc
    cases hc
    exact hreaches
  · obtain rfl := hreaches.front_of_start
    rw [List.append_nil] at hr hrun hnone
    exact ⟨w.noted q, .ok none, hrun.trans hnone, ⟨[], _, hreaches, .inr ⟨q, hq, rfl⟩⟩, fun _ => ⟨q, hq, hr⟩, nofun⟩
  · refine ⟨front ++ made, .error e, ?_, ⟨front, stage, hreaches, ?_⟩, nofun, nofun⟩
    · rw [hrun, herror, List.append_assoc]
    · rcases hmade with rfl | ⟨q, hq, rfl⟩
      · exact .inl (List.append_nil _)
      · exact .inr ⟨q, hq, rfl⟩

end Reaches

/-- A run makes the requests of a session as far as it comes. It ends with nothing only when it is not allowed to
start or when nobody answers the first request, with an error right after a faulty answer, and with a credential when
all three answers lead on. -/
theorem session_runs (s : Settings) (w : World) (before : List Call) :
    ∃ made result, (instanceMetadata s).run w before = (result, before ++ made) ∧
      s.IsBase w (s.base w) ∧
      (∃ front stage, Reaches (s.base w) w before front stage ∧
        (made = front ∨ ∃ q, stage.request? (s.base w) = some q ∧ made = front ++ w.noted q)) ∧
      (s.IsOff w → made = []) ∧
      (result = .ok none ↔
        s.IsOff w ∨ ∃ q, Stage.start.request? (s.base w) = some q ∧ w.reply? before q = none) ∧
      (¬ s.IsOff w → ∀ front stage q, Reaches (s.base w) w before front stage →
        stage.request? (s.base w) = some q →
        (∀ r, w.reply? (before ++ front) q = some r → stage.Faulty r →
          made = front ++ [.http q []] ∧ ∃ e, result = .error e) ∧
        (w.reply? (before ++ front) q = none → stage ≠ .start → ∃ e, result = .error e)) ∧
      ∀ c, result = .ok (some c) ↔ ¬ s.IsOff w ∧ Reaches (s.base w) w before made (.done c) := by
  have hbase := isBase_base s w
  rw [instanceMetadata_eq]
  by_cases hd : s.IsOff w
  · refine ⟨[], .ok none, ?_, hbase, ⟨[], _, .start, .inl rfl⟩, fun _ => rfl, ?_, ?_, ?_⟩
    · rw [if_pos (isDisabled_iff.2 hd), List.append_nil]
    · simp [hd]
    · simp [hd]
    · simp [hd]
  · obtain ⟨made, result, hrun, hsession, hnone, hsome⟩ := Reaches.exists_end (s.base w) w before
    refine ⟨made, result, ?_, hbase, hsession, fun h => absurd h hd, ⟨fun h => .inr (hnone h), ?_⟩, ?_, ?_⟩
    · rw [if_neg (mt isDisabled_iff.1 hd), hrun]
    · rintro (h | ⟨q, hq, hr⟩)
      · exact absurd h hd
      · rw [Stage.rest_start_of_no_reply hq hr] at hrun
        exact (congrArg Prod.fst hrun).symm
    · intro _ front stage q hreaches hq
      rw [hreaches.run_eq] at hrun
      constructor
      · intro r hr hfaulty
        obtain ⟨e, herror⟩ := Stage.rest_of_faulty hq hr hfaulty
        rw [herror, List.append_assoc, Prod.mk.injEq, List.append_cancel_left_eq] at hrun
        exact ⟨hrun.2.symm, e, hrun.1.symm⟩
      · intro hr hne
        obtain ⟨e, herror⟩ := Stage.rest_of_no_reply hq hne hr
        rw [herror] at hrun
        exact ⟨e, (congrArg Prod.fst hrun).symm⟩
    · intro c
      refine ⟨fun h => ⟨hd, hsome c h⟩, fun ⟨_, hreaches⟩ => ?_⟩
      rw [hreaches.run_eq] at hrun
      exact (congrArg Prod.fst hrun).symm

/-- A service at an endpoint of its own that has keys for a role. -/
def granting : World where
  now := ⟨0, 0⟩
  environment := [(Variable.metadataDisabled, "no"), (Variable.metadataEndpoint, "http://imds.test//")]
  http := some fun calls _ _ => .ok ⟨.ok, match calls.length with
    | 0 => utf8 "token"
    | 1 => utf8 " \r\n role \nother"
    | _ => utf8 "\x7b\"Code\":\"Success\"," ++ utf8 "\"AccessKeyId\":\"AKID\"," ++ utf8 "\"SecretAccessKey\":\"secret\","
      ++ utf8 "\"Expiration\":\"1970-01-02T00:00:00Z\"\x7d"⟩

/-- The same service, switched off. -/
def switchedOff : World := { granting with environment := [(Variable.metadataDisabled, "TruE")] }

theorem session_runs_granting :
    (∃ made, (instanceMetadata {}).run granting [] =
      (.ok (some ⟨"AKID", "secret", none, some ⟨86400, 0⟩⟩), made) ∧ made.length = 3 ∧
      Reaches "http://imds.test" granting [] made (.done ⟨"AKID", "secret", none, some ⟨86400, 0⟩⟩)) ∧
    (instanceMetadata {}).run switchedOff [] = (.ok none, []) := by
  constructor
  · have hbase : ({} : Settings).base granting = "http://imds.test" := by decide +kernel
    obtain ⟨after, hafter⟩ : ∃ after, (instanceMetadata {}).run granting [] =
        (.ok (some ⟨"AKID", "secret", none, some ⟨86400, 0⟩⟩), after) :=
      ⟨_, run_eq_ok (Prod.ext (by decide +kernel) rfl)⟩
    obtain ⟨made, result, hrun, -, -, -, -, -, hdone⟩ := session_runs {} granting []
    rw [List.nil_append] at hrun
    obtain ⟨rfl, rfl⟩ := Prod.mk.inj (hafter.symm.trans hrun)
    rw [hbase] at hdone
    obtain ⟨-, hreaches⟩ := (hdone _).1 rfl
    exact ⟨after, hafter, hreaches.length_add_left, hreaches⟩
  · have hoff : ({} : Settings).IsOff switchedOff := .inr ⟨"TruE", rfl, by decide⟩
    obtain ⟨made, result, hrun, -, -, hsilent, hnone, -⟩ := session_runs {} switchedOff []
    obtain rfl := hsilent hoff
    rw [hrun, hnone.2 (.inl hoff)]
    rfl

/-- A machine that gives a new token for each session, and no keys. -/
def rotating : World where
  now := ⟨0, 0⟩
  http := some fun calls _ _ => .ok ⟨.ok, utf8 (match calls.length % 3 with
    | 0 => s!"token-{calls.length}"
    | 1 => " \r\n role \nother"
    | _ => "")⟩

/-- The values of the token in the requests of a list of calls. -/
def tokensOf (calls : List Call) : List (List Bytes) := calls.map fun call => match call with
  | .http q _ => (q.header.values .metadataToken).map (·.bytes)
  | _ => []

/-- The second of two sessions has its own token. -/
example : tokensOf ((do _ ← (instanceMetadata {}).attempt; instanceMetadata {}).run rotating []).2 =
    [[], [utf8 "token-0"], [utf8 "token-0"], [], [utf8 "token-3"], [utf8 "token-3"]] := by decide +kernel

end Source.InstanceMetadata

end SigV4
