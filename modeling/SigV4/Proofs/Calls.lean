import SigV4.Proofs.BrokenChain
import SigV4.Source.Default
/-!
# Who is called

Every call of a source is to a file, to a program, to the platform's own services or to the token service.
The last ones carry a form and all others do not, so the calls of a source are described by the endpoint
that it has chosen for its exchanges: `Call.Within`.
-/

namespace SigV4

/-- A file, a program, or a request without a form. -/
def Call.IsPlain : Call → Prop
  | .http q _ => q.header.contains .contentType = false
  | _ => True

/-- A plain call, or an exchange at the endpoint. -/
inductive Call.Within (endpoint : Except Error Sts.Endpoint) : Call → Prop where
  | plain {call : Call} (h : call.IsPlain) : Within endpoint call
  | exchange {x : Sts.Exchange} {now : Time} {q : Http.Request} (there : endpoint = .ok x.endpoint)
      (sent : x.request now = .ok q) : Within endpoint (.http q [])

/-! ## Calls of a computation -/

namespace Resolve

/-- Each call is of a kind that depends on all calls before it. -/
def Proceeds {α : Type} (P : List Call → Call → Prop) (x : Resolve α) (w : World) (before : List Call) : Prop :=
  ∃ made, (x.run w before).2 = before ++ made ∧
    ∀ front call rest, made = front ++ call :: rest → P (before ++ front) call

/-- All calls of the computation are of a kind. -/
def Makes {α : Type} (P : Call → Prop) (x : Resolve α) (w : World) (before : List Call) : Prop :=
  ∃ made, (x.run w before).2 = before ++ made ∧ ∀ call ∈ made, P call

section
variable {α β : Type} {P Q : List Call → Call → Prop} {x : Resolve α} {f : α → Resolve β} {w : World}
  {before : List Call}

theorem proceeds_of_silent (h : (x.run w before).2 = before) : x.Proceeds P w before := by
  refine ⟨[], by rw [h, List.append_nil], ?_⟩
  intro front call rest hsplit
  cases front <;> cases hsplit

/-- What follows comes after the calls so far, and may rely on the outcome. -/
theorem Proceeds.bind (hx : x.Proceeds P w before)
    (hf : ∀ a after, x.run w before = (.ok a, after) → (f a).Proceeds P w after) : (x >>= f).Proceeds P w before := by
  obtain ⟨made, hrun, hmade⟩ := hx
  unfold Proceeds
  rw [run_bind]
  rcases hres : x.run w before with ⟨e | a, after⟩
  · rw [hres] at hrun
    exact ⟨made, hrun, hmade⟩
  obtain ⟨more, hrun', hmore⟩ := hf a after hres
  rw [hres] at hrun
  obtain rfl : after = before ++ made := hrun
  refine ⟨made ++ more, by rw [← List.append_assoc]; exact hrun', ?_⟩
  intro front call rest hsplit
  -- the call is one of the first computation or comes after all of them
  rcases List.append_eq_append_iff.1 hsplit with ⟨others, hfront, hmore'⟩ | ⟨others, hmade', hrest⟩
  · rw [hfront, ← List.append_assoc]
    exact hmore others call rest hmore'
  · cases others with
    | nil =>
      rw [List.append_nil] at hmade'
      rw [← hmade', ← List.append_nil (before ++ made)]
      exact hmore [] call rest (by simpa using hrest.symm)
    | cons call' others =>
      obtain ⟨rfl, -⟩ := List.cons.inj hrest
      exact hmade front call others hmade'

theorem Proceeds.map (hx : x.Proceeds P w before) (g : α → β) : (g <$> x).Proceeds P w before := by
  unfold Proceeds
  rw [run_map]
  exact hx

theorem Proceeds.mapError (hx : x.Proceeds P w before) (g : Error → Error) :
    (x.mapError g).Proceeds P w before := by
  unfold Proceeds
  rw [run_mapError]
  exact hx

theorem Proceeds.mono (hx : x.Proceeds P w before) (h : ∀ calls call, P calls call → Q calls call) :
    x.Proceeds Q w before := by
  obtain ⟨made, hrun, hmade⟩ := hx
  exact ⟨made, hrun, fun front call rest hsplit => h _ _ (hmade front call rest hsplit)⟩

end

section
variable {α β : Type} {P Q : Call → Prop} {x : Resolve α} {f : α → Resolve β} {w : World} {before : List Call}

/-- The calls before make no difference to the kind. -/
theorem makes_iff_proceeds : x.Makes P w before ↔ x.Proceeds (fun _ => P) w before := by
  refine exists_congr fun made => and_congr_right fun _ => ?_
  constructor
  · rintro h front call rest rfl
    exact h call (by simp)
  · intro h call hcall
    obtain ⟨front, rest, hsplit⟩ := List.append_of_mem hcall
    exact h front call rest hsplit

theorem Makes.proceeds {K : List Call → Call → Prop} (hx : x.Makes P w before)
    (h : ∀ calls call, P call → K calls call) : x.Proceeds K w before :=
  (makes_iff_proceeds.1 hx).mono h

theorem makes_of_silent (h : (x.run w before).2 = before) : x.Makes P w before :=
  makes_iff_proceeds.2 (proceeds_of_silent h)

theorem makes_pure (a : α) : (pure a : Resolve α).Makes P w before := makes_of_silent rfl

theorem makes_fail (e : Error) : (fail e : Resolve α).Makes P w before := makes_of_silent rfl

theorem makes_lift (r : Except Error α) : (lift r).Makes P w before := makes_of_silent (by rw [run_lift])

theorem makes_orFail (e : Error) (o : Option α) : (orFail e o).Makes P w before := makes_of_silent (by rw [run_orFail])

theorem makes_now : now.Makes P w before := makes_of_silent rfl

theorem makes_filled? (name : String) : (filled? name).Makes P w before := makes_of_silent rfl

theorem makes_expandHome (path : String) : (expandHome path).Makes P w before := makes_of_silent rfl

theorem makes_ask {call : Call} (h : P call) (answer : List Call → Except Error α) :
    (ask call answer).Makes P w before := by
  refine ⟨[call], rfl, ?_⟩
  intro made hmade
  rwa [List.mem_singleton.1 hmade]

theorem Makes.mono (hx : x.Makes P w before) (h : ∀ call, P call → Q call) : x.Makes Q w before :=
  makes_iff_proceeds.2 (hx.proceeds fun _ => h)

/-- What follows may rely on the outcome so far. -/
theorem Makes.bind (hx : x.Makes P w before) (hf : ∀ a after, x.run w before = (.ok a, after) → (f a).Makes P w after) :
    (x >>= f).Makes P w before :=
  makes_iff_proceeds.2 ((makes_iff_proceeds.1 hx).bind fun a after h => makes_iff_proceeds.1 (hf a after h))

theorem Makes.andThen (hx : x.Makes P w before) (hf : ∀ a after, (f a).Makes P w after) :
    (x >>= f).Makes P w before :=
  hx.bind fun a after _ => hf a after

theorem Makes.map (hx : x.Makes P w before) (g : α → β) : (g <$> x).Makes P w before := by
  unfold Makes
  rw [run_map]
  exact hx

theorem Makes.attempt (hx : x.Makes P w before) : x.attempt.Makes P w before := by
  unfold Makes
  rw [run_attempt]
  exact hx

theorem Makes.mapError (hx : x.Makes P w before) (g : Error → Error) : (x.mapError g).Makes P w before := by
  unfold Makes
  rw [run_mapError]
  exact hx

theorem makes_read {f : World → Resolve β} (h : (f w).Makes P w before) :
    ((read : Resolve World) >>= f).Makes P w before := by
  unfold Makes
  rw [run_bind]
  exact h

theorem makes_foldlM {γ : Type} {g : β → γ → Resolve β} {cs : List γ}
    (h : ∀ c ∈ cs, ∀ b calls, (g b c).Makes P w calls) (b : β) : (cs.foldlM g b).Makes P w before := by
  induction cs generalizing b before with
  | nil => exact makes_pure b
  | cons c cs ih =>
    rw [List.forall_mem_cons] at h
    rw [List.foldlM_cons]
    exact (h.1 b before).andThen fun b' after => ih h.2 b'

/-- An answer that may be left out. -/
theorem makes_mapM {f : α → Resolve β} (h : ∀ a calls, (f a).Makes P w calls) (o : Option α) :
    (o.mapM f).Makes P w before := by
  cases o with
  | none => exact makes_pure none
  | some a => exact (h a before).map some

theorem makes_fileText (path : String) (h : P (.file path)) : (fileText path).Makes P w before := by
  have hbytes : (fileBytes path).Makes P w before := by
    apply makes_read
    cases w.file with
    | none => exact makes_fail _
    | some answer => exact makes_ask h _
  refine hbytes.andThen fun bs after => ?_
  cases Utf8.fault? bs with
  | none => exact makes_pure _
  | some fault => exact makes_fail _

theorem makes_send (q : Http.Request) (body : Bytes) (h : P (.http q body)) : (send q body).Makes P w before := by
  apply makes_read
  cases w.http with
  | none => exact makes_fail _
  | some answer => exact makes_ask h _

theorem makes_execute (program : String) (arguments : List String) (h : P (.command program arguments)) :
    (execute program arguments).Makes P w before := by
  apply makes_read
  cases w.command with
  | none => exact makes_fail _
  | some answer => exact makes_ask h _

end

end Resolve

/-! ## Requests and their answers -/

/-- The answer to a request, if it is sent and there is one. -/
def World.reply? (w : World) (calls : List Call) (q : Http.Request) : Option Http.Response :=
  w.http.bind fun answer => (answer calls q []).toOption

/-- What is noted of a request: nothing when nobody can send it. -/
def World.noted (w : World) (q : Http.Request) : List Call := if w.http.isSome then [.http q []] else []

theorem World.reply?_eq_some {w : World} {calls : List Call} {q : Http.Request} {r : Http.Response} :
    w.reply? calls q = some r ↔ ∃ answer, w.http = some answer ∧ answer calls q [] = .ok r := by
  unfold reply?
  rw [Option.bind_eq_some_iff]
  refine exists_congr fun answer => and_congr_right fun _ => ?_
  cases answer calls q [] <;> simp [Except.toOption]

theorem World.noted_of_reply {w : World} {calls : List Call} {q : Http.Request} {r : Http.Response}
    (h : w.reply? calls q = some r) : w.noted q = [.http q []] := by
  obtain ⟨answer, hw, -⟩ := reply?_eq_some.1 h
  rw [noted, hw, Option.isSome_some, if_pos rfl]

namespace Resolve

variable {α : Type} {w : World} {before : List Call} {q : Http.Request} {r : Http.Response}

theorem run_send_of_reply (h : w.reply? before q = some r) :
    (send q []).run w before = (.ok r, before ++ [.http q []]) := by
  obtain ⟨answer, hw, hanswer⟩ := World.reply?_eq_some.1 h
  simp [send, run_bind, hw, hanswer]

theorem run_send_of_no_reply (h : w.reply? before q = none) :
    ∃ e, (send q []).run w before = (.error e, before ++ w.noted q) := by
  cases hw : w.http with
  | none => exact ⟨_, by simp [send, run_bind, World.noted, hw]; rfl⟩
  | some answer =>
    cases ha : answer before q [] with
    | error e => exact ⟨e, by simp [send, run_bind, World.noted, hw, ha]⟩
    | ok r => simp [World.reply?, hw, ha, Except.toOption] at h

theorem silent_of_makes {x : Resolve α} (h : x.Makes (fun _ => False) w before) : (x.run w before).2 = before := by
  obtain ⟨made, hrun, hmade⟩ := h
  rw [hrun, List.eq_nil_iff_forall_not_mem.2 hmade, List.append_nil]

/-- A request that is sent if it can be put together, before something that calls nobody. -/
theorem run_asked (e : Error) (o : Option Http.Request) (f : Error → Error) {g : Http.Response → Resolve α}
    (hg : ∀ r calls, ((g r).run w calls).2 = calls) :
    ((orFail e o >>= fun q => (send q []).mapError f >>= g).run w before).2 =
      before ++ o.toList.flatMap w.noted := by
  cases o with
  | none => simp [run_bind]
  | some q =>
    cases hr : w.reply? before q with
    | none =>
      obtain ⟨e, hsend⟩ := run_send_of_no_reply hr
      simp [run_bind, hsend, Except.mapError]
    | some r => simp [run_bind, run_send_of_reply hr, Except.mapError, hg, World.noted_of_reply hr]

end Resolve

open Resolve

variable {w : World} {before : List Call}

/-! ## The platform and its programs -/

namespace Http.Request

variable {method : Http.Method} {uri : String} {fields : List (Http.FieldName × String)} {q : Request}

/-- A request that holds the given texts and no others. -/
structure BuiltFrom (method : Http.Method) (uri : String) (fields : List (Http.FieldName × String)) (q : Request) :
    Prop where
  method : q.method = method
  uri : Uri.ofText? uri = some q.uri
  fields : (q.header.fields.map fun f => (f.1, f.2.bytes)) = fields.map fun f => (f.1, utf8 f.2)

theorem builtFrom_of_build? (h : build? method uri fields = some q) : BuiltFrom method uri fields q := by
  obtain ⟨u, hu, hrest⟩ := Option.bind_eq_some_iff.1 h
  obtain ⟨built, hbuilt, hq⟩ := Option.bind_eq_some_iff.1 hrest
  rw [← Option.some.inj hq]
  refine ⟨rfl, hu, ?_⟩
  clear h hrest hq
  change (built.map fun f => (f.1, f.2.bytes)) = fields.map fun f => (f.1, utf8 f.2)
  induction fields generalizing built with
  | nil =>
    obtain rfl : [] = built := by simpa using hbuilt
    rfl
  | cons f fields ih =>
    simp only [List.mapM_cons, Option.bind_eq_bind, Option.bind_eq_some_iff, Option.map_eq_some_iff] at hbuilt
    obtain ⟨-, ⟨v, hv, rfl⟩, rest, hrest, hbuilt⟩ := hbuilt
    have hbytes : v.bytes = utf8 f.2 := by
      unfold FieldValue.ofBytes? at hv
      split at hv <;> cases hv
      rfl
    rw [← Option.some.inj hbuilt, List.map_cons, List.map_cons, ih rest hrest, hbytes]

/-- The values under a name are the texts given under it. -/
theorem BuiltFrom.values_eq (h : BuiltFrom method uri fields q) (n : FieldName) :
    (q.header.values n).map (·.bytes) = fields.filterMap fun f => if f.1 = n then some (utf8 f.2) else none := by
  have hvalues : ∀ fs : List (FieldName × FieldValue), (Header.values ⟨fs⟩ n).map (·.bytes) =
      (fs.map fun f => (f.1, f.2.bytes)).filterMap fun f => if f.1 = n then some f.2 else none := by
    intro fs
    rw [Header.values, List.map_filterMap, List.filterMap_map]
    refine List.filterMap_congr fun f _ => ?_
    by_cases hf : f.1 = n <;> simp [hf]
  rw [hvalues, h.fields, List.filterMap_map]
  rfl

theorem names_build (h : build? method uri fields = some q) : q.header.fields.map (·.1) = fields.map (·.1) := by
  have hnames := congrArg (List.map Prod.fst) (builtFrom_of_build? h).fields
  rwa [List.map_map, List.map_map] at hnames

end Http.Request

/-- A request that is put together without a form is plain. -/
theorem Resolve.makes_built {β : Type} {P : Call → Prop} {method : Http.Method} {uri : String}
    {fields : List (Http.FieldName × String)} {f : Http.Request → Resolve β} (e : Error)
    (hform : .contentType ∉ fields.map (·.1))
    (hf : ∀ q, (Call.http q []).IsPlain → ∀ after, (f q).Makes P w after) :
    (orFail e (Http.Request.build? method uri fields) >>= f).Makes P w before := by
  cases hb : Http.Request.build? method uri fields with
  | none => exact makes_of_silent rfl
  | some q =>
    refine (makes_orFail e (some q)).bind fun q' after hq' => ?_
    obtain rfl : q = q' := Except.ok.inj (congrArg Prod.fst hq')
    refine hf q ?_ after
    rw [← Http.Request.names_build hb] at hform
    simp only [Call.IsPlain, Http.Header.contains, List.any_eq_false, decide_eq_true_eq]
    intro field hfield hname
    exact hform (List.mem_map.2 ⟨field, hfield, hname⟩)

namespace Source

theorem Container.makes_fetch (uri : String) (token : Option String) :
    (Container.fetch uri token).Makes Call.IsPlain w before := by
  have hform : .contentType ∉ (token.toList.map (Http.FieldName.authorization, ·)).map (·.1) := by
    cases token with
    | none => exact List.not_mem_nil
    | some token => simp [Http.FieldName.authorization, Http.FieldName.contentType]; decide
  refine makes_built _ hform fun q hq after => ((makes_send q [] hq).mapError _).andThen fun response after => ?_
  have hanswer : ∀ calls, (do
      let answer ← orFail Container.unreadable (Container.Answer.read? response.text)
      let expiry ← answer.expiration.mapM fun t => lift (Rfc3339.parse t)
      return (⟨answer.accessKeyId, answer.secretAccessKey, answer.token.bind Text.nonEmpty?, expiry⟩ : Credential)
      : Resolve Credential).Makes Call.IsPlain w calls := by
    intro calls
    refine (makes_orFail _ _).andThen fun answer after => ?_
    exact (makes_mapM (fun t calls => makes_lift _) _).andThen fun expiry after => makes_pure _
  split
  · exact (makes_fail _).andThen fun _ => hanswer
  · exact hanswer after

theorem makes_container (s : Container.Settings) : (container s).Makes Call.IsPlain w before := by
  apply makes_read
  cases s.uri? w with
  | none => exact makes_pure _
  | some uri => exact (makes_filled? _).andThen fun token after => (Container.makes_fetch uri token).map _

namespace InstanceMetadata

theorem makes_openSession (base : String) : (openSession base).Makes Call.IsPlain w before := by
  refine makes_built _ (by decide) fun q hq after => ?_
  refine (makes_send q [] hq).attempt.andThen fun response after => ?_
  cases response with
  | error e => exact makes_pure _
  | ok response =>
    change (if _ then _ else _ : Resolve (Option String)).Makes Call.IsPlain w after
    split
    · exact makes_pure _
    · exact makes_fail _

theorem makes_get (uri token : String) : (get uri token).Makes Call.IsPlain w before := by
  refine makes_built _ ?_ fun q hq after => ((makes_send q [] hq).mapError _).andThen fun response after => ?_
  · simp only [List.map_cons, List.map_nil]
    decide +kernel
  split
  · exact makes_pure _
  · exact makes_fail _

theorem makes_fetch (base token : String) : (fetch base token).Makes Call.IsPlain w before := by
  refine (makes_get _ _).andThen fun listing after => (makes_orFail _ _).andThen fun role after => ?_
  refine (makes_get _ _).andThen fun document after => (makes_orFail _ _).andThen fun answer after => ?_
  cases answer.fault? with
  | none => exact (makes_lift _).andThen fun expiry after => makes_pure _
  | some e => exact (makes_fail _).andThen fun _ after => (makes_lift _).andThen fun expiry after => makes_pure _

end InstanceMetadata

theorem makes_instanceMetadata (s : InstanceMetadata.Settings) :
    (instanceMetadata s).Makes Call.IsPlain w before := by
  apply makes_read
  split
  · exact makes_pure _
  · refine (InstanceMetadata.makes_openSession _).andThen fun token after => ?_
    cases token with
    | none => exact makes_pure _
    | some token => exact (InstanceMetadata.makes_fetch _ token).map _

/-- The environment is looked at and nobody is called. -/
theorem environment_silent : (environment.run w before).2 = before := by
  unfold environment
  simp only [run_bind, run_filled?]
  cases w.filled? Variable.accessKeyId <;> cases w.filled? Variable.secretAccessKey <;> rfl

theorem Process.makes_run (command : String) : (Process.run command).Makes Call.IsPlain w before := by
  unfold Process.run
  cases Text.words command with
  | nil => exact makes_fail _
  | cons program arguments =>
    refine (makes_execute program arguments trivial).andThen fun output after => ?_
    refine (makes_lift _).andThen fun out after => ?_
    exact (makes_mapM (fun t calls => makes_lift _) _).andThen fun expiry after => makes_pure _

/-- A source later in the list is asked only when those before it have nothing. -/
theorem makes_firstOf_cons {P : Call → Prop} {s : Source} {rest : List Source} (hs : s.Makes P w before)
    (hrest : ∀ after, s.run w before = (.ok none, after) → (firstOf rest).Makes P w after) :
    (firstOf (s :: rest)).Makes P w before := by
  refine hs.bind fun o after h => ?_
  cases o with
  | some c => exact makes_pure _
  | none => exact hrest after h

theorem makes_firstOf {P : Call → Prop} {sources : List Source} (h : ∀ s ∈ sources, ∀ calls, s.Makes P w calls) :
    (firstOf sources).Makes P w before := by
  induction sources generalizing before with
  | nil => exact makes_pure none
  | cons s rest ih =>
    rw [List.forall_mem_cons] at h
    exact makes_firstOf_cons (h.1 before) fun after _ => ih h.2

/-- The platform gives credentials of its own and exchanges none. -/
theorem makes_platform (c : Config) : (firstOf (Default.platform c)).Makes Call.IsPlain w before := by
  refine makes_firstOf fun s hs calls => ?_
  simp only [Default.platform, List.mem_cons, List.not_mem_nil, or_false] at hs
  rcases hs with rfl | rfl
  · exact makes_container {}
  · exact makes_instanceMetadata _

end Source

/-! ## Exchanges -/

/-- The one request of an exchange. -/
theorem Sts.Exchange.makes_request {P : Call → Prop} (x : Sts.Exchange)
    (h : ∀ q, x.request w.now = .ok q → P (.http q [])) : x.run.Makes P w before := by
  refine makes_now.bind fun t after ht => ?_
  obtain rfl : w.now = t := Except.ok.inj (congrArg Prod.fst ht)
  refine (makes_lift _).bind fun q after hq => ?_
  rw [run_lift, Prod.mk.injEq] at hq
  exact ((makes_send q [] (h q hq.1)).mapError _).andThen fun reply after => makes_lift _

theorem Sts.Exchange.makes_run (x : Sts.Exchange) : x.run.Makes (Call.Within (.ok x.endpoint)) w before :=
  x.makes_request fun _ => .exchange rfl

theorem Role.makes_assume (r : Role) (endpoint : Sts.Endpoint) (c : Credential) :
    (r.assume endpoint c).Makes (Call.Within (.ok endpoint)) w before := by
  refine makes_now.andThen fun t after => ?_
  exact (Sts.Exchange.makes_run (r.exchange endpoint c t)).mapError _

namespace Source

theorem WebIdentity.makes_token (file : String) : (WebIdentity.token file).Makes Call.IsPlain w before := by
  refine (makes_expandHome file).andThen fun path after => ?_
  refine ((makes_fileText _ trivial).mapError _).andThen fun text after => ?_
  split
  · exact (makes_fail _).andThen fun _ after => makes_pure _
  · exact makes_pure _

/-- The name of the session: the one that is set, or else that of the environment. -/
def WebIdentity.Settings.session (s : WebIdentity.Settings) (w : World) : String :=
  (s.sessionName <|> w.filled? Variable.roleSessionName).getD (Sts.sessionName w.now)

/-- The files and the one exchange of a web identity. -/
theorem WebIdentity.makes_exchange {P : Call → Prop} (hplain : ∀ call : Call, call.IsPlain → P call)
    (s : WebIdentity.Settings) (roleArn tokenFile : String)
    (h : ∀ endpoint token q, s.endpoint w = .ok endpoint →
      (exchange endpoint roleArn (s.session w) token).request w.now = .ok q → P (.http q [])) :
    (WebIdentity.assume s roleArn tokenFile).Makes P w before := by
  refine ((makes_token tokenFile).mono hplain).andThen fun token after => ?_
  refine (makes_filled? _).bind fun session after hsession => makes_now.bind fun t after hnow => makes_read ?_
  obtain rfl : w.filled? Variable.roleSessionName = session := Except.ok.inj (congrArg Prod.fst hsession)
  obtain rfl : w.now = t := Except.ok.inj (congrArg Prod.fst hnow)
  refine (makes_lift _).bind fun endpoint after he => ?_
  rw [run_lift, Prod.mk.injEq] at he
  exact (Sts.Exchange.makes_request _ fun q => h endpoint token q he.1).mapError _

theorem WebIdentity.makes_assume (s : WebIdentity.Settings) (roleArn tokenFile : String) :
    (WebIdentity.assume s roleArn tokenFile).Makes (Call.Within (s.endpoint w)) w before :=
  makes_exchange (fun _ => .plain) s roleArn tokenFile fun endpoint token _ there sent =>
    .exchange (x := exchange endpoint roleArn (s.session w) token) there sent

theorem webIdentity_run {s : WebIdentity.Settings} {roleArn tokenFile : String}
    (hr : (s.roleArn <|> w.filled? Variable.roleArn) = some roleArn)
    (ht : (s.tokenFile <|> w.filled? Variable.webIdentityTokenFile) = some tokenFile) :
    (webIdentity s).run w before = (some <$> WebIdentity.assume s roleArn tokenFile : Source).run w before := by
  unfold webIdentity
  simp only [run_bind, run_filled?, hr, ht]

/-- Without a role or without a token nobody is called. -/
theorem webIdentity_none {s : WebIdentity.Settings} (h : (s.roleArn <|> w.filled? Variable.roleArn) = none ∨
    (s.tokenFile <|> w.filled? Variable.webIdentityTokenFile) = none) :
    (webIdentity s).run w before = (.ok none, before) := by
  unfold webIdentity
  simp only [run_bind, run_filled?]
  rcases h with h | h
  · rw [h]
    rfl
  · rw [h]
    cases (s.roleArn <|> w.filled? Variable.roleArn) <;> rfl

/-- With both of them there is a credential or an error. -/
theorem webIdentity_ne_none {s : WebIdentity.Settings} {after : List Call}
    (hr : (s.roleArn <|> w.filled? Variable.roleArn).isSome)
    (ht : (s.tokenFile <|> w.filled? Variable.webIdentityTokenFile).isSome) :
    (webIdentity s).run w before ≠ (.ok none, after) := by
  obtain ⟨roleArn, hr⟩ := Option.isSome_iff_exists.1 hr
  obtain ⟨tokenFile, ht⟩ := Option.isSome_iff_exists.1 ht
  rw [webIdentity_run hr ht, run_map]
  rcases (WebIdentity.assume s roleArn tokenFile).run w before with ⟨e | c, calls⟩
  · exact fun h => nomatch h
  · exact fun h => nomatch h

namespace Profile

theorem makes_loadFiles (s : Settings) : (loadFiles s).Makes Call.IsPlain w before := by
  have hload : ∀ path calls, (loadFile path).Makes Call.IsPlain w calls := by
    intro path calls
    refine (makes_expandHome path).andThen fun expanded after => ?_
    cases expanded with
    | none => exact makes_pure _
    | some path =>
      refine (makes_fileText path trivial).attempt.andThen fun content after => ?_
      cases content with
      | error e => exact makes_pure _
      | ok text => exact makes_orFail _ _
  refine makes_read ((hload _ _).andThen fun credentials after => ?_)
  exact makes_read ((hload _ _).andThen fun config after => makes_pure _)

variable (s : Settings) (x : Exchanges)

theorem makes_place (p : SigV4.Profile.Place) : (place s p).Makes Call.IsPlain w before := by
  cases p with
  | environment => exact makes_of_silent environment_silent
  | instanceMetadata => exact makes_instanceMetadata s.metadata
  | container => exact makes_container {}

/-- Only a web identity needs an exchange. -/
theorem makes_base_of {P : Call → Prop} (hplain : ∀ call : Call, call.IsPlain → P call) (b : SigV4.Profile.Base)
    (hidentity : ∀ roleArn tokenFile sessionName, b = .webIdentity roleArn tokenFile sessionName →
      (WebIdentity.assume { sessionName, region := x.region, regional := some x.regional } roleArn
        tokenFile).Makes P w before) : (base s x b).Makes P w before := by
  cases b with
  | keys c => exact makes_pure c
  | webIdentity roleArn tokenFile sessionName => exact hidentity roleArn tokenFile sessionName rfl
  | process command => exact (Process.makes_run command).mono hplain
  | place p => exact ((makes_place s p).mono hplain).andThen fun o after => makes_orFail _ o

/-- A base that needs an exchange chooses the endpoint as all roles do. -/
theorem makes_base (hx : x.region.isSome) (b : SigV4.Profile.Base) :
    (base s x b).Makes (Call.Within (Sts.Endpoint.choose x.region x.regional)) w before := by
  refine makes_base_of s x (fun _ => .plain) b fun roleArn tokenFile sessionName _ => ?_
  let settings : WebIdentity.Settings := { sessionName, region := x.region, regional := some x.regional }
  have hendpoint : settings.endpoint w = Sts.Endpoint.choose x.region x.regional := by
    obtain ⟨region, hregion⟩ := Option.isSome_iff_exists.1 hx
    simp only [settings, WebIdentity.Settings.endpoint, hregion]
    rfl
  rw [← hendpoint]
  exact WebIdentity.makes_assume settings roleArn tokenFile

/-- What is called for the base and for each role is all that is called for a plan. -/
theorem makes_carryOut_of {P : Call → Prop} {plan : SigV4.Profile.Plan} (hbase : (base s x plan.base).Makes P w before)
    (hroles : ∀ r ∈ plan.roles, ∀ endpoint c calls, Sts.Endpoint.choose x.region x.regional = .ok endpoint →
      (r.assume endpoint c).Makes P w calls) : (carryOut s x plan).Makes P w before := by
  refine hbase.andThen fun c after => ?_
  split
  · exact makes_pure c
  · refine (makes_lift _).bind fun endpoint after he => ?_
    rw [run_lift, Prod.mk.injEq] at he
    exact makes_foldlM (fun r hr c calls => hroles r hr endpoint c calls he.1) c

theorem makes_carryOut (hx : x.region.isSome) (plan : SigV4.Profile.Plan) :
    (carryOut s x plan).Makes (Call.Within (Sts.Endpoint.choose x.region x.regional)) w before :=
  makes_carryOut_of s x (makes_base s x hx plan.base) fun r _ endpoint c _ he => he ▸ Role.makes_assume r endpoint c

/-- All exchanges for a profile are at one endpoint. -/
theorem makes_resolve (files : SharedFiles) (p : SigV4.Profile) (hx : (s.exchanges p w).region.isSome) :
    (resolve s files p).Makes
      (Call.Within (Sts.Endpoint.choose (s.exchanges p w).region (s.exchanges p w).regional)) w before := by
  apply makes_read
  cases hplan : files.plan p with
  | error e => exact makes_of_silent rfl
  | ok o =>
    cases o with
    | none => exact makes_pure _
    | some plan => exact (makes_carryOut s _ hx plan).map _

end Profile

/-- What a profile leads to is looked for once the files are read. -/
theorem makes_profile {P : Call → Prop} (hplain : ∀ call : Call, call.IsPlain → P call) {s : Profile.Settings}
    (h : ∀ f after p, (Profile.loadFiles s).run w before = (.ok f, after) → f.profile? (s.profileName w) = some p →
      (Profile.resolve s f p).Makes P w after) : (profile s).Makes P w before := by
  unfold Makes
  rw [profile_eq]
  refine Makes.bind ((Profile.makes_loadFiles s).mono hplain) fun f after hf => ?_
  cases hp : f.profile? (s.profileName w) with
  | none =>
    refine makes_of_silent ?_
    cases s.name <;> rfl
  | some p => exact h f after p hf hp

end Source

end SigV4
