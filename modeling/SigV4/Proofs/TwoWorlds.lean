import SigV4.Source.Default
/-!
# One computation in two worlds

Two worlds that differ in some environment variables only. A computation that looks at none of these has
the same result in both and makes the same calls on the way: `SameIn` is shown here for the readers of
files, the exchanges with the token service and the platform's sources.
-/

namespace SigV4

/-- The same world but for the values of some variables. -/
structure World.AlikeBut (names : List String) (w w' : World) : Prop where
  now : w.now = w'.now
  home : w.home = w'.home
  file : w.file = w'.file
  http : w.http = w'.http
  command : w.command = w'.command
  lookup : ∀ name, name ∉ names → w.lookup name = w'.lookup name

theorem World.AlikeBut.filled? {names : List String} {w w' : World} (h : w.AlikeBut names w') {name : String}
    (hn : name ∉ names) : w.filled? name = w'.filled? name := by
  unfold World.filled?
  rw [h.lookup name hn]

/-! ## Computations -/

namespace Resolve

/-- The same result after the same calls. -/
def SameIn {α : Type} (x : Resolve α) (w w' : World) : Prop := ∀ before, x.run w before = x.run w' before

section
variable {α β : Type} {x : Resolve α} {f : α → Resolve β} {w w' : World}

theorem sameIn_pure (a : α) : (pure a : Resolve α).SameIn w w' := fun _ => rfl

theorem sameIn_fail (e : Error) : (fail e : Resolve α).SameIn w w' := fun _ => rfl

theorem sameIn_lift (r : Except Error α) : (lift r).SameIn w w' := by
  intro before
  rw [run_lift, run_lift]

theorem sameIn_orFail (e : Error) (o : Option α) : (orFail e o).SameIn w w' := by
  intro before
  rw [run_orFail, run_orFail]

theorem sameIn_ask (call : Call) (answer : List Call → Except Error α) : (ask call answer).SameIn w w' := fun _ => rfl

theorem SameIn.bind (hx : x.SameIn w w') (hf : ∀ a, (f a).SameIn w w') : (x >>= f).SameIn w w' := by
  intro before
  rw [run_bind, run_bind, hx before]
  rcases x.run w' before with ⟨e | a, after⟩
  · rfl
  · exact hf a after

theorem SameIn.map (hx : x.SameIn w w') (g : α → β) : (g <$> x).SameIn w w' := by
  intro before
  rw [run_map, run_map, hx before]

theorem SameIn.attempt (hx : x.SameIn w w') : x.attempt.SameIn w w' := by
  intro before
  rw [run_attempt, run_attempt, hx before]

theorem SameIn.mapError (hx : x.SameIn w w') (g : Error → Error) : (x.mapError g).SameIn w w' := by
  intro before
  rw [run_mapError, run_mapError, hx before]

/-- What is seen of the world is the same. -/
theorem sameIn_read {f : World → Resolve α} (hsee : f w = f w') (h : (f w').SameIn w w') :
    ((read : Resolve World) >>= f).SameIn w w' := by
  intro before
  rw [run_bind, run_bind, run_read, run_read]
  change (f w).run w before = (f w').run w' before
  rw [hsee]
  exact h before

theorem sameIn_foldlM {γ : Type} {g : β → γ → Resolve β} (h : ∀ b c, (g b c).SameIn w w') (cs : List γ) (b : β) :
    (cs.foldlM g b).SameIn w w' := by
  induction cs generalizing b with
  | nil => exact sameIn_pure b
  | cons c cs ih =>
    rw [List.foldlM_cons]
    exact (h b c).bind ih

end

variable {names : List String} {w w' : World} (h : w.AlikeBut names w')
include h

theorem sameIn_now : now.SameIn w w' := sameIn_read (by rw [h.now]) (sameIn_pure _)

theorem sameIn_expandHome (path : String) : (expandHome path).SameIn w w' :=
  sameIn_read (by rw [h.home]) (sameIn_pure _)

theorem sameIn_filled? {name : String} (hn : name ∉ names) : (filled? name).SameIn w w' :=
  sameIn_read (by rw [h.filled? hn]) (sameIn_pure _)

theorem sameIn_fileBytes (path : String) : (fileBytes path).SameIn w w' := by
  refine sameIn_read (by rw [h.file]) ?_
  cases w'.file with
  | none => exact sameIn_fail _
  | some answer => exact sameIn_ask _ _

theorem sameIn_fileText (path : String) : (fileText path).SameIn w w' := by
  refine (sameIn_fileBytes h path).bind fun bs => ?_
  cases Utf8.fault? bs with
  | none => exact sameIn_pure _
  | some fault => exact sameIn_fail _

theorem sameIn_send (request : Http.Request) (body : Bytes) : (send request body).SameIn w w' := by
  refine sameIn_read (by rw [h.http]) ?_
  cases w'.http with
  | none => exact sameIn_fail _
  | some answer => exact sameIn_ask _ _

theorem sameIn_execute (program : String) (arguments : List String) : (execute program arguments).SameIn w w' := by
  refine sameIn_read (by rw [h.command]) ?_
  cases w'.command with
  | none => exact sameIn_fail _
  | some answer => exact sameIn_ask _ _

end Resolve

open Resolve

/-! ## Exchanges -/

section
variable {names : List String} {w w' : World} (h : w.AlikeBut names w')
include h

theorem Sts.Exchange.sameIn_run (x : Sts.Exchange) : x.run.SameIn w w' := by
  refine (sameIn_now h).bind fun t => (sameIn_lift _).bind fun request => ?_
  exact ((sameIn_send h request []).mapError _).bind fun reply => sameIn_lift _

theorem Role.sameIn_assume (r : Role) (endpoint : Sts.Endpoint) (c : Credential) : (r.assume endpoint c).SameIn w w' :=
  (sameIn_now h).bind fun _ => (Sts.Exchange.sameIn_run h _).mapError _

namespace Source

theorem WebIdentity.sameIn_token (file : String) : (WebIdentity.token file).SameIn w w' := by
  refine (sameIn_expandHome h file).bind fun path => ((sameIn_fileText h _).mapError _).bind fun text => ?_
  split
  · exact (sameIn_fail _).bind fun _ => sameIn_pure _
  · exact sameIn_pure _

theorem WebIdentity.sameIn_assume (s : WebIdentity.Settings) (roleArn tokenFile : String)
    (hnames : ∀ v ∈ [Variable.roleSessionName, Variable.region, Variable.regionalEndpoints], v ∉ names) :
    (WebIdentity.assume s roleArn tokenFile).SameIn w w' := by
  simp only [List.forall_mem_cons] at hnames
  obtain ⟨hsession, hregion, hregional, -⟩ := hnames
  refine (sameIn_token h tokenFile).bind fun token => (sameIn_filled? h hsession).bind fun session => ?_
  refine (sameIn_now h).bind fun t => sameIn_read ?_ ?_
  · simp only [WebIdentity.Settings.endpoint, h.filled? hregion, h.filled? hregional]
  · exact (sameIn_lift _).bind fun endpoint => (Sts.Exchange.sameIn_run h _).mapError _

theorem Process.sameIn_run (command : String) : (Process.run command).SameIn w w' := by
  unfold Process.run
  cases Text.words command with
  | nil => exact sameIn_fail _
  | cons program arguments =>
    refine (sameIn_execute h program arguments).bind fun output => (sameIn_lift _).bind fun out => ?_
    refine SameIn.bind ?_ fun expiry => sameIn_pure _
    cases out.expiration.bind Text.nonEmpty? with
    | none => exact sameIn_pure _
    | some t => exact (sameIn_lift _).map _

/-! ## The platform -/

theorem Container.sameIn_fetch (uri : String) (token : Option String) : (Container.fetch uri token).SameIn w w' := by
  refine (sameIn_orFail _ _).bind fun request => ((sameIn_send h request []).mapError _).bind fun response => ?_
  have hanswer : (do
      let answer ← orFail Container.unreadable (Container.Answer.read? response.text)
      let expiry ← answer.expiration.mapM fun t => lift (Rfc3339.parse t)
      return (⟨answer.accessKeyId, answer.secretAccessKey, answer.token.bind Text.nonEmpty?, expiry⟩ : Credential)
      : Resolve Credential).SameIn w w' := by
    refine (sameIn_orFail _ _).bind fun answer => SameIn.bind ?_ fun expiry => sameIn_pure _
    cases answer.expiration with
    | none => exact sameIn_pure _
    | some t => exact (sameIn_lift _).map _
  split
  · exact (sameIn_fail _).bind fun _ => hanswer
  · exact hanswer

theorem sameIn_container (s : Container.Settings)
    (hnames : ∀ v ∈ [Variable.containerRelativeUri, Variable.containerFullUri, Variable.containerToken], v ∉ names) :
    (container s).SameIn w w' := by
  simp only [List.forall_mem_cons] at hnames
  obtain ⟨hrelative, hfull, htoken, -⟩ := hnames
  have huri : s.uri? w = s.uri? w' := by
    simp only [Container.Settings.uri?, h.filled? hrelative, h.filled? hfull]
  refine sameIn_read (by rw [huri]) ?_
  cases s.uri? w' with
  | none => exact sameIn_pure _
  | some uri => exact (sameIn_filled? h htoken).bind fun token => (Container.sameIn_fetch h uri token).map _

namespace InstanceMetadata

theorem sameIn_openSession (base : String) : (openSession base).SameIn w w' := by
  refine (sameIn_orFail _ _).bind fun request => ((sameIn_send h request []).attempt).bind fun response => ?_
  cases response with
  | error e => exact sameIn_pure _
  | ok response =>
    change (if _ then _ else _ : Resolve (Option String)).SameIn w w'
    split
    · exact sameIn_pure _
    · exact sameIn_fail _

theorem sameIn_get (uri token : String) : (get uri token).SameIn w w' := by
  refine (sameIn_orFail _ _).bind fun request => ((sameIn_send h request []).mapError _).bind fun response => ?_
  split
  · exact sameIn_pure _
  · exact sameIn_fail _

theorem sameIn_fetch (base token : String) : (fetch base token).SameIn w w' := by
  refine (sameIn_get h _ _).bind fun listing => (sameIn_orFail _ _).bind fun role => ?_
  refine (sameIn_get h _ _).bind fun document => (sameIn_orFail _ _).bind fun answer => ?_
  cases answer.fault? with
  | none => exact (sameIn_lift _).bind fun expiry => sameIn_pure _
  | some e => exact (sameIn_fail _).bind fun _ => (sameIn_lift _).bind fun expiry => sameIn_pure _

end InstanceMetadata

theorem sameIn_instanceMetadata (s : InstanceMetadata.Settings)
    (hnames : ∀ v ∈ [Variable.metadataDisabled, Variable.metadataEndpoint], v ∉ names) :
    (instanceMetadata s).SameIn w w' := by
  simp only [List.forall_mem_cons] at hnames
  obtain ⟨hdisabled, hendpoint, -⟩ := hnames
  have hoff : s.isDisabled w = s.isDisabled w' := by
    simp only [InstanceMetadata.Settings.isDisabled, h.lookup _ hdisabled]
  have hbase : s.base w = s.base w' := by
    simp only [InstanceMetadata.Settings.base, h.filled? hendpoint]
  refine sameIn_read (by rw [hoff, hbase]) ?_
  split
  · exact sameIn_pure _
  · refine (InstanceMetadata.sameIn_openSession h _).bind fun token => ?_
    cases token with
    | none => exact sameIn_pure _
    | some token => exact (InstanceMetadata.sameIn_fetch h _ token).map _

end Source

end

end SigV4
