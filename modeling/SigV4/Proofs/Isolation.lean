import SigV4.Proofs.BrokenChain
import SigV4.Proofs.Precedence
import SigV4.Proofs.TwoWorlds
/-!
# A named profile is alone

When the caller names a profile, the keys, the web identity and the profile that the environment names have
no say: the result is the same and so are all calls, whatever these variables hold. The one way to them is a
chain of roles whose last profile asks for the environment by name.
-/

namespace SigV4

open Profile

/-! ## Where a walk ends -/

namespace Profile

/-- What a step ends the walk with. -/
def Step.base? : Step → Option Base
  | .nothing => none
  | .base b => some b
  | .role _ b => some b
  | .link _ _ => none

variable {p : Profile} {s : Step} {place : Place}

/-- Only a role with a `credential_source` ends the walk at a place. -/
theorem step_place {first : Bool} (h : p.step first = .ok s) (hb : s.base? = some (.place place)) :
    p.NeedsSource first ∧ p.get "credential_source" = some place.name := by
  cases leads_of_step h with
  | keys => cases hb
  | nothing => cases hb
  | process => cases hb
  | token => cases hb
  | role sound role noToken _ source =>
    refine ⟨⟨sound.unsettled, has_iff.2 ⟨_, role⟩, has_eq_false.2 noToken⟩, ?_⟩
    rcases roleStep_cases source with ⟨there, hsource, rfl⟩ | ⟨c, -, rfl⟩ | ⟨name, rfl⟩
    · cases hb
      exact hsource
    · cases hb
    · cases hb

end Profile

namespace Visit

variable {f : SharedFiles} {v : Visit} {roles : List Role} {plan : Plan}

/-- Where no round follows, the step has the base of the plan. -/
theorem step_of_plan (hl : ∀ v', ¬ Follows f v v') (hr : roles.isEmpty = v.first)
    (h : f.walk v.names roles v.profile = .ok (some plan)) :
    ∃ s, v.profile.step v.first = .ok s ∧ s.base? = some plan.base := by
  rw [SharedFiles.walk, hr] at h
  cases hs : v.profile.step v.first with
  | error e => rw [hs] at h; cases h
  | ok s =>
    rw [hs] at h
    refine ⟨s, rfl, ?_⟩
    cases s with
    | nothing => cases hf : v.first <;> (rw [hf] at h; cases h)
    | base b => cases h; rfl
    | role r b => cases h; rfl
    | link r source =>
      simp only at h
      split at h
      · rename_i new
        split at h
        · cases h
        · rename_i q found
          exact absurd (.link hs new found) (hl _)
      · cases h

/-- The walk from a profile ends well, at a role that is taken on with what a place has. -/
def EndsAt (f : SharedFiles) (p : Profile) (place : Place) : Prop :=
  ∃ v, Reaches f (.start p) v ∧ ¬ Broken f v ∧ v.profile.NeedsSource v.first ∧
    v.profile.get "credential_source" = some place.name

theorem endsAt_of_plan {name : String} {p : Profile} (hp : f.profile? name = some p) {place : Place}
    (h : f.plan p = .ok (some plan)) (hb : plan.base = .place place) : EndsAt f p place := by
  obtain ⟨v, hreach, hlast⟩ := (onPath_start hp).exists_last
  obtain ⟨roles, hlen, heq⟩ := hreach.walk_eq (rfl : ([] : List Role).length = 0)
  have hwalk : f.walk v.names roles v.profile = .ok (some plan) := heq.symm.trans h
  obtain ⟨s, hs, hbase⟩ := step_of_plan hlast (isEmpty_eq_first hlen) hwalk
  refine ⟨v, hreach, ?_, step_place hs (hbase.trans (congrArg some hb))⟩
  intro hbroken
  obtain ⟨e, he⟩ := hbroken.walk_eq (isEmpty_eq_first hlen)
  rw [hwalk] at he
  cases he

end Visit

/-! ## In both worlds -/

/-- The variables by which the environment names keys, a web identity and a profile. -/
def ambientVariables : List String :=
  [Variable.accessKeyId, Variable.secretAccessKey, Variable.sessionToken, Variable.roleArn,
    Variable.webIdentityTokenFile, Variable.profile]

namespace Source

open Resolve

section
variable {w w' : World} (h : w.AlikeBut ambientVariables w') (s : Profile.Settings)
include h

theorem sameIn_platform (c : Config) : ∀ source ∈ Default.platform c, source.SameIn w w' := by
  simp only [Default.platform, List.forall_mem_cons]
  exact ⟨sameIn_container h {} (by decide), sameIn_instanceMetadata h _ (by decide), by simp⟩

namespace Profile

theorem sameIn_loadFile (path : String) : (loadFile path).SameIn w w' := by
  refine (sameIn_expandHome h path).bind fun expanded => ?_
  cases expanded with
  | none => exact sameIn_pure _
  | some path =>
    refine (sameIn_fileText h path).attempt.bind fun content => ?_
    cases content with
    | error e => exact sameIn_pure _
    | ok text => exact sameIn_orFail _ _

theorem sameIn_loadFiles : (loadFiles s).SameIn w w' := by
  have hcredentials : s.credentialsPath w = s.credentialsPath w' := by
    rw [Settings.credentialsPath, Settings.credentialsPath, h.lookup _ (by decide)]
  have hconfig : s.configPath w = s.configPath w' := by
    rw [Settings.configPath, Settings.configPath, h.lookup _ (by decide)]
  refine sameIn_read (by rw [hcredentials]) ((sameIn_loadFile h _).bind fun credentials => ?_)
  refine sameIn_read (by rw [hconfig]) ((sameIn_loadFile h _).bind fun config => ?_)
  exact sameIn_pure _

theorem exchanges_eq (p : SigV4.Profile) : s.exchanges p w = s.exchanges p w' := by
  have hregion : w.filled? Variable.region = w'.filled? Variable.region := h.filled? (by decide)
  rw [Settings.exchanges, Settings.exchanges, hregion, h.lookup _ (by decide)]

theorem sameIn_base (x : Exchanges) {b : Base} (hb : b ≠ .place .environment) : (base s x b).SameIn w w' := by
  cases b with
  | keys c => exact sameIn_pure c
  | webIdentity roleArn tokenFile sessionName => exact WebIdentity.sameIn_assume h _ roleArn tokenFile (by decide)
  | process command => exact Process.sameIn_run h command
  | place p =>
    refine SameIn.bind ?_ fun o => sameIn_orFail _ o
    cases p with
    | environment => exact absurd rfl hb
    | instanceMetadata => exact sameIn_instanceMetadata h s.metadata (by decide)
    | container => exact sameIn_container h {} (by decide)

theorem sameIn_carryOut (x : Exchanges) {plan : Plan} (hb : plan.base ≠ .place .environment) :
    (carryOut s x plan).SameIn w w' := by
  have hroles : ∀ c, (do
      let endpoint ← lift (Sts.Endpoint.choose x.region x.regional)
      plan.roles.foldlM (fun c r => r.assume endpoint c) c : Resolve Credential).SameIn w w' := by
    intro c
    refine (sameIn_lift _).bind fun endpoint => ?_
    exact sameIn_foldlM (fun c r => Role.sameIn_assume h r endpoint c) plan.roles c
  refine (sameIn_base h s x hb).bind fun c => ?_
  split
  · exact sameIn_pure c
  · exact hroles c

theorem sameIn_resolve {f : SharedFiles} {p : SigV4.Profile}
    (hp : ∀ plan, f.plan p = .ok (some plan) → plan.base ≠ .place .environment) : (resolve s f p).SameIn w w' := by
  refine sameIn_read (by rw [exchanges_eq h]) ?_
  cases hplan : f.plan p with
  | error e => exact fun _ => rfl
  | ok o =>
    cases o with
    | none => exact sameIn_pure _
    | some plan => exact (sameIn_carryOut h s _ (hp plan hplan)).map _

end Profile

end

theorem firstOf_same {w w' : World} {s : Source} {rest : List Source} {before : List Call}
    (hs : s.run w before = s.run w' before) (hrest : ∀ t ∈ rest, t.SameIn w w') :
    (firstOf (s :: rest)).run w before = (firstOf (s :: rest)).run w' before := by
  induction rest generalizing s before with
  | nil => rw [firstOf_singleton, hs]
  | cons t rest ih =>
    rw [List.forall_mem_cons] at hrest
    rw [firstOf_cons, orElse_run, orElse_run, hs]
    rcases s.run w' before with ⟨e | _ | c, after⟩
    · rfl
    · exact ih (hrest.1 after) hrest.2
    · rfl

/-- With a profile of the caller's choice, worlds that differ in the ambient variables only give the same credential,
nothing or error after the same calls, unless the walk from the profile ends at the environment. -/
theorem named_profile_isolated {c : Config} {name : String} (hc : c.profile = some name) {w w' : World}
    (h : w.AlikeBut ambientVariables w') (before : List Call)
    (hends : ∀ f after p, (Profile.loadFiles (Default.profileSettings c)).run w before = (.ok f, after) →
      f.profile? name = some p → ¬ Visit.EndsAt f p .environment) :
    (default (.ofConfig c)).run w before = (default (.ofConfig c)).run w' before := by
  let s := Default.profileSettings c
  have hs : s.name = some name := hc
  have hprofile : (profile s).run w before = (profile s).run w' before := by
    rw [profile_eq, profile_eq, Profile.Settings.profileName_named hs, Profile.Settings.profileName_named hs,
      run_bind, run_bind, ← Profile.sameIn_loadFiles h s before]
    rcases hf : (Profile.loadFiles s).run w before with ⟨e | f, after⟩
    · rfl
    · simp only
      cases hp : f.profile? name with
      | none => cases s.name <;> rfl
      | some p =>
        refine Profile.sameIn_resolve h _ (fun plan hplan hb => ?_) after
        exact hends f after p hf hp (Visit.endsAt_of_plan hp hplan hb)
  rw [default_named hc]
  exact firstOf_same hprofile (sameIn_platform h c)

/-! Files in which one profile takes on a role with the keys of another, in two environments. -/

/-- With keys, a web identity and a profile in the environment that are not those of the files. -/
def crowded : Script where
  environment := [(Variable.accessKeyId, "OTHER"), (Variable.secretAccessKey, "other"), (Variable.profile, "base"),
    (Variable.roleArn, "other"), (Variable.webIdentityTokenFile, "/token")]
  home := some "/home/me"
  files := some [("/home/me/.aws/config", .ok (utf8 ("[profile dev]\nrole_arn = a\nsource_profile = base\n"
    ++ "[profile base]\naws_access_key_id = AKID\naws_secret_access_key = secret\n")))]
  routes := some []
  rules := some []

/-- The same with nothing of the kind. -/
def quiet : Script := { crowded with environment := [] }

def crowdedFiles : SharedFiles where
  config := [⟨"profile dev", [("role_arn", "a"), ("source_profile", "base")]⟩,
    ⟨"profile base", [("aws_access_key_id", "AKID"), ("aws_secret_access_key", "secret")]⟩]

theorem crowded_alikeBut_quiet : (crowded.world ⟨0, 0⟩).AlikeBut ambientVariables (quiet.world ⟨0, 0⟩) where
  now := rfl
  home := rfl
  file := rfl
  http := rfl
  command := rfl
  lookup name hn := by
    have hambient : ∀ p ∈ crowded.environment, p.1 ∈ ambientVariables := by simp [crowded, ambientVariables]
    have hnone : crowded.environment.lookup name = none := by
      refine List.lookup_eq_none_iff.2 fun p hp => ?_
      rw [bne_iff_ne]
      rintro rfl
      exact hn (hambient p hp)
    exact hnone

theorem named_profile_isolated_crowded :
    (default (.ofConfig { profile := some "dev", region := some "eu-west-1" })).run (crowded.world ⟨0, 0⟩) [] =
      (default (.ofConfig { profile := some "dev", region := some "eu-west-1" })).run (quiet.world ⟨0, 0⟩) [] := by
  refine named_profile_isolated rfl crowded_alikeBut_quiet [] ?_
  intro f after p hf hp
  have hread : (Profile.loadFiles (Default.profileSettings { profile := some "dev", region := some "eu-west-1" })).run
      (crowded.world ⟨0, 0⟩) [] =
        (.ok crowdedFiles, [.file "/home/me/.aws/credentials", .file "/home/me/.aws/config"]) :=
    run_eq_ok (by decide +kernel)
  obtain ⟨rfl⟩ : crowdedFiles = f := Except.ok.inj (congrArg Prod.fst (hread.symm.trans hf))
  -- the walk comes to these two profiles and no other
  let dev : SigV4.Profile := ⟨"dev", [⟨"profile dev", [("role_arn", "a"), ("source_profile", "base")]⟩]⟩
  let base : SigV4.Profile :=
    ⟨"base", [⟨"profile base", [("aws_access_key_id", "AKID"), ("aws_secret_access_key", "secret")]⟩]⟩
  have hdev : crowdedFiles.profile? "dev" = some dev := by decide +kernel
  have hbase : crowdedFiles.profile? "base" = some base := by decide +kernel
  have hlink : dev.step true = .ok (.link ⟨"a", none, none, none⟩ "base") := by decide +kernel
  have hkeys : base.step false = .ok (.base (.keys ⟨"AKID", "secret", none, none⟩)) := by decide +kernel
  obtain rfl : dev = p := Option.some.inj (hdev.symm.trans hp)
  rintro ⟨v, hreach, -, -, hsource⟩
  rcases hreach.cases_head with rfl | ⟨v', hfollows, hrest⟩
  · exact absurd hsource (by decide +kernel)
  obtain ⟨hstep, -, hfound⟩ := hfollows
  obtain ⟨-, rfl⟩ : _ ∧ "base" = _ := by simpa using hlink.symm.trans hstep
  obtain rfl : base = _ := Option.some.inj (hbase.symm.trans hfound)
  rcases hrest.cases_head with rfl | ⟨v'', ⟨hstep', -, -⟩, -⟩
  · exact absurd hsource (by decide +kernel)
  · exact absurd (hkeys.symm.trans hstep') (by simp)

end Source

end SigV4
