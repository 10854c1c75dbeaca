import Mathlib.Data.List.Forall2
import SigV4.Proofs.BrokenChain
import SigV4.Proofs.Creation
import SigV4.Proofs.Precedence
/-!
# Configurations filled beforehand

What a caller leaves open in a configuration, the sources look up in the environment themselves. So once the
region is settled, a configuration leads to the same signer or the same error after the same calls whether it
has been filled from the environment or not.
-/

namespace SigV4

/-! ## Filling -/

namespace Config

/-- Nothing that is settled in one configuration is different in the other. -/
structure KeptIn (c c' : Config) : Prop where
  region : ∀ r, c.region = some r → c'.region = some r
  profile : c'.profile = c.profile
  configFile : ∀ path, c.configFile = some path → c'.configFile = some path
  credentialsFile : ∀ path, c.credentialsFile = some path → c'.credentialsFile = some path
  metadataDisabled : c.metadataDisabled = true → c'.metadataDisabled = true

variable (c : Config) (w : World)

theorem keptIn_completed : c.KeptIn (c.completed w) where
  region _ h := by simp [completed, h]
  profile := rfl
  configFile _ h := by simp [completed, h]
  credentialsFile _ h := by simp [completed, h]
  metadataDisabled h := by simp [completed, h]

theorem orElse_twice {α : Type} (o other : Option α) : ((o <|> other) <|> other) = (o <|> other) := by
  cases o <;> cases other <;> rfl

theorem completed_completed : (c.completed w).completed w = c.completed w := by
  unfold completed
  simp only [orElse_twice, Bool.or_assoc, Bool.or_self]

end Config

/-! ## Two computations in one world -/

namespace Resolve

/-- The same result after the same calls. -/
def Agree {α : Type} (w : World) (x y : Resolve α) : Prop := ∀ before, x.run w before = y.run w before

variable {α β : Type} {w : World} {x y : Resolve α} {f g : α → Resolve β}

theorem Agree.refl (x : Resolve α) : Agree w x x := fun _ => rfl

theorem Agree.bind (hx : Agree w x y) (hf : ∀ a, Agree w (f a) (g a)) : Agree w (x >>= f) (y >>= g) := by
  intro before
  rw [run_bind, run_bind, hx before]
  rcases y.run w before with ⟨e | a, after⟩
  · rfl
  · exact hf a after

theorem Agree.map (hx : Agree w x y) (h : α → β) : Agree w (h <$> x) (h <$> y) := by
  intro before
  rw [run_map, run_map, hx before]

/-- Only what is seen of this world counts. -/
theorem agree_read {f g : World → Resolve β} (h : Agree w (f w) (g w)) :
    Agree w ((read : Resolve World) >>= f) ((read : Resolve World) >>= g) := h

end Resolve

/-! ## Sources -/

namespace Source

open Resolve

variable {w : World}

/-- Two settings that come to the same in a world. -/
structure InstanceMetadata.Settings.Alike (w : World) (s s' : InstanceMetadata.Settings) : Prop where
  disabled : s.isDisabled w = s'.isDisabled w
  base : s.base w = s'.base w

theorem agree_instanceMetadata {s s' : InstanceMetadata.Settings} (h : s.Alike w s') :
    Agree w (instanceMetadata s) (instanceMetadata s') := by
  apply agree_read
  rw [h.disabled, h.base]
  exact .refl _

theorem agree_firstOf {sources sources' : List Source} (h : List.Forall₂ (Agree w) sources sources') :
    Agree w (firstOf sources) (firstOf sources') := by
  induction h with
  | nil => exact .refl _
  | cons hs _ ih =>
    refine hs.bind fun o => ?_
    cases o with
    | none => exact ih
    | some c => exact .refl _

namespace Profile

/-- Two settings that come to the same in a world. -/
structure Settings.Alike (w : World) (s s' : Settings) : Prop where
  name : s.name = s'.name
  region : s.region = s'.region
  credentialsPath : s.credentialsPath w = s'.credentialsPath w
  configPath : s.configPath w = s'.configPath w
  metadata : s.metadata.Alike w s'.metadata

variable {s s' : Settings} (h : s.Alike w s')
include h

theorem agree_loadFiles : Agree w (loadFiles s) (loadFiles s') := by
  apply agree_read
  rw [h.credentialsPath]
  refine (Agree.refl _).bind fun credentials => agree_read ?_
  rw [h.configPath]
  exact .refl _

theorem agree_base (x : Exchanges) (b : SigV4.Profile.Base) : Agree w (base s x b) (base s' x b) := by
  cases b with
  | keys c => exact .refl _
  | webIdentity roleArn tokenFile sessionName => exact .refl _
  | process command => exact .refl _
  | place p =>
    refine Agree.bind ?_ fun o => .refl _
    cases p with
    | environment => exact .refl _
    | instanceMetadata => exact agree_instanceMetadata h.metadata
    | container => exact .refl _

theorem agree_resolve (f : SharedFiles) (p : SigV4.Profile) : Agree w (resolve s f p) (resolve s' f p) := by
  have hexchanges : s.exchanges p w = s'.exchanges p w := by
    unfold Settings.exchanges
    rw [h.region]
  apply agree_read
  rw [hexchanges]
  refine (Agree.refl _).bind fun plan => ?_
  cases plan with
  | none => exact .refl _
  | some plan => exact ((agree_base h _ plan.base).bind fun c => .refl _).map some

end Profile

theorem agree_profile {s s' : Profile.Settings} (h : s.Alike w s') : Agree w (profile s) (profile s') := by
  intro before
  have hname : s.profileName w = s'.profileName w := by
    unfold Profile.Settings.profileName
    rw [h.name]
  rw [profile_eq, profile_eq, h.name, hname, run_bind, run_bind, Profile.agree_loadFiles h before]
  rcases (Profile.loadFiles s').run w before with ⟨e | f, after⟩
  · rfl
  · simp only
    cases f.profile? (s'.profileName w) with
    | none => simp only [Option.elim_none]
    | some p => exact Profile.agree_resolve h f p after

/-! ## The default source -/

section
variable (c : Config) (w : World)

theorem Default.metadataSettings_completed :
    (metadataSettings c).Alike w (metadataSettings (c.completed w)) where
  disabled := by simp [metadataSettings, InstanceMetadata.Settings.isDisabled, Config.completed]
  base := rfl

theorem Default.profileSettings_completed {region : String} (hr : c.region = some region) :
    (profileSettings c).Alike w (profileSettings (c.completed w)) where
  name := rfl
  region := hr.trans ((c.keptIn_completed w).region region hr).symm
  credentialsPath := congrArg (Option.getD · "~/.aws/credentials") (Config.orElse_twice _ _).symm
  configPath := congrArg (Option.getD · "~/.aws/config") (Config.orElse_twice _ _).symm
  metadata := metadataSettings_completed c w

theorem agree_default_completed {region : String} (hr : c.region = some region) :
    Agree w (default (.ofConfig c)) (default (.ofConfig (c.completed w))) := by
  have hprofile := agree_profile (Default.profileSettings_completed c w hr)
  have hmetadata := agree_instanceMetadata (Default.metadataSettings_completed c w)
  have hregion : (c.completed w).region = c.region := ((c.keptIn_completed w).region region hr).trans hr.symm
  cases hname : c.profile with
  | some name =>
    rw [default_named hname, default_named (c := c.completed w) hname]
    exact agree_firstOf (.cons hprofile (.cons (.refl _) (.cons hmetadata .nil)))
  | none =>
    rw [default_unnamed hname, default_unnamed (c := c.completed w) hname]
    unfold ambient
    rw [hregion]
    exact agree_firstOf (.cons (.refl _) (.cons (.refl _) (.cons hprofile (.cons (.refl _) (.cons hmetadata .nil)))))

end

end Source

/-! ## Signers -/

namespace Signer

theorem agree_create {w : World} {source source' : Source} (h : Resolve.Agree w source source') (region : String) :
    Resolve.Agree w (create source region) (create source' region) := by
  unfold create
  split
  · exact h.bind fun o => .refl _
  · exact .refl _

/-- A configuration with a region leads to the same signer or error after the same calls when it is filled from the
environment before. To fill it once more changes nothing, and what is settled in it stays as it is. -/
theorem ofConfig_completed {c : Config} {region : String} (hr : c.region = some region) (w : World)
    (before : List Call) :
    (ofConfig (c.completed w)).run w before = (ofConfig c).run w before ∧
    (c.completed w).completed w = c.completed w ∧ c.KeptIn (c.completed w) := by
  refine ⟨?_, c.completed_completed w, c.keptIn_completed w⟩
  rw [ofConfig_run hr, ofConfig_run ((c.keptIn_completed w).region region hr)]
  exact (agree_create (Source.agree_default_completed c w hr) region before).symm

/-- An environment that has something to say to every open field, and keys in a file that it names. -/
def talkative : Script where
  environment := [(Variable.region, "eu-west-1"), (Variable.credentialsFile, "/keys"), (Variable.configFile, "/config"),
    (Variable.metadataDisabled, "True")]
  files := some [("/keys", .ok (utf8 "[default]\naws_access_key_id = AKID\naws_secret_access_key = secret\n"))]
  routes := some []

theorem ofConfig_completed_talkative :
    Config.completed { region := some "us-east-1" } (talkative.world ⟨0, 0⟩) =
      ⟨some "us-east-1", none, some "/config", some "/keys", true⟩ ∧
    (ofConfig ⟨some "us-east-1", none, some "/config", some "/keys", true⟩).run (talkative.world ⟨0, 0⟩) [] =
      (ofConfig { region := some "us-east-1" }).run (talkative.world ⟨0, 0⟩) [] := by
  have hfilled : Config.completed { region := some "us-east-1" } (talkative.world ⟨0, 0⟩) =
      ⟨some "us-east-1", none, some "/config", some "/keys", true⟩ := by
    decide +kernel
  obtain ⟨hrun, -, -⟩ := ofConfig_completed (c := { region := some "us-east-1" }) rfl (talkative.world ⟨0, 0⟩) []
  rw [hfilled] at hrun
  exact ⟨hfilled, hrun⟩

end Signer

end SigV4
