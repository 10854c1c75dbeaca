import SigV4.Proofs.BrokenChain
import SigV4.Proofs.Precedence
/-!
# When the platform is asked instead

The container and the machine are there for a named profile that says nothing about a credential. Every other
profile decides by itself: it has a credential or fails, however deep in its chain of roles that happens, and a
profile that is not there fails too.
-/

namespace SigV4

/-! ## Profiles that say nothing -/

namespace Profile

/-- None of the ways to a credential is set, not even one that is not supported. -/
structure SaysNothing (p : Profile) : Prop where
  noRole : p.has "role_arn" = false
  noKey : p.has "aws_access_key_id" = false
  noSecret : p.has "aws_secret_access_key" = false
  noUnsupported : ∀ key ∈ unsupportedKeys, p.has key = false
  noProgram : p.has "credential_process" = false

variable {p : Profile}

theorem SaysNothing.step_eq (h : p.SaysNothing) : p.step true = .ok .nothing := by
  have hunsettled : p.isSettled true = false := by simp [isSettled, hasBothKeys, h.noKey]
  have hwhole : p.hasOneKey = false := by simp [hasOneKey, h.noKey, h.noSecret]
  have hsound : p.Sound true := ⟨hunsettled, fun _ => hwhole, h.noUnsupported⟩
  exact hsound.step_nothing (has_eq_false.1 h.noRole) (has_eq_false.1 h.noProgram)

theorem saysNothing_of_step (h : p.step true = .ok .nothing) : p.SaysNothing := by
  cases leads_of_step h with
  | nothing sound noRole noProgram =>
    have hrole : p.has "role_arn" = false := has_eq_false.2 noRole
    have hlooks : p.looksAtKeys true = true := by simp [looksAtKeys, hrole]
    have hone : p.hasOneKey = false := sound.whole hlooks
    have hboth : p.hasBothKeys = false := by simpa [isSettled, hlooks] using sound.unsettled
    -- not both keys and not one of them
    simp only [hasOneKey, bne_eq_false_iff_eq] at hone
    rw [hasBothKeys, hone, Bool.and_self] at hboth
    exact ⟨hrole, hone.trans hboth, hboth, sound.supported, has_eq_false.2 noProgram⟩
  | role _ _ _ _ source =>
    -- with a role there is always something to do
    rcases roleStep_cases source with ⟨place, -, hs⟩ | ⟨c, -, hs⟩ | ⟨name, hs⟩ <;> cases hs

theorem step_eq_nothing_iff : p.step true = .ok .nothing ↔ p.SaysNothing :=
  ⟨saysNothing_of_step, SaysNothing.step_eq⟩

end Profile

/-! ## Plans -/

namespace SharedFiles

variable {f : SharedFiles}

/-- Behind a role nothing is a fault. -/
theorem walk_ne_none {visited : List String} {roles : List Role} {p : Profile} (h : roles.isEmpty = false) :
    f.walk visited roles p ≠ .ok none := by
  fun_induction walk f visited roles p with
  | case1 => exact fun h' => nomatch h'
  | case2 visited roles p hs hempty => exact absurd hempty (by simp [h])
  | case3 => exact fun h' => nomatch h'
  | case4 => exact fun h' => nomatch h'
  | case5 => exact fun h' => nomatch h'
  | case6 => exact fun h' => nomatch h'
  | case7 visited roles p r source hs new q found ih => exact ih rfl
  | case8 => exact fun h' => nomatch h'

theorem plan_eq_none_iff {p : Profile} : f.plan p = .ok none ↔ p.SaysNothing := by
  rw [← Profile.step_eq_nothing_iff, plan, walk]
  cases hs : p.step true with
  | error e => simp [hs]
  | ok s =>
    cases s with
    | nothing => simp [hs]
    | base b => simp [hs]
    | role r b => simp [hs]
    | link r source =>
      simp only [List.isEmpty_nil, hs]
      split
      · split
        · simp
        · simp [walk_ne_none]
      · simp

/-- There is a section about the profile in one of the files. -/
def Mentions (f : SharedFiles) (name : String) : Prop :=
  (∃ s ∈ f.credentials, s.name = name) ∨ (∃ s ∈ f.config, s.name = "profile " ++ name) ∨
    name = "default" ∧ ∃ s ∈ f.config, s.name = name

theorem profile?_eq_none_iff {name : String} : f.profile? name = none ↔ ¬ f.Mentions name := by
  have hmentions : f.Mentions name ↔ name ∈ f.profileNames := mem_profileNames.symm
  rw [hmentions]
  constructor
  · intro hnone hmem
    simp [profileNames, hnone] at hmem
  · intro hmem
    cases hp : f.profile? name with
    | none => rfl
    | some p => exact absurd (mem_profileNames_of_profile? hp) hmem

/-- The profile is in the files and says nothing there. -/
def LeavesOpen (f : SharedFiles) (name : String) : Prop := ∃ p, f.profile? name = some p ∧ p.SaysNothing

end SharedFiles

/-! ## Sources -/

namespace Source

open Resolve

variable {w : World} {before after : List Call}

theorem Profile.resolve_eq_none_iff {s : Profile.Settings} {f : SharedFiles} {p : SigV4.Profile} :
    (Profile.resolve s f p).run w before = (.ok none, after) ↔ p.SaysNothing ∧ before = after := by
  rw [← SharedFiles.plan_eq_none_iff (f := f)]
  cases hplan : f.plan p with
  | error e => simp [resolve_of_plan_error hplan]
  | ok o =>
    cases o with
    | none => simp [resolve_nothing hplan]
    | some plan =>
      rw [resolve_run hplan, run_map]
      rcases (Profile.carryOut s (s.exchanges p w) plan).run w before with ⟨e | c, calls⟩ <;> simp [Except.map]

/-- A profile that has to be there comes back with nothing exactly when it is there and says nothing. -/
theorem profile_eq_none_iff {s : Profile.Settings} {name : String} (hs : s.name = some name) {f : SharedFiles}
    (hf : (Profile.loadFiles s).run w before = (.ok f, after)) (calls : List Call) :
    (profile s).run w before = (.ok none, calls) ↔
      (∃ p, f.profile? name = some p ∧ p.SaysNothing) ∧ after = calls := by
  have hname := Profile.Settings.profileName_named hs w
  cases hp : f.profile? name with
  | some p => simp [profile_run hf (hname ▸ hp), Profile.resolve_eq_none_iff]
  | none => simp [profile_eq, run_bind, hf, hname, hp, hs]

theorem profile_notFound {s : Profile.Settings} {name : String} (hs : s.name = some name) {f : SharedFiles}
    (hf : (Profile.loadFiles s).run w before = (.ok f, after)) (hp : f.profile? name = none) :
    (profile s).run w before = (.error (Profile.notFound name), after) := by
  have hname := Profile.Settings.profileName_named hs w
  simp [profile_eq, run_bind, hf, hname, hp, hs]

/-- A named profile is followed by the container and the machine when it is in the files and says nothing about a
credential, and only then. In all other cases it has the last word, and one that is not in the files is told to be
missing when nothing but the files has been read. -/
theorem named_profile_decides {c : Config} {name : String} (hc : c.profile = some name) {f : SharedFiles}
    (hf : (Profile.loadFiles (Default.profileSettings c)).run w before = (.ok f, after)) :
    (∃ read : List String, read.Sublist ((Default.profileSettings c).paths w) ∧ after = before ++ read.map .file) ∧
    (∀ calls, (profile (Default.profileSettings c)).run w before = (.ok none, calls) ↔
      f.LeavesOpen name ∧ after = calls) ∧
    (f.LeavesOpen name → (default (.ofConfig c)).run w before =
      (firstOf [container {}, instanceMetadata (Default.metadataSettings c)]).run w after) ∧
    (¬ f.LeavesOpen name →
      (default (.ofConfig c)).run w before = (profile (Default.profileSettings c)).run w before) ∧
    (¬ f.Mentions name → ∃ e, e.kind = .credentialNotFound ∧
      (profile (Default.profileSettings c)).run w before = (.error e, after) ∧
      (default (.ofConfig c)).run w before = (.error e, after)) := by
  have hnone := profile_eq_none_iff (s := Default.profileSettings c) hc hf
  have hdefault : (default (.ofConfig c)).run w before = ((profile (Default.profileSettings c)).orElse
      (firstOf [container {}, instanceMetadata (Default.metadataSettings c)])).run w before := by
    rw [default_named hc, firstOf_cons]
  rw [orElse_run] at hdefault
  have hkept : ¬ f.LeavesOpen name →
      (default (.ofConfig c)).run w before = (profile (Default.profileSettings c)).run w before := by
    intro hopen
    rw [hdefault]
    rcases hrun : (profile (Default.profileSettings c)).run w before with ⟨e | _ | credential, calls⟩
    · rfl
    · exact absurd ((hnone calls).1 hrun).1 hopen
    · rfl
  refine ⟨?_, hnone, fun hopen => ?_, hkept, fun hmissing => ?_⟩
  · obtain ⟨read, hsub, hread⟩ := Profile.onlyReads_loadFiles (Default.profileSettings c) w before
    rw [hf] at hread
    exact ⟨read, hsub, hread⟩
  · rw [hdefault, (hnone after).2 ⟨hopen, rfl⟩]
  · have hp := SharedFiles.profile?_eq_none_iff.2 hmissing
    have hrun := profile_notFound (s := Default.profileSettings c) hc hf hp
    have hopen : ¬ f.LeavesOpen name := by
      rintro ⟨p, hsome, -⟩
      rw [hp] at hsome
      cases hsome
    exact ⟨Profile.notFound name, rfl, hrun, (hkept hopen).trans hrun⟩

/-- A profile that has a region and a blank role, in a container. -/
def blankRole : Script where
  environment := [(Variable.containerRelativeUri, "/keys")]
  files := some [("/config", .ok (utf8 "[profile dev]\nregion = eu-west-1\nrole_arn = \n"))]
  routes := some []

theorem named_profile_decides_blankRole :
    (default (.ofConfig { profile := some "dev", configFile := some "/config" })).run (blankRole.world ⟨0, 0⟩) [] =
      (firstOf [container {}, instanceMetadata {}]).run (blankRole.world ⟨0, 0⟩) [.file "/config"] := by
  have hread : (Profile.loadFiles (Default.profileSettings { profile := some "dev", configFile := some "/config" })).run
      (blankRole.world ⟨0, 0⟩) [] =
        (.ok ⟨[], [⟨"profile dev", [("region", "eu-west-1"), ("role_arn", "")]⟩]⟩, [.file "/config"]) :=
    run_eq_ok (by decide +kernel)
  have hopen : SharedFiles.LeavesOpen ⟨[], [⟨"profile dev", [("region", "eu-west-1"), ("role_arn", "")]⟩]⟩ "dev" :=
    ⟨⟨"dev", [⟨"profile dev", [("region", "eu-west-1"), ("role_arn", "")]⟩]⟩, by decide +kernel,
      by decide +kernel, by decide +kernel, by decide +kernel, by decide +kernel, by decide +kernel⟩
  obtain ⟨-, -, hfallback, -, -⟩ := named_profile_decides rfl hread
  exact hfallback hopen

end Source

end SigV4
