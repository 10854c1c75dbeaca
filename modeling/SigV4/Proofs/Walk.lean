import Mathlib.Data.List.Dedup
import Mathlib.Data.List.Perm.Subperm
import Mathlib.Logic.Relation
import SigV4.Proofs.Step
/-!
# The walk along the links of profiles

`Follows` is one round of the walk: from a profile that needs another one for its role to that other
one, if it is there and new. No profile comes twice, so there are at most as many rounds as profiles
in the files. `Broken` is all that can be wrong with a profile on the way, and the walk fails exactly
when it comes to a broken one.
-/

namespace SigV4

open Profile

/-! ## Rounds -/

theorem SharedFiles.name_of_profile? {f : SharedFiles} {name : String} {p : Profile} (h : f.profile? name = some p) :
    p.name = name := by
  unfold SharedFiles.profile? at h
  split at h
  · cases h
  · rw [← Option.some.inj h]

/-- The names passed before, and the profile that the walk is at. -/
structure Visit where
  passed : List String
  profile : Profile

namespace Visit

def start (p : Profile) : Visit := ⟨[], p⟩

def first (v : Visit) : Bool := v.passed.isEmpty

/-- All names so far, one for each round. -/
def names (v : Visit) : List String := v.passed ++ [v.profile.name]

/-- One round of the walk. -/
inductive Follows (f : SharedFiles) : Visit → Visit → Prop where
  | link {v : Visit} {r : Role} {source : String} {q : Profile} (step : v.profile.step v.first = .ok (.link r source))
      (new : source ∉ v.names) (found : f.profile? source = some q) : Follows f v ⟨v.names, q⟩

abbrev Reaches (f : SharedFiles) : Visit → Visit → Prop := Relation.ReflTransGen (Follows f)

/-- All that can be wrong with a profile on the way. -/
inductive Broken (f : SharedFiles) (v : Visit) : Prop where
  | halfKeys (looks : v.profile.looksAtKeys v.first = true) (one : v.profile.hasOneKey = true)
  | unsupported (key : String) (unsettled : v.profile.isSettled v.first = false) (known : key ∈ unsupportedKeys)
      (has : v.profile.has key = true)
  | duration (value : String) (needs : v.profile.NeedsSource v.first)
      (has : v.profile.get "duration_seconds" = some value) (bad : duration? value = none)
  | bothLinks (needs : v.profile.NeedsSource v.first) (source : v.profile.has "source_profile" = true)
      (place : v.profile.has "credential_source" = true)
  | noLink (needs : v.profile.NeedsSource v.first) (source : v.profile.has "source_profile" = false)
      (place : v.profile.has "credential_source" = false)
  | unknownLink (name : String) (needs : v.profile.NeedsSource v.first)
      (place : v.profile.get "credential_source" = some name)
      (unknown : name ∉ ["Environment", "Ec2InstanceMetadata", "EcsContainer"])
  | ownKeys (needs : v.profile.NeedsSource v.first) (own : v.profile.get "source_profile" = some v.profile.name)
      (incomplete : v.profile.hasBothKeys = false)
  | missing (source : String) (needs : v.profile.NeedsSource v.first)
      (named : v.profile.get "source_profile" = some source) (other : source ≠ v.profile.name)
      (absent : f.profile? source = none)
  | loop (source : String) (needs : v.profile.NeedsSource v.first)
      (named : v.profile.get "source_profile" = some source) (other : source ≠ v.profile.name)
      (seen : source ∈ v.passed)
  | nothing (linked : v.first = false) (unsettled : v.profile.isSettled v.first = false)
      (noRole : v.profile.has "role_arn" = false) (noProgram : v.profile.has "credential_process" = false)

variable {f : SharedFiles} {v v' : Visit} {roles : List Role}

theorem isEmpty_eq_first (h : roles.length = v.passed.length) : roles.isEmpty = v.first := by
  rw [first, Bool.eq_iff_iff, List.isEmpty_iff_length_eq_zero, List.isEmpty_iff_length_eq_zero, h]

/-- The next round goes on where this one ends. -/
theorem Follows.walk_eq (h : Follows f v v') (hr : roles.isEmpty = v.first) :
    ∃ r, f.walk v.names roles v.profile = f.walk v'.names (r :: roles) v'.profile := by
  cases h with
  | @link r source q step new found =>
    refine ⟨r, ?_⟩
    rw [SharedFiles.walk, hr, step]
    simp only [dif_pos new]
    rw [found]
    simp only [names, SharedFiles.name_of_profile? found]

/-! ## Where the walk fails -/

theorem walk_of_error (hr : roles.isEmpty = v.first) (h : ∃ e, v.profile.step v.first = .error e) :
    ∃ e, f.walk v.names roles v.profile = .error e := by
  obtain ⟨e, he⟩ := h
  exact ⟨e, by rw [SharedFiles.walk, hr, he]⟩

/-- A role without a source. -/
theorem walk_of_roleStep (hr : roles.isEmpty = v.first) (needs : v.profile.NeedsSource v.first)
    (h : ∀ r, ∃ e, v.profile.roleStep r = .error e) : ∃ e, f.walk v.names roles v.profile = .error e := by
  rcases needs.step_cases with he | ⟨-, r, he⟩
  · exact walk_of_error hr he
  · exact walk_of_error hr (he ▸ h r)

/-- A source that is not there or was there before. -/
theorem walk_of_link (hr : roles.isEmpty = v.first) (needs : v.profile.NeedsSource v.first) {source : String}
    (hs : v.profile.get "source_profile" = some source) (hne : source ≠ v.profile.name)
    (hbad : source ∈ v.names ∨ f.profile? source = none) : ∃ e, f.walk v.names roles v.profile = .error e := by
  rcases needs.step_cases with he | ⟨-, r, he⟩
  · exact walk_of_error hr he
  rcases roleStep_other r hs hne with herr | hlink
  · exact walk_of_error hr (he ▸ herr)
  · rw [hlink] at he
    rw [SharedFiles.walk, hr, he]
    by_cases hseen : source ∈ v.names
    · exact ⟨.loop v.names source, by simp [hseen]⟩
    · refine ⟨.missing v.profile.name source, ?_⟩
      simp only [dif_pos hseen]
      rw [hbad.resolve_left hseen]

theorem Broken.walk_eq (h : Broken f v) (hr : roles.isEmpty = v.first) :
    ∃ e, f.walk v.names roles v.profile = .error e := by
  cases h with
  | halfKeys looks one => exact walk_of_error hr (step_half looks one)
  | unsupported key unsettled known has => exact walk_of_error hr (step_unsupported unsettled known has)
  | duration value needs has bad =>
    rcases needs.step_cases with he | ⟨hd, -⟩
    · exact walk_of_error hr he
    · exact absurd bad (hd value has)
  | bothLinks needs source place => exact walk_of_roleStep hr needs fun r => roleStep_both r source place
  | noLink needs source place => exact walk_of_roleStep hr needs fun r => ⟨_, roleStep_neither r source place⟩
  | unknownLink name needs place unknown => exact walk_of_roleStep hr needs fun r => roleStep_unknown r place unknown
  | ownKeys needs own incomplete => exact walk_of_roleStep hr needs fun r => roleStep_own r own incomplete
  | missing source needs named other absent => exact walk_of_link hr needs named other (.inr absent)
  | loop source needs named other seen => exact walk_of_link hr needs named other (.inl (by simp [names, seen]))
  | nothing linked unsettled noRole noProgram =>
    rcases error_or_sound unsettled with he | hs
    · exact walk_of_error hr he
    · refine ⟨.nothing v.profile.name, ?_⟩
      rw [SharedFiles.walk, hr, hs.step_nothing (has_eq_false.1 noRole) (has_eq_false.1 noProgram), linked]
      rfl

/-! ## Where it does not -/

theorem sound_of_not_broken (hb : ¬ Broken f v) (hs : v.profile.isSettled v.first = false) :
    v.profile.Sound v.first :=
  ⟨hs, fun looks => by simpa using fun one => hb (.halfKeys looks one),
    fun key known => by simpa using fun has => hb (.unsupported key hs known has)⟩

/-- A role with a source at hand. -/
theorem step_of_last (hb : ¬ Broken f v) (hl : ∀ v', ¬ Follows f v v') (needs : v.profile.NeedsSource v.first) :
    ∃ r b, v.profile.step v.first = .ok (.role r b) := by
  obtain ⟨r, hstep⟩ := needs.step_eq (sound_of_not_broken hb needs.unsettled)
    fun value has bad => hb (.duration value needs has bad)
  rw [hstep]
  refine ⟨r, ?_⟩
  cases hs : v.profile.get "source_profile" with
  | none =>
    cases hc : v.profile.get "credential_source" with
    | none => exact absurd (.noLink needs (has_eq_false.2 hs) (has_eq_false.2 hc)) hb
    | some name =>
      cases hn : Place.ofName? name with
      | none => exact absurd (.unknownLink name needs hc (ofName?_eq_none.1 hn)) hb
      | some place => exact ⟨.place place, by simp only [roleStep, hs, hc, hn]⟩
  | some source =>
    cases hc : v.profile.get "credential_source" with
    | some name => exact absurd (.bothLinks needs (has_iff.2 ⟨_, hs⟩) (has_iff.2 ⟨_, hc⟩)) hb
    | none =>
      by_cases hown : source = v.profile.name
      · subst hown
        obtain ⟨c, hk⟩ := keys_both (by simpa using fun hk => hb (.ownKeys needs hs hk))
        exact ⟨.keys c, by simp only [roleStep, hs, hc, if_true, hk]; rfl⟩
      · have hlink : v.profile.roleStep r = .ok (.link r source) := by
          rw [roleStep, hs, hc]
          exact if_neg hown
        have hnew : source ∉ v.names := by simpa [names, hown] using fun seen => hb (.loop source needs hs hown seen)
        cases hf : f.profile? source with
        | none => exact absurd (.missing source needs hs hown hf) hb
        | some q => exact absurd (.link (hstep.trans hlink) hnew hf) (hl _)

/-- Where nothing is wrong and no round follows the walk ends well. -/
theorem walk_of_last (hb : ¬ Broken f v) (hl : ∀ v', ¬ Follows f v v') (hr : roles.isEmpty = v.first) :
    ∃ o, f.walk v.names roles v.profile = .ok o := by
  have hbase : (∃ b, v.profile.step v.first = .ok (.base b)) → ∃ o, f.walk v.names roles v.profile = .ok o :=
    fun ⟨b, h⟩ => ⟨_, by rw [SharedFiles.walk, hr, h]⟩
  cases hset : v.profile.isSettled v.first with
  | true =>
    obtain ⟨c, -, hc⟩ := step_settled hset
    exact hbase ⟨_, hc⟩
  | false =>
    have hs := sound_of_not_broken hb hset
    cases hrole : v.profile.get "role_arn" with
    | none =>
      cases hprogram : v.profile.get "credential_process" with
      | some command => exact hbase ⟨_, hs.step_process hrole hprogram⟩
      | none =>
        have hfirst : v.first = true := by
          simpa using fun linked => hb (.nothing linked hset (has_eq_false.2 hrole) (has_eq_false.2 hprogram))
        exact ⟨none, by rw [SharedFiles.walk, hr, hs.step_nothing hrole hprogram, hfirst]; rfl⟩
    | some arn =>
      cases htoken : v.profile.get "web_identity_token_file" with
      | some file => exact hbase ⟨_, hs.step_token hrole htoken⟩
      | none =>
        have needs : v.profile.NeedsSource v.first := ⟨hset, has_iff.2 ⟨arn, hrole⟩, has_eq_false.2 htoken⟩
        obtain ⟨r, b, hstep⟩ := step_of_last hb hl needs
        exact ⟨_, by rw [SharedFiles.walk, hr, hstep]⟩

end Visit

/-! ## How long it goes on -/

namespace SharedFiles

/-- The names of the profiles in the files, each once. -/
def profileNames (f : SharedFiles) : List String := (f.names.filter fun name => (f.profile? name).isSome).dedup

theorem isSome_profile? {f : SharedFiles} {name : String} :
    (f.profile? name).isSome ↔ (Ini.section? f.credentials name).isSome ∨
      (Ini.section? f.config (heading ++ name)).isSome ∨ name = "default" ∧ (Ini.section? f.config name).isSome := by
  unfold profile? sections
  cases Ini.section? f.credentials name <;> cases Ini.section? f.config (heading ++ name) <;>
    by_cases hd : name = "default" <;> cases Ini.section? f.config name <;> simp [hd]

/-- A name has a section of its own in one of the files. -/
theorem mem_profileNames {f : SharedFiles} {name : String} :
    name ∈ f.profileNames ↔ (∃ s ∈ f.credentials, s.name = name) ∨ (∃ s ∈ f.config, s.name = heading ++ name) ∨
      name = "default" ∧ ∃ s ∈ f.config, s.name = name := by
  have hsection : ∀ (file : List Ini.Section) (n : String), (Ini.section? file n).isSome ↔ ∃ s ∈ file, s.name = n := by
    intro file n
    simp [Ini.section?]
  simp only [profileNames, List.mem_dedup, List.mem_filter, ← hsection, ← isSome_profile?, and_iff_right_iff_imp]
  intro h
  obtain ⟨p, hp⟩ := Option.isSome_iff_exists.1 h
  exact mem_names hp

theorem mem_profileNames_of_profile? {f : SharedFiles} {name : String} {p : Profile} (h : f.profile? name = some p) :
    name ∈ f.profileNames := by
  simp only [profileNames, List.mem_dedup, List.mem_filter]
  exact ⟨mem_names h, by rw [h]; rfl⟩

end SharedFiles

namespace Visit

variable {f : SharedFiles} {v v' : Visit} {roles : List Role}

/-- What the walk keeps: all names are those of profiles and no two are the same. -/
structure OnPath (f : SharedFiles) (v : Visit) : Prop where
  nodup : v.names.Nodup
  known : ∀ name ∈ v.names, name ∈ f.profileNames

theorem onPath_start {name : String} {p : Profile} (h : f.profile? name = some p) : OnPath f (start p) := by
  refine ⟨List.nodup_singleton _, ?_⟩
  intro n hn
  obtain rfl := List.mem_singleton.1 hn
  exact SharedFiles.name_of_profile? h ▸ SharedFiles.mem_profileNames_of_profile? h

theorem Follows.onPath (h : Follows f v v') (hv : OnPath f v) : OnPath f v' := by
  cases h with
  | @link r source q step new found =>
    have hname := SharedFiles.name_of_profile? found
    constructor
    · refine List.Nodup.append hv.nodup (List.nodup_singleton _) (List.disjoint_singleton.2 ?_)
      rwa [hname]
    · intro n hn
      rcases List.mem_append.1 hn with hn | hn
      · exact hv.known n hn
      · rw [List.mem_singleton.1 hn, hname]
        exact SharedFiles.mem_profileNames_of_profile? found

theorem Reaches.onPath (h : Reaches f v v') (hv : OnPath f v) : OnPath f v' := by
  induction h with
  | refl => exact hv
  | tail _ hstep ih => exact hstep.onPath ih

theorem OnPath.length_le (h : OnPath f v) : v.names.length ≤ f.profileNames.length :=
  (List.Nodup.subperm h.nodup h.known).length_le

theorem Follows.length_names (h : Follows f v v') : v'.names.length = v.names.length + 1 := by
  cases h
  simp [names]

/-- The walk comes to an end. -/
theorem OnPath.exists_last (h : OnPath f v) : ∃ v', Reaches f v v' ∧ ∀ v'', ¬ Follows f v' v'' := by
  -- every round leaves fewer profiles that are still to come
  induction hn : f.profileNames.length - v.names.length using Nat.strongRecOn generalizing v with
  | ind n ih =>
    by_cases hl : ∀ v'', ¬ Follows f v v''
    · exact ⟨v, .refl, hl⟩
    · push Not at hl
      obtain ⟨next, hnext⟩ := hl
      have hlt := (hnext.onPath h).length_le
      have hlen := hnext.length_names
      obtain ⟨last, hreach, hlast⟩ := ih _ (by omega) (hnext.onPath h) rfl
      exact ⟨last, .head hnext hreach, hlast⟩

/-- The walk is the same from everywhere it comes to, with the roles passed on the way. -/
theorem Reaches.walk_eq (h : Reaches f v v') (hr : roles.length = v.passed.length) :
    ∃ roles', roles'.length = v'.passed.length ∧
      f.walk v.names roles v.profile = f.walk v'.names roles' v'.profile := by
  induction h with
  | refl => exact ⟨roles, hr, rfl⟩
  | @tail w w' _ hstep ih =>
    obtain ⟨roles', hlen, heq⟩ := ih
    obtain ⟨r, hwalk⟩ := hstep.walk_eq (isEmpty_eq_first hlen)
    refine ⟨r :: roles', ?_, heq.trans hwalk⟩
    cases hstep
    simp [names, hlen]

/-- The plan fails exactly when the walk comes to a broken profile. -/
theorem plan_error_iff {name : String} {p : Profile} (hp : f.profile? name = some p) :
    (∃ e, f.plan p = .error e) ↔ ∃ v, Reaches f (start p) v ∧ Broken f v := by
  constructor
  · rintro ⟨e, he⟩
    obtain ⟨v, hreach, hlast⟩ := (onPath_start hp).exists_last
    obtain ⟨roles, hlen, heq⟩ := hreach.walk_eq (rfl : ([] : List Role).length = 0)
    refine ⟨v, hreach, by_contra fun hb => ?_⟩
    obtain ⟨o, ho⟩ := walk_of_last hb hlast (isEmpty_eq_first hlen)
    have hplan : f.plan p = .ok o := heq.trans ho
    rw [hplan] at he
    cases he
  · rintro ⟨v, hreach, hb⟩
    obtain ⟨roles, hlen, heq⟩ := hreach.walk_eq (rfl : ([] : List Role).length = 0)
    obtain ⟨e, he⟩ := hb.walk_eq (isEmpty_eq_first hlen)
    exact ⟨e, heq.trans he⟩

end Visit

end SigV4
