import Mathlib.Tactic.Push
import SigV4.Profile.Walk
/-!
# One profile

What stands in a profile, said by the keys that it has, and what that means for the step of the walk
at it.
-/

namespace SigV4

/-! ## Keys -/

namespace Profile

def hasBothKeys (p : Profile) : Bool := p.has "aws_access_key_id" && p.has "aws_secret_access_key"

def hasOneKey (p : Profile) : Bool := p.has "aws_access_key_id" != p.has "aws_secret_access_key"

/-- Keys come before the role, but not where the walk starts. -/
def looksAtKeys (p : Profile) (first : Bool) : Bool := !(first && p.has "role_arn")

/-- The keys are the credential. -/
def isSettled (p : Profile) (first : Bool) : Bool := p.looksAtKeys first && p.hasBothKeys

theorem has_iff {p : Profile} {key : String} : p.has key = true ↔ ∃ v, p.get key = some v := Option.isSome_iff_exists

theorem has_eq_false {p : Profile} {key : String} : p.has key = false ↔ p.get key = none := by
  simp [has]

variable {p : Profile} {first : Bool}

theorem keys_both (h : p.hasBothKeys = true) : ∃ c, p.keys = .ok (some c) := by
  simp only [hasBothKeys, Bool.and_eq_true, has_iff] at h
  obtain ⟨⟨key, hk⟩, secret, hs⟩ := h
  exact ⟨_, by rw [keys, hk, hs]⟩

theorem keys_one (h : p.hasOneKey = true) : ∃ e, p.keys = .error e := by
  unfold hasOneKey has at h
  cases hk : p.get "aws_access_key_id" <;> cases hs : p.get "aws_secret_access_key" <;> simp [keys, hk, hs] at h ⊢

theorem keys_neither (hb : p.hasBothKeys = false) (ho : p.hasOneKey = false) : p.keys = .ok none := by
  unfold hasBothKeys has at hb
  unfold hasOneKey has at ho
  cases hk : p.get "aws_access_key_id" <;> cases hs : p.get "aws_secret_access_key" <;> simp [keys, hk, hs] at hb ho ⊢

/-! ## One step -/

theorem step_settled (h : p.isSettled first = true) :
    ∃ c, p.keys = .ok (some c) ∧ p.step first = .ok (.base (.keys c)) := by
  simp only [isSettled, looksAtKeys, Bool.and_eq_true, Bool.not_eq_true'] at h
  obtain ⟨c, hc⟩ := keys_both h.2
  exact ⟨c, hc, by simp [step, h.1, hc]; rfl⟩

theorem step_half (hl : p.looksAtKeys first = true) (h : p.hasOneKey = true) : ∃ e, p.step first = .error e := by
  obtain ⟨e, he⟩ := keys_one h
  simp only [looksAtKeys, Bool.not_eq_true'] at hl
  exact ⟨e, by simp [step, hl, he]; rfl⟩

theorem step_behind (hs : p.isSettled first = false) (hh : p.looksAtKeys first = true → p.hasOneKey = false) :
    p.step first = p.stepBehindKeys := by
  unfold step
  cases hl : p.looksAtKeys first with
  | false =>
    rw [looksAtKeys, Bool.not_eq_false'] at hl
    rw [if_pos hl]
  | true =>
    have hk := keys_neither (by simpa [isSettled, hl] using hs) (hh hl)
    rw [looksAtKeys, Bool.not_eq_true'] at hl
    rw [hl, hk]
    rfl

/-- Neither the keys nor the other settings of a profile stand in the way of its role. -/
structure Sound (p : Profile) (first : Bool) : Prop where
  unsettled : p.isSettled first = false
  whole : p.looksAtKeys first = true → p.hasOneKey = false
  supported : ∀ key ∈ unsupportedKeys, p.has key = false

theorem step_unsupported {key : String} (hs : p.isSettled first = false) (hk : key ∈ unsupportedKeys)
    (h : p.has key = true) : ∃ e, p.step first = .error e := by
  by_cases hh : p.looksAtKeys first = true ∧ p.hasOneKey = true
  · exact step_half hh.1 hh.2
  · rw [step_behind hs fun hl => by simpa [hl] using hh, stepBehindKeys]
    cases hf : unsupportedKeys.find? p.has with
    | some found => exact ⟨_, rfl⟩
    | none => exact absurd h (List.find?_eq_none.1 hf key hk)

theorem error_or_sound (hs : p.isSettled first = false) : (∃ e, p.step first = .error e) ∨ p.Sound first := by
  by_cases hh : p.looksAtKeys first = true ∧ p.hasOneKey = true
  · exact .inl (step_half hh.1 hh.2)
  by_cases hu : ∃ key ∈ unsupportedKeys, p.has key = true
  · obtain ⟨key, hk, h⟩ := hu
    exact .inl (step_unsupported hs hk h)
  · exact .inr ⟨hs, fun hl => by simpa [hl] using hh, fun key hk => by simpa using fun h => hu ⟨key, hk, h⟩⟩

namespace Sound

variable (h : p.Sound first)
include h

theorem find?_eq_none : unsupportedKeys.find? p.has = none :=
  List.find?_eq_none.2 fun key hk => by simp [h.supported key hk]

theorem step_role {arn : String} (ha : p.get "role_arn" = some arn)
    (ht : p.get "web_identity_token_file" = none) : p.step first = p.role arn >>= p.roleStep := by
  rw [step_behind h.unsettled h.whole, stepBehindKeys, h.find?_eq_none, ha, ht]

theorem step_token {arn file : String} (ha : p.get "role_arn" = some arn)
    (ht : p.get "web_identity_token_file" = some file) :
    p.step first = .ok (.base (.webIdentity arn file (p.get "role_session_name"))) := by
  rw [step_behind h.unsettled h.whole, stepBehindKeys, h.find?_eq_none, ha, ht]

theorem step_process {command : String} (ha : p.get "role_arn" = none)
    (hc : p.get "credential_process" = some command) : p.step first = .ok (.base (.process command)) := by
  rw [step_behind h.unsettled h.whole, stepBehindKeys, h.find?_eq_none, ha, hc]

theorem step_nothing (ha : p.get "role_arn" = none) (hc : p.get "credential_process" = none) :
    p.step first = .ok .nothing := by
  rw [step_behind h.unsettled h.whole, stepBehindKeys, h.find?_eq_none, ha, hc]

end Sound

/-! ## Roles and their sources -/

/-- A role that is taken on with something else: the keys are not the credential and no token is. -/
structure NeedsSource (p : Profile) (first : Bool) : Prop where
  unsettled : p.isSettled first = false
  role : p.has "role_arn" = true
  noToken : p.has "web_identity_token_file" = false

/-- A duration is a number if there is one. -/
def HasGoodDuration (p : Profile) : Prop := ∀ value, p.get "duration_seconds" = some value → duration? value ≠ none

theorem role_ok (arn : String) (h : p.HasGoodDuration) : ∃ r, p.role arn = .ok r := by
  unfold role
  cases hv : p.get "duration_seconds" with
  | none => exact ⟨_, rfl⟩
  | some value =>
    cases hd : duration? value with
    | none => exact absurd hd (h value hv)
    | some n => exact ⟨_, by simp only [hd]; rfl⟩

theorem role_error {arn value : String} (h : p.get "duration_seconds" = some value) (hd : duration? value = none) :
    p.role arn = .error (.duration p.name value) := by
  simp only [role, h, hd]
  rfl

theorem NeedsSource.step_eq (h : p.NeedsSource first) (hs : p.Sound first) (hd : p.HasGoodDuration) :
    ∃ r, p.step first = p.roleStep r := by
  obtain ⟨arn, ha⟩ := has_iff.1 h.role
  obtain ⟨r, hr⟩ := role_ok arn hd
  exact ⟨r, by rw [hs.step_role ha (has_eq_false.1 h.noToken), hr]; rfl⟩

/-- The step fails before it comes to the source, or it is up to the source. -/
theorem NeedsSource.step_cases (h : p.NeedsSource first) :
    (∃ e, p.step first = .error e) ∨ p.HasGoodDuration ∧ ∃ r, p.step first = p.roleStep r := by
  rcases error_or_sound h.unsettled with he | hs
  · exact .inl he
  by_cases hd : p.HasGoodDuration
  · exact .inr ⟨hd, h.step_eq hs hd⟩
  · unfold HasGoodDuration at hd
    push Not at hd
    obtain ⟨value, hv, hd⟩ := hd
    obtain ⟨arn, ha⟩ := has_iff.1 h.role
    exact .inl ⟨_, by rw [hs.step_role ha (has_eq_false.1 h.noToken), role_error hv hd]; rfl⟩

theorem roleStep_both (r : Role) (hs : p.has "source_profile" = true) (hc : p.has "credential_source" = true) :
    ∃ e, p.roleStep r = .error e := by
  obtain ⟨source, hs⟩ := has_iff.1 hs
  obtain ⟨name, hc⟩ := has_iff.1 hc
  exact ⟨.bothLinks p.name, by rw [roleStep, hs, hc]⟩

theorem roleStep_neither (r : Role) (hs : p.has "source_profile" = false) (hc : p.has "credential_source" = false) :
    p.roleStep r = .error (.noLink p.name) := by
  rw [roleStep, has_eq_false.1 hs, has_eq_false.1 hc]

theorem ofName?_eq_none {name : String} :
    Place.ofName? name = none ↔ name ∉ ["Environment", "Ec2InstanceMetadata", "EcsContainer"] := by
  simp only [Place.ofName?, List.find?_eq_none, decide_eq_true_eq, List.mem_cons, not_or]
  simp [Place.name, eq_comm]

/-- With two sources there is an error anyway. -/
theorem roleStep_unknown (r : Role) {name : String} (hc : p.get "credential_source" = some name)
    (hn : name ∉ ["Environment", "Ec2InstanceMetadata", "EcsContainer"]) : ∃ e, p.roleStep r = .error e := by
  cases hs : p.get "source_profile" with
  | some source => exact roleStep_both r (has_iff.2 ⟨source, hs⟩) (has_iff.2 ⟨name, hc⟩)
  | none => exact ⟨.unknownLink name, by simp only [roleStep, hs, hc, ofName?_eq_none.2 hn]⟩

theorem roleStep_own (r : Role) (hs : p.get "source_profile" = some p.name) (hk : p.hasBothKeys = false) :
    ∃ e, p.roleStep r = .error e := by
  cases hc : p.get "credential_source" with
  | some name => exact roleStep_both r (has_iff.2 ⟨_, hs⟩) (has_iff.2 ⟨name, hc⟩)
  | none =>
    simp only [roleStep, hs, hc, if_true]
    cases ho : p.hasOneKey with
    | true =>
      obtain ⟨e, he⟩ := keys_one ho
      exact ⟨e, by rw [he]; rfl⟩
    | false => exact ⟨.ownKeysMissing p.name, by rw [keys_neither hk ho]; rfl⟩

theorem roleStep_other (r : Role) {source : String} (hs : p.get "source_profile" = some source)
    (hne : source ≠ p.name) : (∃ e, p.roleStep r = .error e) ∨ p.roleStep r = .ok (.link r source) := by
  cases hc : p.get "credential_source" with
  | some name => exact .inl (roleStep_both r (has_iff.2 ⟨source, hs⟩) (has_iff.2 ⟨name, hc⟩))
  | none => exact .inr (by rw [roleStep, hs, hc]; exact if_neg hne)

/-! ## All that a step comes to -/

theorem name_of_ofName? {name : String} {place : Place} (h : Place.ofName? name = some place) : place.name = name := by
  simpa using List.find?_some h

/-- A role is taken on with a place, with the profile's own keys or with another profile. -/
theorem roleStep_cases {r : Role} {s : Step} (h : p.roleStep r = .ok s) :
    (∃ place, p.get "credential_source" = some place.name ∧ s = .role r (.place place)) ∨
    (∃ c, p.keys = .ok (some c) ∧ s = .role r (.keys c)) ∨ ∃ source, s = .link r source := by
  unfold roleStep at h
  cases hs : p.get "source_profile" with
  | none =>
    cases hc : p.get "credential_source" with
    | none => simp [hs, hc] at h
    | some name =>
      cases hn : Place.ofName? name with
      | none => simp [hs, hc, hn] at h
      | some place =>
        simp only [hs, hc, hn, Except.ok.injEq] at h
        exact .inl ⟨place, by rw [name_of_ofName? hn], h.symm⟩
  | some source =>
    cases hc : p.get "credential_source" with
    | some name => simp [hs, hc] at h
    | none =>
      simp only [hs, hc] at h
      split at h
      · -- the profile is its own source
        cases hk : p.keys with
        | error e => rw [hk] at h; cases h
        | ok o =>
          rw [hk] at h
          cases o with
          | none => cases h
          | some c =>
            cases h
            exact .inr (.inl ⟨c, rfl, rfl⟩)
      · cases h
        exact .inr (.inr ⟨source, rfl⟩)

/-- The ways in which a step succeeds. -/
inductive Leads (p : Profile) (first : Bool) : Step → Prop where
  | keys {c : Credential} (settled : p.isSettled first = true) (both : p.keys = .ok (some c)) :
      Leads p first (.base (.keys c))
  | nothing (sound : p.Sound first) (noRole : p.get "role_arn" = none)
      (noProgram : p.get "credential_process" = none) : Leads p first .nothing
  | process {command : String} (sound : p.Sound first) (noRole : p.get "role_arn" = none)
      (program : p.get "credential_process" = some command) : Leads p first (.base (.process command))
  | token {arn file : String} (sound : p.Sound first) (role : p.get "role_arn" = some arn)
      (token : p.get "web_identity_token_file" = some file) :
      Leads p first (.base (.webIdentity arn file (p.get "role_session_name")))
  | role {arn : String} {r : Role} {s : Step} (sound : p.Sound first) (role : p.get "role_arn" = some arn)
      (noToken : p.get "web_identity_token_file" = none) (reads : p.role arn = .ok r)
      (source : p.roleStep r = .ok s) : Leads p first s

theorem leads_of_step {s : Step} (h : p.step first = .ok s) : p.Leads first s := by
  cases hset : p.isSettled first with
  | true =>
    obtain ⟨c, hc, hstep⟩ := step_settled hset
    obtain rfl : s = .base (.keys c) := Except.ok.inj (h.symm.trans hstep)
    exact .keys hset hc
  | false =>
    rcases error_or_sound hset with ⟨e, he⟩ | sound
    · rw [h] at he
      cases he
    cases ha : p.get "role_arn" with
    | none =>
      cases hc : p.get "credential_process" with
      | none =>
        obtain rfl : s = .nothing := Except.ok.inj (h.symm.trans (sound.step_nothing ha hc))
        exact .nothing sound ha hc
      | some command =>
        obtain rfl : s = .base (.process command) := Except.ok.inj (h.symm.trans (sound.step_process ha hc))
        exact .process sound ha hc
    | some arn =>
      cases ht : p.get "web_identity_token_file" with
      | some file =>
        obtain rfl : s = .base (.webIdentity arn file (p.get "role_session_name")) :=
          Except.ok.inj (h.symm.trans (sound.step_token ha ht))
        exact .token sound ha ht
      | none =>
        have hrole : p.role arn >>= p.roleStep = .ok s := (sound.step_role ha ht).symm.trans h
        cases hr : p.role arn with
        | error e => rw [hr] at hrole; cases hrole
        | ok r =>
          rw [hr] at hrole
          exact .role sound ha ht hr hrole

end Profile

end SigV4
