import Mathlib.Logic.Basic
import SigV4.Signer
/-!
# What a signer is made of

A signer is made exactly when its region is well formed and its source has a credential with both keys
that outlasts the next two minutes. The region is looked at first: when it is refused nobody is asked for
a credential. Every other refusal comes after the calls of the source and no more.
-/

namespace SigV4

/-! ## Regions -/

namespace Region

/-- Lower-case letters, digits and inner hyphens. -/
structure WellFormed (s : String) : Prop where
  nonempty : s ≠ ""
  plain : ∀ c ∈ s.toList, ('a' ≤ c ∧ c ≤ 'z') ∨ ('0' ≤ c ∧ c ≤ '9') ∨ c = '-'
  start : ¬ ['-'] <+: s.toList
  finish : ¬ ['-'] <:+ s.toList

theorem head?_eq_iff_prefix {c : Char} {cs : List Char} : cs.head? = some c ↔ [c] <+: cs := by
  cases cs with
  | nil => simp
  | cons d cs => simp [eq_comm]

theorem getLast?_eq_iff_suffix {c : Char} {cs : List Char} : cs.getLast? = some c ↔ [c] <:+ cs := by
  rw [List.getLast?_eq_some_iff]
  constructor
  · rintro ⟨front, rfl⟩
    exact List.suffix_append front [c]
  · rintro ⟨front, h⟩
    exact ⟨front, h.symm⟩

theorem isValid_iff {s : String} : isValid s = true ↔ WellFormed s := by
  have hempty : s.toList.isEmpty = false ↔ s ≠ "" := by
    rw [List.isEmpty_eq_false_iff, Ne, String.toList_eq_nil_iff]
  have hplain : s.toList.all isRegionChar = true ↔
      ∀ c ∈ s.toList, ('a' ≤ c ∧ c ≤ 'z') ∨ ('0' ≤ c ∧ c ≤ '9') ∨ c = '-' := by
    simp only [List.all_eq_true, isRegionChar, Bool.or_eq_true, Bool.and_eq_true, decide_eq_true_eq, beq_iff_eq,
      or_assoc]
  simp only [isValid, Bool.and_eq_true, Bool.not_eq_true', bne_iff_ne, Ne, hempty, hplain, head?_eq_iff_prefix,
    getLast?_eq_iff_suffix]
  constructor
  · rintro ⟨⟨⟨hne, hall⟩, hstart⟩, hfinish⟩
    exact ⟨hne, hall, hstart, hfinish⟩
  · rintro ⟨hne, hall, hstart, hfinish⟩
    exact ⟨⟨⟨hne, hall⟩, hstart⟩, hfinish⟩

theorem not_isValid_iff {s : String} : ¬ isValid s = true ↔ ¬ WellFormed s := not_congr isValid_iff

end Region

/-! ## Credentials -/

/-- Strictly earlier. -/
def Time.Before (s t : Time) : Prop := s.seconds < t.seconds ∨ s.seconds = t.seconds ∧ s.nanos < t.nanos

theorem Time.notAfter_eq_false {s t : Time} : s.notAfter t = false ↔ t.Before s := by
  simp only [notAfter, Before, Bool.or_eq_false_iff, Bool.and_eq_false_iff, decide_eq_false_iff_not,
    beq_eq_false_iff_ne]
  omega

namespace Credential

/-- Still good for more than two minutes; without an expiry it always is. -/
def Outlasts (c : Credential) (now : Time) : Prop := ∀ t, c.expiry = some t → (now.plusSeconds 120).Before t

variable {c : Credential} {now : Time}

theorem isExpired_eq_false : c.isExpired now = false ↔ c.Outlasts now := by
  unfold isExpired Outlasts
  cases c.expiry with
  | none => simp
  | some t =>
    simp only [Option.any_some, Option.some.injEq, forall_eq']
    exact Time.notAfter_eq_false

theorem isExpired_eq_true : c.isExpired now = true ↔ ¬ c.Outlasts now := by
  rw [← isExpired_eq_false, Bool.not_eq_false]

theorem hasKeys_iff : c.hasKeys = true ↔ c.accessKeyId ≠ "" ∧ c.secretAccessKey ≠ "" := by
  simp [hasKeys]

theorem hasKeys_eq_false : c.hasKeys = false ↔ c.accessKeyId = "" ∨ c.secretAccessKey = "" := by
  rw [← Bool.not_eq_true, hasKeys_iff, not_and_or, not_not, not_not]

end Credential

/-! ## Signers -/

namespace Signer

variable {source : Source} {region : String} {w : World} {before after : List Call} {c : Credential}

section
variable {valid : Region.isValid region = true} {now : Time}

theorem ofCredential_eq_ok {s : Signer} : ofCredential region valid now c = .ok s ↔
    (c.Outlasts now ∧ c.accessKeyId ≠ "" ∧ c.secretAccessKey ≠ "") ∧
      s.credential = c ∧ s.region = region ∧ s.time = none := by
  unfold ofCredential
  cases hx : c.isExpired now with
  | true => simp [Credential.isExpired_eq_true.1 hx]
  | false =>
    rw [if_neg (by simp)]
    by_cases hk : c.hasKeys = true
    · rw [dif_pos hk]
      constructor
      · intro h
        rw [← Except.ok.inj h]
        exact ⟨⟨Credential.isExpired_eq_false.1 hx, Credential.hasKeys_iff.1 hk⟩, rfl, rfl, rfl⟩
      · rintro ⟨-, rfl, rfl, htime⟩
        obtain ⟨credential, r, time, keys, ok⟩ := s
        obtain rfl : time = none := htime
        rfl
    · have hno : ¬ (c.accessKeyId ≠ "" ∧ c.secretAccessKey ≠ "") := fun h => hk (Credential.hasKeys_iff.2 h)
      rw [dif_neg hk]
      simp only [reduceCtorEq, hno, and_false, false_and]

theorem ofCredential_expired (h : ¬ c.Outlasts now) : ofCredential region valid now c = .error (expired c) :=
  if_pos (Credential.isExpired_eq_true.2 h)

theorem ofCredential_noKeys (hx : c.Outlasts now) (h : c.accessKeyId = "" ∨ c.secretAccessKey = "") :
    ofCredential region valid now c = .error noKeys := by
  unfold ofCredential
  rw [if_neg (by simp [Credential.isExpired_eq_false.2 hx]), dif_neg (by simp [Credential.hasKeys_eq_false.2 h])]

end

/-- Nobody is asked. -/
theorem create_of_invalid (h : ¬ Region.WellFormed region) :
    (create source region).run w before = (.error (Region.invalid region), before) := by
  unfold create
  rw [dif_neg (Region.not_isValid_iff.2 h), Resolve.run_fail]

theorem create_run (valid : Region.isValid region = true) : (create source region).run w before =
    match source.run w before with
    | (.error e, after) => (.error e, after)
    | (.ok none, after) => (.error (noCredential region), after)
    | (.ok (some c), after) => (ofCredential region valid w.now c, after) := by
  unfold create
  rw [dif_pos valid, Resolve.run_bind]
  cases source.run w before with
  | mk result after =>
    cases result with
    | error e => rfl
    | ok o => cases o <;> simp [Resolve.run_bind]

theorem create_eq_ok {s : Signer} : (create source region).run w before = (.ok s, after) ↔
    Region.WellFormed region ∧ source.run w before = (.ok (some s.credential), after) ∧
      (s.credential.Outlasts w.now ∧ s.credential.accessKeyId ≠ "" ∧ s.credential.secretAccessKey ≠ "") ∧
      s.region = region ∧ s.time = none := by
  by_cases hr : Region.WellFormed region
  · rw [create_run (Region.isValid_iff.2 hr)]
    rcases source.run w before with ⟨result, calls⟩
    rcases result with e | _ | c
    · simp
    · simp
    · simp only [Prod.mk.injEq, ofCredential_eq_ok, hr, Except.ok.injEq, Option.some.injEq, true_and]
      constructor
      · rintro ⟨⟨hc, rfl, hrest⟩, rfl⟩
        exact ⟨⟨rfl, rfl⟩, hc, hrest⟩
      · rintro ⟨⟨rfl, rfl⟩, hc, hrest⟩
        exact ⟨⟨hc, rfl, hrest⟩, rfl⟩
  · simp [create_of_invalid hr, hr]

theorem ofConfig_run {config : Config} (h : config.region = some region) :
    (ofConfig config).run w before = (create (Source.default (.ofConfig config)) region).run w before := by
  unfold ofConfig
  rw [Resolve.run_bind, Resolve.run_orFail, h]
  rfl

theorem ofConfig_noRegion {config : Config} (h : config.region = none) :
    (ofConfig config).run w before = (.error noRegion, before) := by
  unfold ofConfig
  rw [Resolve.run_bind, Resolve.run_orFail, h]
  rfl

/-- A signer is made exactly of a well-formed region and a credential that has both keys and outlasts two
minutes. What is refused is told in a fixed order: the region, before anyone is asked, then the source's own
error as it is, no credential, one that expires, and only then one that lacks a key. -/
theorem create_admits (source : Source) (region : String) (w : World) (before : List Call) :
    (∀ after, (∃ s, (create source region).run w before = (.ok s, after)) ↔
      Region.WellFormed region ∧ ∃ c, source.run w before = (.ok (some c), after) ∧
        c.accessKeyId ≠ "" ∧ c.secretAccessKey ≠ "" ∧ c.Outlasts w.now) ∧
    (∀ s after, (create source region).run w before = (.ok s, after) →
      source.run w before = (.ok (some s.credential), after) ∧ s.region = region ∧
        ∀ now, s.scope now = ⟨now, region, "execute-api"⟩) ∧
    (¬ Region.WellFormed region → ∃ e, e.kind = .configInvalid ∧
      ∀ asked : Source, (create asked region).run w before = (.error e, before)) ∧
    (Region.WellFormed region →
      (∀ e after, source.run w before = (.error e, after) →
        (create source region).run w before = (.error e, after)) ∧
      (∀ after, source.run w before = (.ok none, after) →
        ∃ e, e.kind = .credentialNotFound ∧ (create source region).run w before = (.error e, after)) ∧
      (∀ c after, source.run w before = (.ok (some c), after) → ¬ c.Outlasts w.now →
        ∃ e, e.kind = .credentialExpired ∧ (create source region).run w before = (.error e, after)) ∧
      (∀ c after, source.run w before = (.ok (some c), after) → c.Outlasts w.now →
        (c.accessKeyId = "" ∨ c.secretAccessKey = "") →
        ∃ e, e.kind = .credentialInvalid ∧ (create source region).run w before = (.error e, after))) ∧
    (∀ profile, (ofRegion region profile).run w before =
      (ofConfig { region := some region, profile }).run w before) ∧
    (∀ config : Config, config.region = none →
      ∃ e, e.kind = .configInvalid ∧ (ofConfig config).run w before = (.error e, before)) := by
  refine ⟨?_, ?_, ?_, ?_, ?_, ?_⟩
  · intro after
    constructor
    · rintro ⟨s, hs⟩
      obtain ⟨hr, hsource, ⟨hx, hkey, hsecret⟩, -⟩ := create_eq_ok.1 hs
      exact ⟨hr, s.credential, hsource, hkey, hsecret, hx⟩
    · rintro ⟨hr, c, hsource, hkey, hsecret, hx⟩
      let s : Signer := ⟨c, region, none, Credential.hasKeys_iff.2 ⟨hkey, hsecret⟩, Region.isValid_iff.2 hr⟩
      have hs : (create source region).run w before = (.ok s, after) :=
        create_eq_ok.2 ⟨hr, hsource, ⟨hx, hkey, hsecret⟩, rfl, rfl⟩
      exact ⟨s, hs⟩
  · intro s after hs
    obtain ⟨-, hsource, -, hregion, htime⟩ := create_eq_ok.1 hs
    refine ⟨hsource, hregion, fun now => ?_⟩
    rw [scope, htime, hregion]
    rfl
  · intro hr
    exact ⟨Region.invalid region, rfl, fun asked => create_of_invalid hr⟩
  · intro hr
    have valid := Region.isValid_iff.2 hr
    refine ⟨?_, ?_, ?_, ?_⟩
    · intro e after h
      rw [create_run valid, h]
    · intro after h
      exact ⟨noCredential region, rfl, by rw [create_run valid, h]⟩
    · intro c after h hx
      refine ⟨expired c, rfl, ?_⟩
      rw [create_run valid, h]
      exact congrArg (·, after) (ofCredential_expired hx)
    · intro c after h hx hk
      refine ⟨noKeys, rfl, ?_⟩
      rw [create_run valid, h]
      exact congrArg (·, after) (ofCredential_noKeys hx hk)
  · intro profile
    exact (ofConfig_run rfl).symm
  · intro config h
    exact ⟨noRegion, rfl, ofConfig_noRegion h⟩

/-- A credential that is good for a nanosecond more than two minutes, when it is 2024-05-01T10:20:30Z. -/
def justLasting : Credential :=
  { accessKeyId := "AKID", secretAccessKey := "secret", expiry := some ⟨1714558950, 1⟩ }

theorem create_admits_justLasting : ∃ s,
    (create (pure (some justLasting)) "eu-west-1").run { now := ⟨1714558830, 0⟩ } [] = (.ok s, []) ∧
      s.credential = justLasting ∧ s.region = "eu-west-1" := by
  have hregion : Region.WellFormed "eu-west-1" := Region.isValid_iff.1 (by decide +kernel)
  have hlasts : justLasting.Outlasts ⟨1714558830, 0⟩ := Credential.isExpired_eq_false.1 (by decide +kernel)
  obtain ⟨hmade, hholds, -⟩ := create_admits (pure (some justLasting)) "eu-west-1" { now := ⟨1714558830, 0⟩ } []
  obtain ⟨s, hs⟩ := (hmade []).2 ⟨hregion, justLasting, rfl, by decide, by decide, hlasts⟩
  obtain ⟨hcredential, hin, -⟩ := hholds s [] hs
  refine ⟨s, hs, ?_, hin⟩
  rw [Resolve.run_pure] at hcredential
  simpa using hcredential.symm

end Signer

end SigV4
