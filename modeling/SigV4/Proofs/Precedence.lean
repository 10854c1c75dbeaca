import SigV4.Source.Default
/-!
# The first source that has something

Sources are asked one after the other, each in the world that the one before it left, until one does not
come back with nothing. What that one says is the answer, and no later one is asked. So a list of sources
inside another is the same as its members in its place, to any depth.
-/

namespace SigV4.Source

open Resolve

variable {w : World} {before after : List Call} {s t u : Source}

/-! ## One source and the next -/

/-- What the first source has, and what the other one has when that is nothing. -/
def orElse (s t : Source) : Source := s >>= fun o => match o with
  | some c => pure (some c)
  | none => t

theorem orElse_run : (s.orElse t).run w before = match s.run w before with
    | (.ok none, after) => t.run w after
    | decided => decided := by
  unfold orElse
  rw [run_bind]
  rcases s.run w before with ⟨e | _ | c, after⟩ <;> rfl

theorem orElse_assoc (s t u : Source) : (s.orElse t).orElse u = s.orElse (t.orElse u) := by
  unfold orElse
  rw [bind_assoc]
  apply bind_congr
  intro o
  cases o with
  | none => rfl
  | some c => rfl

theorem none_orElse (t : Source) : orElse (pure none) t = t := by
  unfold orElse
  rw [pure_bind]

theorem orElse_none (s : Source) : s.orElse (pure none) = s := by
  have h : (fun o : Option Credential => match o with
      | some c => (pure (some c) : Source)
      | none => pure none) = pure := by
    funext o
    cases o <;> rfl
  unfold orElse
  rw [h, bind_pure]

/-! ## Lists of sources -/

theorem firstOf_cons (s : Source) (rest : List Source) : firstOf (s :: rest) = s.orElse (firstOf rest) := by
  apply bind_congr
  intro o
  cases o <;> rfl

theorem firstOf_singleton (s : Source) : firstOf [s] = s := by
  rw [firstOf_cons]
  exact orElse_none s

theorem firstOf_append (front back : List Source) :
    firstOf (front ++ back) = (firstOf front).orElse (firstOf back) := by
  induction front with
  | nil => exact (none_orElse _).symm
  | cons s front ih => rw [List.cons_append, firstOf_cons, firstOf_cons, ih, orElse_assoc]

/-- A list of sources among others is the same as its members in its place. -/
theorem firstOf_flatten (front inner back : List Source) :
    firstOf (front ++ firstOf inner :: back) = firstOf (front ++ inner ++ back) := by
  rw [List.append_assoc, firstOf_append, firstOf_append, firstOf_cons, firstOf_append inner]

/-- All these sources come back with nothing, each in the world that the one before it left. -/
inductive Passed (w : World) : List Source → List Call → List Call → Prop where
  | nil (calls : List Call) : Passed w [] calls calls
  | cons {s : Source} {rest : List Source} {before between after : List Call}
      (nothing : s.run w before = (.ok none, between)) (others : Passed w rest between after) :
      Passed w (s :: rest) before after

theorem passed_nil : Passed w [] before after ↔ before = after := by
  constructor
  · rintro ⟨⟩
    rfl
  · rintro rfl
    exact .nil before

theorem passed_cons {rest : List Source} :
    Passed w (s :: rest) before after ↔
      ∃ between, s.run w before = (.ok none, between) ∧ Passed w rest between after := by
  constructor
  · rintro (_ | ⟨nothing, others⟩)
    exact ⟨_, nothing, others⟩
  · rintro ⟨between, nothing, others⟩
    exact .cons nothing others

theorem firstOf_none {sources : List Source} :
    (firstOf sources).run w before = (.ok none, after) ↔ Passed w sources before after := by
  induction sources generalizing before with
  | nil =>
    rw [passed_nil, firstOf, run_pure, Prod.mk.injEq]
    exact and_iff_right rfl
  | cons s rest ih =>
    rw [firstOf_cons, orElse_run, passed_cons]
    rcases s.run w before with ⟨e | _ | c, between⟩
    · simp
    · simp [ih]
    · simp

theorem firstOf_decided {sources : List Source} {result : Except Error (Option Credential)} (h : result ≠ .ok none) :
    (firstOf sources).run w before = (result, after) ↔ ∃ passed s later between,
      sources = passed ++ s :: later ∧ Passed w passed before between ∧ s.run w between = (result, after) := by
  induction sources generalizing before with
  | nil =>
    rw [firstOf, run_pure]
    simp [Ne.symm h]
  | cons s rest ih =>
    rw [firstOf_cons, orElse_run]
    constructor
    · intro hrun
      rcases hs : s.run w before with ⟨outcome, between⟩
      rw [hs] at hrun
      by_cases hnone : outcome = .ok none
      · -- the source has nothing, so one of the others decides
        rw [hnone] at hs hrun
        obtain ⟨passed, d, later, calls, rfl, hpassed, hd⟩ := ih.1 hrun
        exact ⟨s :: passed, d, later, calls, rfl, .cons hs hpassed, hd⟩
      · refine ⟨[], s, rest, before, rfl, .nil before, ?_⟩
        rcases outcome with e | _ | c
        · exact hs.trans hrun
        · exact absurd rfl hnone
        · exact hs.trans hrun
    · rintro ⟨passed, d, later, between, hlist, hpassed, hd⟩
      cases hpassed with
      | nil =>
        obtain ⟨rfl, rfl⟩ := List.cons.inj hlist
        rw [hd]
        rcases result with e | _ | c
        · rfl
        · exact absurd rfl h
        · rfl
      | cons nothing others =>
        obtain ⟨rfl, rfl⟩ := List.cons.inj hlist
        rw [nothing]
        exact ih.2 ⟨_, d, later, between, rfl, others, hd⟩

/-! ## Lists within lists -/

/-- Sources in lists within lists. -/
inductive Nest where
  | one (s : Source)
  | list (parts : List Nest)

namespace Nest

def source : Nest → Source
  | one s => s
  | list parts => firstOf (parts.map source)

/-- The sources in the order in which they are written. -/
def sources : Nest → List Source
  | one s => [s]
  | list parts => parts.flatMap sources

theorem firstOf_parts {parts : List Nest} (h : ∀ n ∈ parts, n.source = firstOf n.sources) :
    firstOf (parts.map source) = firstOf (parts.flatMap sources) := by
  induction parts with
  | nil => rfl
  | cons n parts ih =>
    rw [List.forall_mem_cons] at h
    rw [List.map_cons, List.flatMap_cons, firstOf_cons, firstOf_append, h.1, ih h.2]

theorem source_eq (n : Nest) : n.source = firstOf n.sources := by
  match n with
  | one s =>
    rw [source, sources, firstOf_singleton]
  | list parts =>
    rw [source, sources]
    exact firstOf_parts fun n _ => source_eq n

end Nest

/-! ## The default source -/

/-- Without a profile of the caller's choice, the sources from the nearest to the farthest. -/
def ambient (c : Config) : List Source :=
  [environment, webIdentity { region := c.region }, profile (Default.profileSettings c), container {},
    instanceMetadata (Default.metadataSettings c)]

theorem default_unnamed {c : Config} (h : c.profile = none) : default (.ofConfig c) = firstOf (ambient c) := by
  have hc : Default.ofConfig c = ⟨none, ambient c⟩ := by
    unfold Default.ofConfig
    rw [h]
    rfl
  rw [default, hc]
  exact firstOf_singleton _

theorem default_named {c : Config} {name : String} (h : c.profile = some name) :
    default (.ofConfig c) = firstOf [profile (Default.profileSettings c), container {},
      instanceMetadata (Default.metadataSettings c)] := by
  have hc : Default.ofConfig c = ⟨some (Default.profileSettings c), Default.platform c⟩ := by
    unfold Default.ofConfig
    rw [h]
    rfl
  rw [default, hc]
  exact firstOf_flatten [profile (Default.profileSettings c)] (Default.platform c) []

theorem environment_run_keys {key secret : String} (hk : w.filled? Variable.accessKeyId = some key)
    (hs : w.filled? Variable.secretAccessKey = some secret) :
    environment.run w before = (.ok (some ⟨key, secret, w.filled? Variable.sessionToken, none⟩), before) := by
  unfold environment
  simp only [run_bind, run_filled?, hk, hs, run_pure]

/-- The sources that have nothing are passed in order, and the first other one decides: its credential or its
error is the answer, after its calls and those of the sources before it, and whatever comes later does
nothing. Lists within lists make no difference. The default source is such a list: with both keys in the
environment nobody is called. -/
theorem firstOf_decides (sources : List Source) (w : World) (before : List Call) :
    (∀ after, (firstOf sources).run w before = (.ok none, after) ↔ Passed w sources before after) ∧
    (∀ result after, result ≠ .ok none → ((firstOf sources).run w before = (result, after) ↔
      ∃ passed s later between, sources = passed ++ s :: later ∧ Passed w passed before between ∧
        s.run w between = (result, after))) ∧
    (∀ front inner back, firstOf (front ++ firstOf inner :: back) = firstOf (front ++ inner ++ back)) ∧
    (∀ n : Nest, n.source = firstOf n.sources) ∧
    (∀ c : Config, c.profile = none →
      default (.ofConfig c) = firstOf [environment, webIdentity { region := c.region },
        profile (Default.profileSettings c), container {}, instanceMetadata (Default.metadataSettings c)] ∧
      ∀ key secret, w.filled? Variable.accessKeyId = some key → w.filled? Variable.secretAccessKey = some secret →
        (default (.ofConfig c)).run w before =
          (.ok (some ⟨key, secret, w.filled? Variable.sessionToken, none⟩), before)) := by
  refine ⟨fun _ => firstOf_none, fun _ _ => firstOf_decided, firstOf_flatten, Nest.source_eq, ?_⟩
  intro c hc
  refine ⟨default_unnamed hc, ?_⟩
  intro key secret hk hs
  rw [default_unnamed hc, firstOf_decided (by simp)]
  exact ⟨[], environment, _, before, rfl, .nil before, environment_run_keys hk hs⟩

/-- Keys in the environment and a web identity that would need a file. -/
def keysAtHand : World where
  now := ⟨0, 0⟩
  environment := [("AWS_ACCESS_KEY_ID", "AKID"), ("AWS_SECRET_ACCESS_KEY", "secret"), ("AWS_ROLE_ARN", "arn"),
    ("AWS_WEB_IDENTITY_TOKEN_FILE", "/token")]
  file := some fun _ _ => .ok []

theorem firstOf_decides_keysAtHand :
    (default (.ofConfig {})).run keysAtHand [] = (.ok (some ⟨"AKID", "secret", none, none⟩), []) := by
  obtain ⟨-, -, -, -, hdefault⟩ := firstOf_decides [] keysAtHand []
  exact (hdefault {} rfl).2 "AKID" "secret" rfl rfl

end SigV4.Source
