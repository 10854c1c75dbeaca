import SigV4.Source.Profile
/-!
# Chains of roles

A profile's credential is found by a walk along the links, which collects roles, and then by taking on
the roles on the way back. `recursive` says the same in one breath: the credential of a role is the one
of its source, exchanged.
-/

namespace SigV4.Source.Profile

open SigV4.Profile

/-! ## The recursive reading -/

/-- The keys that a profile has for itself, before its role. -/
def ownKeys (p : SigV4.Profile) (top : Bool) : Except Fault (Option Credential) :=
  if top && p.has "role_arn" then .ok none else p.keys

def failing {α : Type} (e : Fault) : Resolve α := Resolve.fail e.error

/-- A profile that cannot be used ends the run where it is, with an invalid credential. -/
theorem run_failing {α : Type} (e : Fault) (w : World) (before : List Call) :
    ∃ error, (failing e : Resolve α).run w before = (.error error, before) ∧ error.kind = .credentialInvalid ∧
      error.message = e.message :=
  ⟨e.error, rfl, e.kind_error, rfl⟩

/-- The credential of a role, for the one that a source has. -/
def exchanged (x : Exchanges) (r : Role) (source : Resolve Credential) : Resolve Credential := do
  let c ← source
  let endpoint ← Resolve.lift (Sts.Endpoint.choose x.region x.regional)
  r.assume endpoint c

/-- The credential with which a profile takes on its role, when `linked` gives those of other profiles. -/
def sourceCredential (s : Settings) (p : SigV4.Profile) (linked : String → Resolve Credential) : Resolve Credential :=
  match p.get "source_profile", p.get "credential_source" with
  | some _, some _ => failing (.bothLinks p.name)
  | none, none => failing (.noLink p.name)
  | none, some name =>
    match Place.ofName? name with
    | some there => place s there >>= Resolve.orFail (nothingAt there)
    | none => failing (.unknownLink name)
  | some source, none =>
    if source = p.name then
      match p.keys with
      | .ok (some c) => pure c
      | .ok none => failing (.ownKeysMissing p.name)
      | .error e => failing e
    else linked source

/-- The credential of a profile that `visited` ends in. -/
def recursive (s : Settings) (x : Exchanges) (f : SharedFiles) (visited : List String) (top : Bool)
    (p : SigV4.Profile) : Resolve (Option Credential) :=
  match ownKeys p top, unsupportedKeys.find? p.has, p.get "role_arn" with
  | .error e, _, _ => failing e
  | .ok (some c), _, _ => pure (some c)
  | .ok none, some key, _ => failing (.unsupported p.name key)
  | .ok none, none, some arn =>
    match p.get "web_identity_token_file", p.role arn with
    | some file, _ =>
      some <$> WebIdentity.assume
        { sessionName := p.get "role_session_name", region := x.region, regional := some x.regional } arn file
    | none, .error e => failing e
    | none, .ok r =>
      some <$> exchanged x r (sourceCredential s p fun source =>
        if _new : source ∉ visited then
          match _found : f.profile? source with
          | some q => recursive s x f (visited ++ [source]) false q >>= Resolve.orFail (Fault.nothing q.name).error
          | none => failing (.missing p.name source)
        else failing (.loop visited source))
  | .ok none, none, none =>
    match p.get "credential_process" with
    | some command => some <$> Process.run command
    | none => if top then pure none else failing (.nothing p.name)
termination_by (f.unvisited visited).length
decreasing_by exact SharedFiles.length_unvisited_lt (SharedFiles.mem_names _found) _new

/-! ## Step by step -/

/-- What the source of a role has to offer. -/
def linked (s : Settings) (x : Exchanges) (f : SharedFiles) (visited : List String) (p : SigV4.Profile)
    (source : String) : Resolve Credential :=
  if source ∈ visited then failing (.loop visited source)
  else match f.profile? source with
    | some q => recursive s x f (visited ++ [source]) false q >>= Resolve.orFail (Fault.nothing q.name).error
    | none => failing (.missing p.name source)

/-- What one step of the walk has to do with the recursive reading. -/
def follow (s : Settings) (x : Exchanges) (f : SharedFiles) (visited : List String) (top : Bool) (p : SigV4.Profile) :
    Except Fault Step → Resolve (Option Credential)
  | .error e => failing e
  | .ok .nothing => if top then pure none else failing (.nothing p.name)
  | .ok (.base b) => some <$> base s x b
  | .ok (.role r b) => some <$> exchanged x r (base s x b)
  | .ok (.link r source) => some <$> exchanged x r (linked s x f visited p source)

variable (s : Settings) (x : Exchanges) (f : SharedFiles) (visited : List String) (top : Bool) (p : SigV4.Profile)

theorem step_eq : p.step top = match ownKeys p top with
    | .error e => .error e
    | .ok (some c) => .ok (.base (.keys c))
    | .ok none => p.stepBehindKeys := by
  unfold SigV4.Profile.step ownKeys
  split
  · rfl
  · cases p.keys with
    | error e => rfl
    | ok o => cases o <;> rfl

/-- The source of a role, as the recursion reads it and as the step does. -/
theorem follow_roleStep (r : Role) : follow s x f visited top p (p.roleStep r) =
    some <$> exchanged x r (sourceCredential s p (linked s x f visited p)) := by
  unfold roleStep sourceCredential
  cases p.get "source_profile" with
  | none =>
    cases p.get "credential_source" with
    | none => rfl
    | some name => cases h : Place.ofName? name <;> simp only [h] <;> rfl
  | some source =>
    cases p.get "credential_source" with
    | some name => rfl
    | none =>
      by_cases hown : source = p.name
      · simp only [if_pos hown]
        cases p.keys with
        | error e => rfl
        | ok o => cases o <;> rfl
      · simp only [if_neg hown]
        rfl

theorem recursive_eq : recursive s x f visited top p = follow s x f visited top p (p.step top) := by
  have hlinked : (fun source => if _new : source ∉ visited then
        match _found : f.profile? source with
        | some q => recursive s x f (visited ++ [source]) false q >>= Resolve.orFail (Fault.nothing q.name).error
        | none => failing (.missing p.name source)
      else failing (.loop visited source)) = linked s x f visited p := by
    funext source
    unfold linked
    by_cases h : source ∈ visited
    · rw [if_pos h, dif_neg (not_not_intro h)]
    · rw [if_neg h, dif_pos h]
      cases f.profile? source <;> rfl
  rw [recursive, step_eq, hlinked]
  cases ownKeys p top with
  | error e => rfl
  | ok o =>
    cases o with
    | some c => rfl
    | none =>
      simp only [stepBehindKeys]
      cases unsupportedKeys.find? p.has with
      | some key => rfl
      | none =>
        cases p.get "role_arn" with
        | none => cases p.get "credential_process" <;> rfl
        | some arn =>
          cases p.get "web_identity_token_file" with
          | some file => rfl
          | none =>
            cases hr : p.role arn with
            | error e => simp only [hr]; rfl
            | ok r =>
              simp only [hr]
              exact (follow_roleStep s x f visited top p r).symm

/-- A linked profile never comes back with nothing. -/
theorem recursive_linked : ∃ m : Resolve Credential, recursive s x f visited false p = some <$> m := by
  rw [recursive_eq]
  cases p.step false with
  | error e => exact ⟨failing e, rfl⟩
  | ok step =>
    cases step with
    | nothing => exact ⟨failing (.nothing p.name), rfl⟩
    | base b => exact ⟨_, rfl⟩
    | role r b => exact ⟨_, rfl⟩
    | link r source => exact ⟨_, rfl⟩

/-! ## The way back -/

/-- The roles taken on one after the other. -/
def unwind (roles : List Role) (c : Credential) : Resolve Credential :=
  if roles.isEmpty then pure c
  else do
    let endpoint ← Resolve.lift (Sts.Endpoint.choose x.region x.regional)
    roles.foldlM (fun c r => r.assume endpoint c) c

theorem carryOut_eq (b : Base) (roles : List Role) : carryOut s x ⟨b, roles⟩ = base s x b >>= unwind x roles := by
  cases roles <;> rfl

/-- Without a credential nothing is exchanged. -/
theorem run_exchanged_of_error {r : Role} {m : Resolve Credential} {w : World} {before after : List Call} {e : Error}
    (h : m.run w before = (.error e, after)) : (exchanged x r m).run w before = (.error e, after) := by
  rw [exchanged, Resolve.run_bind, h]

theorem exchanged_eq (r : Role) (m : Resolve Credential) : exchanged x r m = m >>= fun c => exchanged x r (pure c) := by
  simp only [exchanged, pure_bind]

/-- The last role passed is taken on first. -/
theorem unwind_cons (r : Role) (roles : List Role) (c : Credential) :
    unwind x (r :: roles) c = exchanged x r (pure c) >>= unwind x roles := by
  cases he : Sts.Endpoint.choose x.region x.regional with
  | error e =>
    simp only [unwind, exchanged, he, List.isEmpty_cons, Bool.false_eq_true, if_false, Resolve.lift, pure_bind]
    rfl
  | ok endpoint =>
    simp only [unwind, exchanged, he, List.isEmpty_cons, Bool.false_eq_true, if_false, Resolve.lift, pure_bind,
      List.foldlM_cons]
    refine bind_congr fun c' => ?_
    cases roles with
    | nil => rfl
    | cons r' roles =>
      simp only [unwind, he, List.isEmpty_cons, Bool.false_eq_true, if_false, Resolve.lift, pure_bind, List.foldlM_cons]

theorem unwind_exchanged (r : Role) (roles : List Role) (m : Resolve Credential) :
    exchanged x r m >>= unwind x roles = m >>= unwind x (r :: roles) := by
  rw [exchanged_eq, bind_assoc]
  exact bind_congr fun c => (unwind_cons x r roles c).symm

/-- What a plan comes to. -/
def carry : Except Fault (Option Plan) → Resolve (Option Credential)
  | .error e => failing e
  | .ok none => pure none
  | .ok (some plan) => some <$> carryOut s x plan

/-- Nothing stays nothing, and with a credential the roles are taken on. -/
def goOn (roles : List Role) : Option Credential → Resolve (Option Credential)
  | none => pure none
  | some c => some <$> unwind x roles c

theorem map_some_bind_goOn (m : Resolve Credential) (roles : List Role) :
    (some <$> m) >>= goOn x roles = some <$> (m >>= unwind x roles) := by
  simp only [map_eq_pure_bind, bind_assoc, pure_bind, goOn]

/-- The walk with `roles` behind it and the way back are the recursive reading and the way back from there. -/
theorem carry_walk (roles : List Role) :
    carry s x (f.walk visited roles p) = recursive s x f visited roles.isEmpty p >>= goOn x roles := by
  fun_induction SharedFiles.walk f visited roles p with
  -- the step fails
  | case1 visited roles p e hs =>
    rw [recursive_eq, hs]
    rfl
  -- nothing at the top, and nothing further down, which is an error there
  | case2 visited roles p hs h =>
    rw [recursive_eq, hs]
    simp only [follow, h, if_true, carry, pure_bind, goOn]
  | case3 visited roles p hs h =>
    rw [recursive_eq, hs]
    simp only [follow, h, carry]
    rfl
  -- the walk ends, in a profile without a role and in one with a role
  | case4 visited roles p b hs =>
    rw [recursive_eq, hs, follow, map_some_bind_goOn, carry, carryOut_eq]
  | case5 visited roles p r b hs =>
    rw [recursive_eq, hs, follow, map_some_bind_goOn, carry, carryOut_eq, unwind_exchanged]
  -- the link leads nowhere
  | case6 visited roles p r source hs new missing =>
    rw [recursive_eq, hs, follow, linked, if_neg new, missing]
    rfl
  | case7 visited roles p r source hs new q found ih =>
    -- below the top nothing is an error, so `orFail` never has anything to do
    obtain ⟨m, hm⟩ := recursive_linked s x f (visited ++ [source]) q
    have hsome : (some <$> m) >>= Resolve.orFail (Fault.nothing q.name).error = m := by
      simp only [map_eq_pure_bind, bind_assoc, pure_bind, Resolve.orFail, bind_pure]
    rw [ih, recursive_eq s x f visited, hs, follow, linked, if_neg new, found, List.isEmpty_cons]
    simp only [hm, hsome]
    rw [map_some_bind_goOn, map_some_bind_goOn, unwind_exchanged]
  -- the link goes in a circle
  | case8 visited roles p r source hs seen =>
    rw [recursive_eq, hs, follow, linked, if_pos (Decidable.of_not_not seen)]
    rfl

/-- Resolving a profile is the recursive reading: the same credential, nothing or error after the same calls
in the same order. -/
theorem resolve_recursive (w : World) (before : List Call) :
    (resolve s f p).run w before = (recursive s (s.exchanges p w) f [p.name] true p).run w before := by
  have hcarry :
      resolve s f p = (read : Resolve World) >>= fun w => carry s (s.exchanges p w) (f.walk [p.name] [] p) := by
    unfold resolve SharedFiles.plan
    refine bind_congr fun w => ?_
    cases f.walk [p.name] [] p with
    | error e => rfl
    | ok o => cases o <;> rfl
  have hstay : goOn (s.exchanges p w) [] = pure := by
    funext o
    cases o <;> rfl
  rw [hcarry, Resolve.run_bind, Resolve.run_read]
  simp only [carry_walk, hstay, bind_pure]
  rfl

/-- A profile whose role needs the credential of another one. -/
def leading : SigV4.Profile := ⟨"default", [⟨"default", [("role_arn", "a"), ("source_profile", "b")]⟩]⟩

/-- A profile whose role needs the credential of one that is not there. -/
def dangling : SigV4.Profile := ⟨"b", [⟨"profile b", [("role_arn", "r"), ("source_profile", "c")]⟩]⟩

/-- The files with these two. -/
def broken : SharedFiles := ⟨[], leading.sections ++ dangling.sections⟩

theorem resolve_recursive_dangling : ∃ error,
    (resolve {} broken leading).run { now := ⟨0, 0⟩ } [] = (.error error, []) ∧
      error.kind = .credentialInvalid ∧ error.message = "source_profile c of profile b not found" := by
  have hleading : leading.step true = .ok (.link ⟨"a", none, none, none⟩ "b") := rfl
  have hdangling : dangling.step false = .ok (.link ⟨"r", none, none, none⟩ "c") := rfl
  have hfound : broken.profile? "b" = some dangling := by decide
  have hmissing : broken.profile? "c" = none := by decide
  have hsecond : ∀ x, recursive {} x broken ["default", "b"] false dangling =
      some <$> exchanged x ⟨"r", none, none, none⟩ (failing (.missing "b" "c")) := by
    intro x
    rw [recursive_eq, hdangling, follow, linked, if_neg (by decide), hmissing]
    rfl
  have hfirst : ∀ x, recursive {} x broken [leading.name] true leading =
      some <$> exchanged x ⟨"a", none, none, none⟩ (recursive {} x broken ["default", "b"] false dangling >>=
        Resolve.orFail (Fault.nothing "b").error) := by
    intro x
    rw [recursive_eq, hleading, follow, linked, if_neg (by decide), hfound]
    rfl
  obtain ⟨error, hrun, hkind, hmessage⟩ : ∃ error,
      (failing (.missing "b" "c") : Resolve Credential).run { now := ⟨0, 0⟩ } [] = (.error error, []) ∧ _ :=
    run_failing _ _ _
  have hsource : ∀ x, (recursive {} x broken ["default", "b"] false dangling >>=
      Resolve.orFail (Fault.nothing "b").error).run { now := ⟨0, 0⟩ } [] = (.error error, []) := by
    intro x
    rw [hsecond, Resolve.run_bind, Resolve.run_map, run_exchanged_of_error _ hrun]
    rfl
  refine ⟨error, ?_, hkind, hmessage⟩
  rw [resolve_recursive, hfirst, Resolve.run_map, run_exchanged_of_error _ (hsource _)]
  rfl

end SigV4.Source.Profile
