import SigV4.Proofs.Walk
import SigV4.Source.Profile
import SigV4.World.Script
/-!
# Chains of profiles that cannot work

Before a profile is resolved the two files are read and nothing else is done. The walk along the links
makes no calls, so a chain with a broken profile anywhere on it fails before a request is sent or a
program is run.
-/

namespace SigV4

/-! ## Computations that only read files -/

namespace Resolve

/-- There are no calls but for these files, in this order. -/
def OnlyReads {α : Type} (x : Resolve α) (w : World) (paths : List String) : Prop :=
  ∀ before, ∃ read : List String, read.Sublist paths ∧ (x.run w before).2 = before ++ read.map .file

variable {α β : Type} {x : Resolve α} {f : α → Resolve β} {w : World} {paths more : List String}

theorem onlyReads_of_silent (h : ∀ before, (x.run w before).2 = before) : x.OnlyReads w paths :=
  fun before => ⟨[], List.nil_sublist _, by simp [h]⟩

theorem OnlyReads.bind (hx : x.OnlyReads w paths) (hf : ∀ a, (f a).OnlyReads w more) :
    (x >>= f).OnlyReads w (paths ++ more) := by
  intro before
  obtain ⟨read, hsub, hread⟩ := hx before
  rw [run_bind]
  cases h : x.run w before with
  | mk result after =>
    rw [h] at hread
    cases result with
    | error e => exact ⟨read, hsub.trans (List.sublist_append_left _ _), hread⟩
    | ok a =>
      obtain ⟨read', hsub', hread'⟩ := hf a after
      refine ⟨read ++ read', hsub.append hsub', ?_⟩
      rw [hread', show after = _ from hread, List.map_append, List.append_assoc]

theorem OnlyReads.bind_silent (hx : x.OnlyReads w paths) (hf : ∀ a, (f a).OnlyReads w []) :
    (x >>= f).OnlyReads w paths :=
  List.append_nil paths ▸ hx.bind hf

theorem onlyReads_fileBytes (path : String) : (fileBytes path).OnlyReads w [path] := by
  intro before
  rw [fileBytes, run_bind, run_read]
  cases h : w.file with
  | none => exact ⟨[], List.nil_sublist _, by simp [h]⟩
  | some answer => exact ⟨[path], List.Sublist.refl _, by simp [h]⟩

theorem onlyReads_fileText (path : String) : (fileText path).OnlyReads w [path] :=
  (onlyReads_fileBytes path).bind_silent fun bs => onlyReads_of_silent fun _ => by cases Utf8.fault? bs <;> rfl

theorem run_eq_ok {a : α} {before after : List Call}
    (h : ((x.run w before).1.toOption, (x.run w before).2) = (some a, after)) : x.run w before = (.ok a, after) := by
  cases hx : x.run w before with
  | mk result calls => cases result <;> simp_all [Except.toOption]

end Resolve

namespace Source

open Resolve

/-- The shared files; one that needs a home directory is left out when there is none. -/
def Profile.Settings.paths (s : Profile.Settings) (w : World) : List String :=
  [s.credentialsPath w, s.configPath w].flatMap fun path => (Home.expand w.home path).toList

theorem Profile.onlyReads_loadFile (path : String) (w : World) :
    (Profile.loadFile path).OnlyReads w (Home.expand w.home path).toList := by
  intro before
  rw [loadFile, run_bind, show (expandHome path).run w before = (.ok (Home.expand w.home path), before) from rfl]
  cases Home.expand w.home path with
  | none => exact onlyReads_of_silent (fun _ => rfl) before
  | some path =>
    refine OnlyReads.bind_silent (x := (fileText path).attempt) (onlyReads_fileText path) (fun result => ?_) before
    cases result with
    | error e => exact onlyReads_of_silent fun _ => rfl
    | ok text => exact onlyReads_of_silent fun _ => by rw [run_orFail]

theorem Profile.onlyReads_loadFiles (s : Profile.Settings) (w : World) :
    (Profile.loadFiles s).OnlyReads w (s.paths w) := by
  have h := (onlyReads_loadFile (s.credentialsPath w) w).bind fun credentials =>
    (onlyReads_loadFile (s.configPath w) w).bind_silent (f := fun config => pure (SharedFiles.mk credentials config))
      fun config => onlyReads_of_silent fun _ => rfl
  simp only [Settings.paths, List.flatMap_cons, List.flatMap_nil, List.append_nil]
  exact h

/-! ## Resolving a profile -/

/-- The name of the profile in question. -/
def Profile.Settings.profileName (s : Profile.Settings) (w : World) : String :=
  (s.name <|> w.filled? Variable.profile).getD "default"

/-- The one that the environment names plays no part. -/
theorem Profile.Settings.profileName_named {s : Profile.Settings} {name : String} (h : s.name = some name) (w : World) :
    s.profileName w = name := by
  rw [profileName, h]
  rfl

/-- The files are read, and then it is up to the profile in question. -/
theorem profile_eq (s : Profile.Settings) (w : World) (before : List Call) :
    (profile s).run w before = (Profile.loadFiles s >>= fun f => (f.profile? (s.profileName w)).elim
      (if s.name.isSome then fail (Profile.notFound (s.profileName w)) else pure none)
      (Profile.resolve s f)).run w before := by
  unfold profile
  rw [run_bind, run_filled?]
  apply congrArg (fun x : Source => x.run w before)
  apply bind_congr
  intro f
  unfold Profile.Settings.profileName
  cases f.profile? ((s.name <|> w.filled? Variable.profile).getD "default") <;> rfl

theorem profile_run {s : Profile.Settings} {w : World} {before after : List Call} {f : SharedFiles} {p : SigV4.Profile}
    (hf : (Profile.loadFiles s).run w before = (.ok f, after)) (hp : f.profile? (s.profileName w) = some p) :
    (profile s).run w before = (Profile.resolve s f p).run w after := by
  have hname : (Resolve.filled? Variable.profile).run w before = (.ok (w.filled? Variable.profile), before) := rfl
  unfold Profile.Settings.profileName at hp
  unfold profile
  rw [run_bind, hname]
  simp only
  rw [run_bind, hf]
  simp only [hp]

theorem Profile.resolve_of_plan_error {s : Profile.Settings} {w : World} {before : List Call} {f : SharedFiles}
    {p : SigV4.Profile} {e : SigV4.Profile.Fault} (h : f.plan p = .error e) :
    (Profile.resolve s f p).run w before = (.error e.error, before) := by
  unfold Profile.resolve
  rw [run_bind, run_read]
  simp only [h]
  rfl

theorem Profile.resolve_nothing {s : Profile.Settings} {w : World} {before : List Call} {f : SharedFiles}
    {p : SigV4.Profile} (h : f.plan p = .ok none) : (resolve s f p).run w before = (.ok none, before) := by
  unfold resolve
  rw [run_bind, run_read]
  simp only [h, Except.mapError, run_bind, run_lift, run_pure]

theorem Profile.resolve_run {s : Profile.Settings} {w : World} {before : List Call} {f : SharedFiles}
    {p : SigV4.Profile} {plan : SigV4.Profile.Plan} (h : f.plan p = .ok (some plan)) :
    (resolve s f p).run w before = (some <$> carryOut s (s.exchanges p w) plan : Source).run w before := by
  unfold resolve
  rw [run_bind, run_read]
  simp only [h, Except.mapError, run_bind, run_lift]

theorem profile_of_plan_error {s : Profile.Settings} {w : World} {before after : List Call} {f : SharedFiles}
    {p : SigV4.Profile} (hf : (Profile.loadFiles s).run w before = (.ok f, after))
    (hp : f.profile? (s.profileName w) = some p) (h : ∃ e, f.plan p = .error e) :
    ∃ e, e.kind = .credentialInvalid ∧ (profile s).run w before = (.error e, after) := by
  obtain ⟨e, he⟩ := h
  exact ⟨e.error, rfl, (profile_run hf hp).trans (Profile.resolve_of_plan_error he)⟩

/-- The walk comes to different profiles only, no more of them than there are names in the files, and so to
an end. From each of them on it is the walk that the plan is made by. When one of them is broken then
nothing but the shared files has been read when the call fails. -/
theorem profile_walk {s : Profile.Settings} {w : World} {before after : List Call} {f : SharedFiles}
    {p : SigV4.Profile} (hf : (Profile.loadFiles s).run w before = (.ok f, after))
    (hp : f.profile? (s.profileName w) = some p) :
    (∃ read : List String, read.Sublist (s.paths w) ∧ after = before ++ read.map .file) ∧
    (∀ v, Visit.Reaches f (.start p) v →
      v.names.Nodup ∧ (∀ name ∈ v.names, name ∈ f.profileNames) ∧ v.names.length ≤ f.profileNames.length ∧
      ∃ roles, f.plan p = f.walk v.names roles v.profile) ∧
    (∃ last, Visit.Reaches f (.start p) last ∧ ∀ v, ¬ Visit.Follows f last v) ∧
    (∀ v, Visit.Reaches f (.start p) v → Visit.Broken f v →
      ∃ e, e.kind = .credentialInvalid ∧ (profile s).run w before = (.error e, after)) ∧
    ((∃ e, f.plan p = .error e) → ∃ v, Visit.Reaches f (.start p) v ∧ Visit.Broken f v) := by
  have hstart := Visit.onPath_start hp
  refine ⟨?_, fun v hv => ?_, hstart.exists_last, fun v hv hb => ?_, (Visit.plan_error_iff hp).1⟩
  · obtain ⟨read, hsub, hread⟩ := Profile.onlyReads_loadFiles s w before
    rw [hf] at hread
    exact ⟨read, hsub, hread⟩
  · obtain ⟨roles, -, heq⟩ := hv.walk_eq (rfl : ([] : List Role).length = 0)
    exact ⟨(hv.onPath hstart).nodup, (hv.onPath hstart).known, (hv.onPath hstart).length_le, roles, heq⟩
  · exact profile_of_plan_error hf hp ((Visit.plan_error_iff hp).2 ⟨v, hv, hb⟩)

/-! A profile whose links lead into a circle that it is not on itself. -/

def circling : Script where
  environment := [(Variable.profile, "top")]
  home := some "/home/me"
  files := some [("/home/me/.aws/config", .ok (utf8 ("[profile top]\nrole_arn = a\nsource_profile = middle\n"
    ++ "[profile middle]\nrole_arn = b\nsource_profile = low\n"
    ++ "[profile low]\nrole_arn = c\nsource_profile = middle\n")))]
  routes := some []
  rules := some []

/-- What the files of `circling` hold. -/
def circlingFiles : SharedFiles where
  config := [⟨"profile top", [("role_arn", "a"), ("source_profile", "middle")]⟩,
    ⟨"profile middle", [("role_arn", "b"), ("source_profile", "low")]⟩,
    ⟨"profile low", [("role_arn", "c"), ("source_profile", "middle")]⟩]

theorem profile_walk_circling : ∃ v p,
    Visit.Reaches circlingFiles (.start p) v ∧ v.names = ["top", "middle", "low"] ∧ Visit.Broken circlingFiles v ∧
    v.names.length ≤ circlingFiles.profileNames.length ∧
    ∃ e, e.kind = .credentialInvalid ∧ (profile {}).run (circling.world ⟨0, 0⟩) [] =
      (.error e, [.file "/home/me/.aws/credentials", .file "/home/me/.aws/config"]) := by
  have hf : (Profile.loadFiles {}).run (circling.world ⟨0, 0⟩) [] =
      (.ok circlingFiles, [.file "/home/me/.aws/credentials", .file "/home/me/.aws/config"]) :=
    run_eq_ok (by decide +kernel)
  -- the walk as far as the profile that leads back
  let top : SigV4.Profile := ⟨"top", [⟨"profile top", [("role_arn", "a"), ("source_profile", "middle")]⟩]⟩
  let middle : SigV4.Profile := ⟨"middle", [⟨"profile middle", [("role_arn", "b"), ("source_profile", "low")]⟩]⟩
  let low : Visit := ⟨["top", "middle"], ⟨"low", [⟨"profile low", [("role_arn", "c"), ("source_profile", "middle")]⟩]⟩⟩
  have hp : circlingFiles.profile? "top" = some top := by decide +kernel
  have htop : top.step true = .ok (.link ⟨"a", none, none, none⟩ "middle") := by decide +kernel
  have hmiddle : middle.step false = .ok (.link ⟨"b", none, none, none⟩ "low") := by decide +kernel
  have hreach : Visit.Reaches circlingFiles (.start top) low :=
    .head (b := ⟨["top"], middle⟩) (.link htop (by decide +kernel) (by decide +kernel))
      (.single (.link hmiddle (by decide +kernel) (by decide +kernel)))
  have hbroken : Visit.Broken circlingFiles low :=
    .loop "middle" ⟨by decide +kernel, by decide +kernel, by decide +kernel⟩ (by decide +kernel) (by decide +kernel)
      (by decide +kernel)
  obtain ⟨-, hvisits, -, hfails, -⟩ := profile_walk hf hp
  exact ⟨low, top, hreach, rfl, hbroken, (hvisits low hreach).2.2.1, hfails low hreach hbroken⟩

end Source

end SigV4
