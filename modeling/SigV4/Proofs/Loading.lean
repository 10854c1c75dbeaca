import Mathlib.Data.List.TakeWhile
import SigV4.Proofs.BrokenChain
import SigV4.Proofs.Precedence
/-!
# What the shared files are taken for

A shared file is text in UTF-8 that can be read as sections. Text that cannot be read so ends the search for a
credential, with an error that names the file. A file that is not there, and one that is not UTF-8, is passed
over as if it were empty.
-/

namespace SigV4

/-! ## Bytes and sections -/

namespace Utf8

theorem fault?_eq_none_iff {bs : Bytes} : fault? bs = none ↔ isValid bs = true := by
  unfold fault? isValid
  rw [List.all_eq_true]
  constructor
  · intro h
    cases hrest : (pieces bs).dropWhile (·.1 == .character) with
    | nil => exact List.dropWhile_eq_nil_iff.1 hrest
    | cons p rest => simp [hrest] at h
  · intro h
    simp [List.dropWhile_eq_nil_iff.2 h]

theorem exists_fault {bs : Bytes} (h : isValid bs = false) : ∃ f, fault? bs = some f := by
  cases hf : fault? bs with
  | some f => exact ⟨f, rfl⟩
  | none => rw [fault?_eq_none_iff.1 hf] at h; cases h

end Utf8

/-- The sections of a well-formed file. -/
def Ini.ofBytes? (bs : Bytes) : Option (List Ini.Section) := Utf8.decode? bs >>= Ini.read?

theorem Ini.ofBytes?_of_isValid {bs : Bytes} (h : Utf8.isValid bs = true) :
    ofBytes? bs = read? (Utf8.decodeLossy bs) := by
  rw [ofBytes?, Utf8.decode?, if_pos h]
  rfl

/-! ## One file -/

/-- What reading a file gives when these calls have been made. -/
def World.FileGives (w : World) (before : List Call) (path : String) (r : Except Error Bytes) : Prop :=
  ∃ answer, w.file = some answer ∧ answer before path = r

theorem World.FileGives.unique {w : World} {before : List Call} {path : String} {r r' : Except Error Bytes}
    (h : w.FileGives before path r) (h' : w.FileGives before path r') : r = r' := by
  obtain ⟨answer, hfile, rfl⟩ := h
  obtain ⟨answer', hfile', rfl⟩ := h'
  obtain rfl := Option.some.inj (hfile.symm.trans hfile')
  rfl

namespace Resolve

variable {w : World} {before : List Call} {path : String}

theorem fileBytes_run {r : Except Error Bytes} (h : w.FileGives before path r) :
    (fileBytes path).run w before = (r, before ++ [.file path]) := by
  obtain ⟨answer, hfile, rfl⟩ := h
  rw [fileBytes, run_bind, run_read]
  simp only [hfile, run_ask]

theorem fileText_error {e : Error} (h : w.FileGives before path (.error e)) :
    (fileText path).run w before = (.error e, before ++ [.file path]) := by
  rw [fileText, run_bind, fileBytes_run h]

theorem fileText_valid {bs : Bytes} (h : w.FileGives before path (.ok bs)) (hbs : Utf8.isValid bs = true) :
    (fileText path).run w before = (.ok (Utf8.decodeLossy bs), before ++ [.file path]) := by
  rw [fileText, run_bind, fileBytes_run h]
  simp only [Utf8.fault?_eq_none_iff.2 hbs, run_pure]

theorem fileText_invalid {bs : Bytes} (h : w.FileGives before path (.ok bs)) (hbs : Utf8.isValid bs = false) :
    ∃ e, (fileText path).run w before = (.error e, before ++ [.file path]) := by
  obtain ⟨f, hf⟩ := Utf8.exists_fault hbs
  refine ⟨f.error.during s!"path: {path}", ?_⟩
  rw [fileText, run_bind, fileBytes_run h]
  simp only [hf, run_fail]

theorem fileText_absent (h : w.file = none) : ∃ e, (fileText path).run w before = (.error e, before) := by
  rw [fileText, run_bind, fileBytes, run_bind, run_read]
  simp only [h, run_fail]
  exact ⟨_, rfl⟩

end Resolve

namespace Source

open Resolve

variable {w : World} {before after : List Call} {e : Error}

namespace Profile

variable {setting path : String}

theorem loadFile_homeless (h : Home.expand w.home setting = none) :
    (loadFile setting).run w before = (.ok [], before) := by
  have hexpand : (expandHome setting).run w before = (.ok none, before) := by
    rw [← h]
    rfl
  rw [loadFile, run_bind, hexpand]
  rfl

/-- What becomes of the text, or of the error instead of it. -/
theorem loadFile_run (h : Home.expand w.home setting = some path) :
    (loadFile setting).run w before =
      ((((fileText path).run w before).1.toOption.elim (.ok []) fun text =>
        (Ini.read? text).elim (.error (malformed path)) .ok), ((fileText path).run w before).2) := by
  have hexpand : (expandHome setting).run w before = (.ok (some path), before) := by
    rw [← h]
    rfl
  rw [loadFile, run_bind, hexpand]
  simp only [run_bind, run_attempt]
  rcases (fileText path).run w before with ⟨e | text, after⟩
  · rfl
  · simp only [run_orFail, Except.toOption, Option.elim_some]
    cases Ini.read? text <;> rfl

/-- A file that cannot be read counts as empty. -/
theorem loadFile_unreadable (h : Home.expand w.home setting = some path)
    (hgives : w.FileGives before path (.error e)) :
    (loadFile setting).run w before = (.ok [], before ++ [.file path]) := by
  rw [loadFile_run h, fileText_error hgives]
  rfl

/-- So does one that is not UTF-8. -/
theorem loadFile_invalid (h : Home.expand w.home setting = some path) {bs : Bytes}
    (hgives : w.FileGives before path (.ok bs)) (hbs : Utf8.isValid bs = false) :
    (loadFile setting).run w before = (.ok [], before ++ [.file path]) := by
  obtain ⟨e, he⟩ := fileText_invalid hgives hbs
  rw [loadFile_run h, he]
  rfl

theorem loadFile_valid (h : Home.expand w.home setting = some path) {bs : Bytes}
    (hgives : w.FileGives before path (.ok bs)) (hbs : Utf8.isValid bs = true) :
    (loadFile setting).run w before =
      ((Ini.ofBytes? bs).elim (.error (malformed path)) .ok, before ++ [.file path]) := by
  rw [loadFile_run h, fileText_valid hgives hbs, Ini.ofBytes?_of_isValid hbs]
  rfl

/-- A file is refused exactly when it holds text that cannot be read as sections. -/
theorem loadFile_eq_error_iff : (loadFile setting).run w before = (.error e, after) ↔
    ∃ path bs, Home.expand w.home setting = some path ∧ w.FileGives before path (.ok bs) ∧ Utf8.isValid bs = true ∧
      Ini.ofBytes? bs = none ∧ e = malformed path ∧ after = before ++ [.file path] := by
  constructor
  · intro hrun
    cases hexpand : Home.expand w.home setting with
    | none => rw [loadFile_homeless hexpand] at hrun; cases hrun
    | some path =>
      cases hfile : w.file with
      | none =>
        obtain ⟨e', he'⟩ : ∃ e', (fileText path).run w before = (.error e', before) := fileText_absent hfile
        rw [loadFile_run hexpand, he'] at hrun
        cases hrun
      | some answer =>
        rcases hanswer : answer before path with e' | bs
        · rw [loadFile_unreadable hexpand ⟨answer, hfile, hanswer⟩] at hrun
          cases hrun
        cases hbs : Utf8.isValid bs with
        | false => rw [loadFile_invalid hexpand ⟨answer, hfile, hanswer⟩ hbs] at hrun; cases hrun
        | true =>
          rw [loadFile_valid hexpand ⟨answer, hfile, hanswer⟩ hbs] at hrun
          cases hini : Ini.ofBytes? bs with
          | some sections => rw [hini] at hrun; cases hrun
          | none =>
            rw [hini] at hrun
            cases hrun
            exact ⟨path, bs, rfl, ⟨answer, hfile, hanswer⟩, hbs, hini, rfl, rfl⟩
  · rintro ⟨path, bs, hexpand, hgives, hbs, hini, rfl, rfl⟩
    rw [loadFile_valid hexpand hgives hbs, hini]
    rfl

/-! ## Both files -/

/-- A file that the loader comes to, with the calls that it has behind it then. -/
inductive Opens (s : Settings) (w : World) (before : List Call) : String → String → List Call → Prop where
  | credentials {path : String} (h : Home.expand w.home (s.credentialsPath w) = some path) :
      Opens s w before (s.credentialsPath w) path before
  | config {sections : List Ini.Section} {calls : List Call} {path : String}
      (loaded : (loadFile (s.credentialsPath w)).run w before = (.ok sections, calls))
      (h : Home.expand w.home (s.configPath w) = some path) : Opens s w before (s.configPath w) path calls

variable {s : Settings} {calls : List Call}

theorem Opens.expand_eq (h : Opens s w before setting path calls) : Home.expand w.home setting = some path := by
  cases h with
  | credentials h => exact h
  | config _ h => exact h

/-- The files are refused exactly when one that the loader comes to is. -/
theorem loadFiles_eq_error_iff : (loadFiles s).run w before = (.error e, after) ↔
    ∃ setting path calls bs, Opens s w before setting path calls ∧ w.FileGives calls path (.ok bs) ∧
      Utf8.isValid bs = true ∧ Ini.ofBytes? bs = none ∧ e = malformed path ∧ after = calls ++ [.file path] := by
  have hfiles : (loadFiles s).run w before = (loadFile (s.credentialsPath w) >>= fun credentials =>
      loadFile (s.configPath w) >>= fun config => pure (SharedFiles.mk credentials config)).run w before := rfl
  rw [hfiles, run_bind]
  constructor
  · intro hrun
    rcases hcredentials : (loadFile (s.credentialsPath w)).run w before with ⟨e' | sections, between⟩
    · rw [hcredentials] at hrun
      cases hrun
      obtain ⟨path, bs, hexpand, hgives, hbs, hini, he, hafter⟩ := loadFile_eq_error_iff.1 hcredentials
      exact ⟨_, path, before, bs, .credentials hexpand, hgives, hbs, hini, he, hafter⟩
    · rw [hcredentials] at hrun
      simp only [run_bind, run_pure] at hrun
      rcases hconfig : (loadFile (s.configPath w)).run w between with ⟨e' | sections', last⟩
      · rw [hconfig] at hrun
        cases hrun
        obtain ⟨path, bs, hexpand, hgives, hbs, hini, he, hafter⟩ := loadFile_eq_error_iff.1 hconfig
        exact ⟨_, path, between, bs, .config hcredentials hexpand, hgives, hbs, hini, he, hafter⟩
      · rw [hconfig] at hrun
        cases hrun
  · rintro ⟨setting, path, calls, bs, hopens, hgives, hbs, hini, rfl, rfl⟩
    cases hopens with
    | credentials hexpand =>
      rw [loadFile_eq_error_iff.2 ⟨path, bs, hexpand, hgives, hbs, hini, rfl, rfl⟩]
    | config hcredentials hexpand =>
      rw [hcredentials]
      simp only [run_bind]
      rw [loadFile_eq_error_iff.2 ⟨path, bs, hexpand, hgives, hbs, hini, rfl, rfl⟩]

end Profile

/-- The sources that are asked before the files. -/
def Default.ahead (c : Config) : List Source :=
  if c.profile.isSome then [] else [environment, webIdentity { region := c.region }]

theorem default_eq_firstOf (c : Config) : default (.ofConfig c) =
    firstOf (Default.ahead c ++ profile (Default.profileSettings c) :: Default.platform c) := by
  unfold Default.ahead
  cases hname : c.profile with
  | some name => exact default_named hname
  | none => exact default_unnamed hname

theorem default_of_profile_error {c : Config} {start : List Call} (hpassed : Passed w (Default.ahead c) start before)
    (hrun : (profile (Default.profileSettings c)).run w before = (.error e, after)) :
    (default (.ofConfig c)).run w start = (.error e, after) := by
  rw [default_eq_firstOf, firstOf_decided (by simp)]
  exact ⟨_, _, _, before, rfl, hpassed, hrun⟩

/-- A shared file that is not well formed ends the search, with an error that names it and before a later source is
asked, exactly when it is UTF-8. Otherwise it is passed over as if it could not be read. -/
theorem malformed_file_ends {s : Profile.Settings} {setting path : String} {calls : List Call} {bs : Bytes}
    (hopens : Profile.Opens s w before setting path calls) (hgives : w.FileGives calls path (.ok bs))
    (hbad : Ini.ofBytes? bs = none) :
    ((∃ e, (Profile.loadFiles s).run w before = (.error e, calls ++ [.file path])) ↔ Utf8.isValid bs = true) ∧
    (Utf8.isValid bs = true → ∃ e, e.kind = .credentialInvalid ∧ e.context = ["path: " ++ path] ∧
      (profile s).run w before = (.error e, calls ++ [.file path]) ∧
      ∀ c start, Default.profileSettings c = s → Passed w (Default.ahead c) start before →
        (default (.ofConfig c)).run w start = (.error e, calls ++ [.file path])) ∧
    (Utf8.isValid bs = false →
      (Profile.loadFile setting).run w calls = (.ok [], calls ++ [.file path]) ∧
      ∀ w' : World, ∀ e, w'.home = w.home → w'.FileGives calls path (.error e) →
        (Profile.loadFile setting).run w' calls = (Profile.loadFile setting).run w calls) := by
  refine ⟨⟨?_, ?_⟩, fun hbs => ?_, fun hbs => ?_⟩
  · rintro ⟨e, hrun⟩
    obtain ⟨setting', path', calls', bs', -, hgives', hbs', -, -, hcalls⟩ := Profile.loadFiles_eq_error_iff.1 hrun
    obtain ⟨rfl, hpath⟩ := List.append_inj' hcalls rfl
    obtain rfl : path = path' := by simpa using hpath
    obtain rfl := Except.ok.inj (hgives.unique hgives')
    exact hbs'
  · intro hbs
    exact ⟨_, Profile.loadFiles_eq_error_iff.2 ⟨setting, path, calls, bs, hopens, hgives, hbs, hbad, rfl, rfl⟩⟩
  · have hload : (Profile.loadFiles s).run w before = (.error (Profile.malformed path), calls ++ [.file path]) :=
      Profile.loadFiles_eq_error_iff.2 ⟨setting, path, calls, bs, hopens, hgives, hbs, hbad, rfl, rfl⟩
    have hrun : (profile s).run w before = (.error (Profile.malformed path), calls ++ [.file path]) := by
      rw [profile_eq, run_bind, hload]
    refine ⟨Profile.malformed path, rfl, rfl, hrun, fun c start hs hpassed => ?_⟩
    subst hs
    exact default_of_profile_error hpassed hrun
  · have hload := Profile.loadFile_invalid hopens.expand_eq hgives hbs
    refine ⟨hload, fun w' e hhome hgives' => ?_⟩
    have hexpand : Home.expand w'.home setting = some path := by
      rw [hhome]
      exact hopens.expand_eq
    rw [hload, Profile.loadFile_unreadable hexpand hgives']

/-- Keys in one shared file, and a header without an end in the other one. -/
def halfHeader : Script where
  home := some "/home/me"
  files := some [
    ("/home/me/.aws/credentials", .ok (utf8 "[default]\naws_access_key_id = AKID\naws_secret_access_key = secret\n")),
    ("/home/me/.aws/config", .ok (utf8 "[default"))]

theorem malformed_file_ends_halfHeader : ∃ e, e.kind = .credentialInvalid ∧
    e.context = ["path: /home/me/.aws/config"] ∧
    (default (.ofConfig {})).run (halfHeader.world ⟨0, 0⟩) [] =
      (.error e, [.file "/home/me/.aws/credentials", .file "/home/me/.aws/config"]) := by
  have hcredentials : (Profile.loadFile "~/.aws/credentials").run (halfHeader.world ⟨0, 0⟩) [] =
      (.ok [⟨"default", [("aws_access_key_id", "AKID"), ("aws_secret_access_key", "secret")]⟩],
        [.file "/home/me/.aws/credentials"]) :=
    run_eq_ok (by decide +kernel)
  have hopens : Profile.Opens (Default.profileSettings {}) (halfHeader.world ⟨0, 0⟩) [] "~/.aws/config"
      "/home/me/.aws/config" [.file "/home/me/.aws/credentials"] :=
    .config hcredentials (by decide +kernel)
  have hgives : (halfHeader.world ⟨0, 0⟩).FileGives [.file "/home/me/.aws/credentials"] "/home/me/.aws/config"
      (.ok (utf8 "[default")) :=
    ⟨_, rfl, rfl⟩
  have henvironment : environment.run (halfHeader.world ⟨0, 0⟩) [] = (.ok none, []) := run_eq_ok (by decide +kernel)
  have hidentity : (webIdentity {}).run (halfHeader.world ⟨0, 0⟩) [] = (.ok none, []) := run_eq_ok (by decide +kernel)
  have hpassed : Passed (halfHeader.world ⟨0, 0⟩) (Default.ahead {}) [] [] :=
    .cons henvironment (.cons hidentity (.nil []))
  obtain ⟨-, hends, -⟩ := malformed_file_ends hopens hgives (by decide +kernel)
  obtain ⟨e, hkind, hcontext, -, hdefault⟩ := hends (by decide +kernel)
  exact ⟨e, hkind, hcontext, hdefault {} [] rfl hpassed⟩

/-- A shared file of one byte that starts no character, and keys in the other one. -/
def strayByte : Script where
  home := some "/home/me"
  files := some [
    ("/home/me/.aws/credentials", .ok [0xFF]),
    ("/home/me/.aws/config", .ok (utf8 "[default]\naws_access_key_id = AKID\naws_secret_access_key = secret\n"))]

/-- It is not noticed: the keys of the other file are taken. -/
theorem strayByte_passed_over :
    Profile.Opens {} (strayByte.world ⟨0, 0⟩) [] "~/.aws/credentials" "/home/me/.aws/credentials" [] ∧
    (strayByte.world ⟨0, 0⟩).FileGives [] "/home/me/.aws/credentials" (.ok [0xFF]) ∧ Ini.ofBytes? [0xFF] = none ∧
    (profile {}).run (strayByte.world ⟨0, 0⟩) [] = (.ok (some ⟨"AKID", "secret", none, none⟩),
      [.file "/home/me/.aws/credentials", .file "/home/me/.aws/config"]) :=
  ⟨.credentials (by decide +kernel), ⟨_, rfl, rfl⟩, by decide +kernel, run_eq_ok (by decide +kernel)⟩

end Source

end SigV4
