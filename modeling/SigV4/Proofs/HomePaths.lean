import SigV4.Proofs.Loading
import SigV4.World.Home
/-!
# Paths in the home directory

A path behind `~/` or `~\` is the home directory and what follows the sign, with one separator between them. A rest
that begins with a separator itself stands alone, and so the path leaves the home directory.
-/

namespace SigV4.Home

/-- The path is the sign for the home directory and a rest. -/
def IsBelow (path rest : String) : Prop := path = "~/" ++ rest ∨ path = "~\\" ++ rest

instance (path rest : String) : Decidable (IsBelow path rest) := inferInstanceAs (Decidable (_ ∨ _))

def IsAbsolute (path : String) : Prop := path.toList.head? = some '/'

instance (path : String) : Decidable (IsAbsolute path) := inferInstanceAs (Decidable (_ = _))

def EndsInSlash (directory : String) : Prop := directory.toList.getLast? = some '/'

instance (directory : String) : Decidable (EndsInSlash directory) := inferInstanceAs (Decidable (_ = _))

/-- The rest in the directory. -/
def under (directory rest : String) : String :=
  if directory = "" ∨ EndsInSlash directory then directory ++ rest else directory ++ "/" ++ rest

/-- A path that begins with the directory and ends with the rest, and has nothing but one separator between them where
the directory has none at its end. -/
structure StaysIn (directory rest path : String) : Prop where
  front : directory.toList <+: path.toList
  back : rest.toList <:+ path.toList
  joined : directory ≠ "" → ¬ EndsInSlash directory → path = directory ++ "/" ++ rest

variable {home : Option String} {directory path rest : String}

/-! ## What follows the sign -/

theorem below?_eq_some {cs rest : List Char} :
    below? cs = some rest ↔ cs = '~' :: '/' :: rest ∨ cs = '~' :: '\\' :: rest := by
  constructor
  · intro h
    unfold below? at h
    split at h
    · obtain rfl := Option.some.inj h
      exact .inl rfl
    · obtain rfl := Option.some.inj h
      exact .inr rfl
    · cases h
  · rintro (rfl | rfl)
    · rfl
    · rfl

theorem below?_iff : below? path.toList = some rest.toList ↔ IsBelow path rest := by
  rw [below?_eq_some, IsBelow, ← String.toList_inj, ← String.toList_inj, String.toList_append, String.toList_append]
  rfl

theorem expand_of_not_below (h : ∀ rest, ¬ IsBelow path rest) (home : Option String) : expand home path = some path := by
  have hnone : below? path.toList = none := by
    cases hcs : below? path.toList with
    | none => rfl
    | some cs =>
      rw [← String.toList_ofList (l := cs)] at hcs
      exact absurd (below?_iff.1 hcs) (h _)
  rw [expand, hnone]

/-! ## Behind the directory -/

theorem join_eq (directory rest : String) :
    String.ofList (join directory.toList rest.toList) = if IsAbsolute rest then rest else under directory rest := by
  rw [← String.toList_inj, String.toList_ofList, join]
  by_cases habsolute : IsAbsolute rest
  · rw [if_pos habsolute, if_pos (show rest.toList.head? = some '/' from habsolute)]
  have hends : (directory.toList.isEmpty || decide (directory.toList.getLast? = some '/')) = true ↔
      directory = "" ∨ EndsInSlash directory := by
    rw [Bool.or_eq_true, List.isEmpty_iff, String.toList_eq_nil_iff, decide_eq_true_eq, EndsInSlash]
  rw [if_neg habsolute, if_neg (show ¬ rest.toList.head? = some '/' from habsolute), under]
  by_cases h : directory = "" ∨ EndsInSlash directory
  · rw [if_pos h, if_pos (hends.2 h), String.toList_append]
  · rw [if_neg h, if_neg (mt hends.1 h)]
    simp

theorem expand_below (h : IsBelow path rest) (home : Option String) :
    expand home path = home.map fun directory => if IsAbsolute rest then rest else under directory rest := by
  rw [expand, below?_iff.2 h]
  simp only [join_eq]

theorem staysIn_under (directory rest : String) : StaysIn directory rest (under directory rest) := by
  unfold under
  split
  · rename_i hends
    refine ⟨?_, ?_, fun hne hslash => absurd hends (not_or.2 ⟨hne, hslash⟩)⟩
    · rw [String.toList_append]
      exact List.prefix_append _ _
    · rw [String.toList_append]
      exact List.suffix_append _ _
  · refine ⟨?_, ?_, fun _ _ => rfl⟩
    · rw [String.append_assoc, String.toList_append]
      exact List.prefix_append _ _
    · rw [String.toList_append]
      exact List.suffix_append _ _

/-- A rest that stands alone is in the directory only when the directory is empty, or ends in a separator and is what
the rest begins with. -/
theorem staysIn_self : StaysIn directory rest rest ↔
    directory = "" ∨ EndsInSlash directory ∧ directory.toList <+: rest.toList := by
  constructor
  · rintro ⟨hfront, -, hjoined⟩
    by_cases hne : directory = ""
    · exact .inl hne
    by_cases hslash : EndsInSlash directory
    · exact .inr ⟨hslash, hfront⟩
    · -- the rest would be longer than itself by the directory and the separator
      have hlength := congrArg String.length (hjoined hne hslash)
      simp at hlength
  · rintro (rfl | ⟨hslash, hfront⟩)
    · exact ⟨List.nil_prefix, List.suffix_refl _, fun hne => absurd rfl hne⟩
    · exact ⟨hfront, List.suffix_refl _, fun _ hnot => absurd hslash hnot⟩

/-- Without the sign a path stays as it is, and with it there has to be a home directory. Behind the sign the path stays
in that directory unless its rest is absolute: then it is the rest alone, in the directory or not. -/
theorem expand_stays (path : String) :
    ((∀ rest, ¬ IsBelow path rest) → ∀ home, expand home path = some path) ∧
    ∀ rest, IsBelow path rest → expand none path = none ∧ ∀ directory, ∃ p, expand (some directory) path = some p ∧
      p = (if IsAbsolute rest then rest else under directory rest) ∧
      (StaysIn directory rest p ↔
        ¬ IsAbsolute rest ∨ directory = "" ∨ EndsInSlash directory ∧ directory.toList <+: rest.toList) := by
  refine ⟨expand_of_not_below, fun rest h => ⟨expand_below h none, fun directory => ?_⟩⟩
  refine ⟨if IsAbsolute rest then rest else under directory rest, expand_below h _, rfl, ?_⟩
  by_cases habsolute : IsAbsolute rest
  · rw [if_pos habsolute, staysIn_self, or_iff_right (not_not.2 habsolute)]
  · rw [if_neg habsolute]
    exact iff_of_true (staysIn_under directory rest) (.inl habsolute)

theorem expand_stays_credentials : IsBelow "~/.aws/credentials" ".aws/credentials" ∧
    expand none "~/.aws/credentials" = none ∧
    expand (some "/home/me") "~/.aws/credentials" = some "/home/me/.aws/credentials" ∧
    StaysIn "/home/me" ".aws/credentials" "/home/me/.aws/credentials" := by
  have hbelow : IsBelow "~/.aws/credentials" ".aws/credentials" := by decide
  obtain ⟨hnone, hsome⟩ := (expand_stays "~/.aws/credentials").2 ".aws/credentials" hbelow
  obtain ⟨p, hp, rfl, hstays⟩ := hsome "/home/me"
  have hunder : (if IsAbsolute ".aws/credentials" then ".aws/credentials" else under "/home/me" ".aws/credentials") =
      "/home/me/.aws/credentials" := by decide
  rw [hunder] at hp hstays
  exact ⟨hbelow, hnone, hp, hstays.2 (.inl (by decide))⟩

/-- Two slashes behind the sign lead anywhere. -/
theorem expand_leaves : IsBelow "~//etc/passwd" "/etc/passwd" ∧
    expand (some "/home/me") "~//etc/passwd" = some "/etc/passwd" ∧ ¬ StaysIn "/home/me" "/etc/passwd" "/etc/passwd" := by
  refine ⟨by decide, by decide, fun h => ?_⟩
  rcases staysIn_self.1 h with hempty | ⟨hslash, -⟩
  · exact absurd hempty (by decide)
  · exact absurd hslash (by decide)

end SigV4.Home

namespace SigV4.Source.Profile

open Home

/-- Where no setting names a file, the files that are read are those below the home directory. -/
theorem opens_default {s : Settings} {w : World} {before calls : List Call} {setting path : String}
    (hcredentials : s.credentialsFile = none ∧ w.lookup Variable.credentialsFile = none)
    (hconfig : s.configFile = none ∧ w.lookup Variable.configFile = none) (h : Opens s w before setting path calls) :
    ∃ directory, w.home = some directory ∧
      (path = under directory ".aws/credentials" ∨ path = under directory ".aws/config") := by
  have hcredentialsPath : s.credentialsPath w = "~/.aws/credentials" := by
    rw [Settings.credentialsPath, hcredentials.1, hcredentials.2]
    rfl
  have hconfigPath : s.configPath w = "~/.aws/config" := by
    rw [Settings.configPath, hconfig.1, hconfig.2]
    rfl
  have hbelow : ∀ rest, ¬ IsAbsolute rest → expand w.home ("~/" ++ rest) = some path →
      ∃ directory, w.home = some directory ∧ path = under directory rest := by
    intro rest hrest hexpand
    rw [expand_below (.inl rfl), Option.map_eq_some_iff] at hexpand
    obtain ⟨directory, hhome, hpath⟩ := hexpand
    rw [if_neg hrest] at hpath
    exact ⟨directory, hhome, hpath.symm⟩
  cases h with
  | credentials hexpand =>
    rw [hcredentialsPath] at hexpand
    obtain ⟨directory, hhome, hpath⟩ := hbelow ".aws/credentials" (by decide) hexpand
    exact ⟨directory, hhome, .inl hpath⟩
  | config _ hexpand =>
    rw [hconfigPath] at hexpand
    obtain ⟨directory, hhome, hpath⟩ := hbelow ".aws/config" (by decide) hexpand
    exact ⟨directory, hhome, .inr hpath⟩

end SigV4.Source.Profile
