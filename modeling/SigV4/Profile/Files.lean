import SigV4.Format.Ini
/-!
# Profiles in the shared files

Two files hold sections about profiles: the credentials file under the profile's name, the
config file under `profile` and its name, and for the default profile under `default` too. A
profile is the list of its sections, and the first of them that has a key decides.
-/

namespace SigV4

/-- The sections of both files; a file that is not there has none. -/
structure SharedFiles where
  credentials : List Ini.Section := []
  config : List Ini.Section := []
deriving DecidableEq, Repr

structure Profile where
  name : String
  sections : List Ini.Section
deriving DecidableEq, Repr

namespace Profile

/-- The value as it stands in the file. -/
def raw? (p : Profile) (key : String) : Option String := p.sections.findSome? (·.value? key)

/-- The value without the blanks around it; a blank value counts as none. -/
def get (p : Profile) (key : String) : Option String :=
  (p.raw? key).bind fun v => Text.nonEmpty? (Text.trim v)

def has (p : Profile) (key : String) : Bool := (p.get key).isSome

end Profile

namespace SharedFiles

/-- What stands in front of a profile's name in the config file. -/
def heading : String := "profile "

/-- The sections about a profile, the deciding one first. -/
def sections (f : SharedFiles) (name : String) : List Ini.Section :=
  (Ini.section? f.credentials name).toList ++ (Ini.section? f.config (heading ++ name)).toList
    ++ if name = "default" then (Ini.section? f.config name).toList else []

def profile? (f : SharedFiles) (name : String) : Option Profile :=
  if (f.sections name).isEmpty then none else some ⟨name, f.sections name⟩

/-! ## The names of all profiles -/

/-- The profile that a section of the config file is about. -/
def named? (s : Ini.Section) : Option String :=
  if heading.toList.isPrefixOf s.name.toList then
    some (String.ofList (s.name.toList.drop heading.toList.length))
  else none

/-- Every name that a profile may have, some of them more than once. -/
def names (f : SharedFiles) : List String :=
  "default" :: f.credentials.map (·.name) ++ f.config.filterMap named?

theorem mem_of_section {file : List Ini.Section} {name : String} {s : Ini.Section}
    (h : Ini.section? file name = some s) : s ∈ file ∧ s.name = name :=
  ⟨List.mem_of_find?_eq_some h, by simpa using List.find?_some h⟩

theorem named_heading {s : Ini.Section} {name : String} (h : s.name = heading ++ name) :
    named? s = some name := by
  have e : s.name.toList = heading.toList ++ name.toList := by rw [h, String.toList_append]
  simp [named?, e]

theorem mem_names {f : SharedFiles} {name : String} {p : Profile}
    (h : f.profile? name = some p) : name ∈ f.names := by
  simp only [names, List.cons_append, List.mem_cons, List.mem_append, List.mem_map,
    List.mem_filterMap]
  cases credentials : Ini.section? f.credentials name with
  | some s => exact .inr (.inl ⟨s, mem_of_section credentials⟩)
  | none =>
    cases config : Ini.section? f.config (heading ++ name) with
    | some s =>
      have ⟨here, name⟩ := mem_of_section config
      exact .inr (.inr ⟨s, here, named_heading name⟩)
    | none =>
      by_cases e : name = "default"
      · exact .inl e
      · simp [profile?, sections, credentials, config, e] at h

/-! ## Names not visited yet -/

def unvisited (f : SharedFiles) (visited : List String) : List String :=
  f.names.filter (! visited.contains ·)

theorem length_unvisited_lt {f : SharedFiles} {visited : List String} {name : String}
    (known : name ∈ f.names) (new : name ∉ visited) :
    (f.unvisited (visited ++ [name])).length < (f.unvisited visited).length := by
  have sub : (f.unvisited (visited ++ [name])).Sublist (f.unvisited visited) := by
    have e : f.unvisited (visited ++ [name]) = (f.unvisited visited).filter (· ≠ name) := by
      simp [unvisited, List.filter_filter, Bool.and_comm]
    rw [e]; exact List.filter_sublist
  refine Nat.lt_of_le_of_ne sub.length_le fun e => ?_
  have mem : name ∈ f.unvisited (visited ++ [name]) := by
    rw [sub.eq_of_length e]; simp [unvisited, known, new]
  simp [unvisited] at mem

end SharedFiles

end SigV4
