import Mathlib.Logic.Function.Basic
import SigV4.Proofs.Text
import SigV4.Proofs.Walk
/-!
# The layers of a profile

A profile is made of up to three sections, one over the other: the one of the credentials file, the one of the
config file, and for the default profile another one of the config file. Of two entries with one key in a
section the later one counts, and of two layers the upper one does, even with a value that is blank.
-/

namespace SigV4

/-! ## Sections -/

namespace Ini.Section

variable {s : Section} {key v : String}

/-- The last entry with a key. -/
def Sets (s : Section) (key v : String) : Prop :=
  ∃ front back, s.entries = front ++ (key, v) :: back ∧ ∀ e ∈ back, e.1 ≠ key

def Lacks (s : Section) (key : String) : Prop := ∀ e ∈ s.entries, e.1 ≠ key

theorem value?_eq_some : s.value? key = some v ↔ s.Sets key v := by
  have hother : ∀ e : String × String, (key != e.1) = true ↔ e.1 ≠ key := by
    intro e
    rw [bne_iff_ne, ne_comm]
  rw [value?, List.lookup_eq_some_iff]
  constructor
  · rintro ⟨front, back, hentries, hfront⟩
    rw [List.reverse_eq_iff, List.reverse_append, List.reverse_cons, List.append_assoc] at hentries
    exact ⟨back.reverse, front.reverse, hentries, fun e he => (hother e).1 (hfront e (List.mem_reverse.1 he))⟩
  · rintro ⟨front, back, hentries, hback⟩
    refine ⟨back.reverse, front.reverse, ?_, fun e he => (hother e).2 (hback e (List.mem_reverse.1 he))⟩
    rw [hentries, List.reverse_append, List.reverse_cons, List.append_assoc]
    rfl

theorem value?_eq_none : s.value? key = none ↔ s.Lacks key := by
  rw [value?, List.lookup_eq_none_iff]
  constructor
  · intro h e he
    exact (bne_iff_ne.1 (h e (List.mem_reverse.2 he))).symm
  · intro h e he
    exact bne_iff_ne.2 (h e (List.mem_reverse.1 he)).symm

end Ini.Section

/-! ## Layers -/

/-- Properties with those of a section laid over them, entry after entry. -/
def lay (props : String → Option String) (s : Ini.Section) : String → Option String :=
  s.entries.foldl (fun props e => Function.update props e.1 (some e.2)) props

theorem lay_apply (props : String → Option String) (s : Ini.Section) (key : String) :
    lay props s key = (s.value? key).or (props key) := by
  obtain ⟨name, entries⟩ := s
  change entries.foldl _ props key = (entries.reverse.lookup key).or (props key)
  induction entries generalizing props with
  | nil => rfl
  | cons e entries ih =>
    obtain ⟨k, v⟩ := e
    rw [List.foldl_cons, ih, List.reverse_cons, List.lookup_append, Option.or_assoc]
    congr 1
    by_cases h : key = k
    · rw [h, Function.update_self, List.lookup_cons_self, Option.some_or]
    · have hk : (key == k) = false := beq_eq_false_iff_ne.2 h
      rw [Function.update_of_ne h, List.lookup_cons, hk]
      rfl

theorem foldl_lay_apply (props : String → Option String) (layers : List Ini.Section) (key : String) :
    layers.reverse.foldl lay props key = (layers.findSome? (·.value? key)).or (props key) := by
  induction layers with
  | nil => rfl
  | cons s layers ih =>
    rw [List.reverse_cons, List.foldl_append, List.foldl_cons, List.foldl_nil, lay_apply, ih, List.findSome?_cons]
    cases s.value? key <;> rfl

namespace SharedFiles

/-- The sections of the config file that are about a profile. -/
def configNames (name : String) : List String := (heading ++ name) :: if name = "default" then [name] else []

/-- The properties of a profile: the sections laid over one another, the deciding one last. -/
def properties (f : SharedFiles) (name : String) : String → Option String :=
  let config := ((configNames name).reverse.filterMap (Ini.section? f.config)).foldl lay fun _ => none
  (Ini.section? f.credentials name).toList.foldl lay config

theorem sections_eq (f : SharedFiles) (name : String) : f.sections name =
    (Ini.section? f.credentials name).toList ++ (configNames name).filterMap (Ini.section? f.config) := by
  have hcons : ∀ n ns, (n :: ns).filterMap (Ini.section? f.config) =
      (Ini.section? f.config n).toList ++ ns.filterMap (Ini.section? f.config) := by
    intro n ns
    rw [List.filterMap_cons]
    cases Ini.section? f.config n <;> rfl
  rw [sections, configNames, hcons, List.append_assoc]
  split
  · rw [hcons, List.filterMap_nil, List.append_nil]
  · rfl

theorem properties_eq (f : SharedFiles) (name : String) :
    f.properties name = (f.sections name).reverse.foldl lay fun _ => none := by
  have hone : (Ini.section? f.credentials name).toList.reverse = (Ini.section? f.credentials name).toList := by
    cases Ini.section? f.credentials name <;> rfl
  rw [properties, sections_eq, List.reverse_append, List.foldl_append, hone, List.filterMap_reverse]

/-- The value that a profile has for a key: the last one in the uppermost layer with that key. -/
inductive Gives (f : SharedFiles) (name key v : String) : Prop where
  | credentials {s : Ini.Section} (here : Ini.section? f.credentials name = some s) (sets : s.Sets key v)
  | config {s : Ini.Section} (above : ∀ t, Ini.section? f.credentials name = some t → t.Lacks key)
      (here : Ini.section? f.config (heading ++ name) = some s) (sets : s.Sets key v)
  | default {s : Ini.Section} (above : ∀ t, Ini.section? f.credentials name = some t → t.Lacks key)
      (above' : ∀ t, Ini.section? f.config (heading ++ name) = some t → t.Lacks key) (isDefault : name = "default")
      (here : Ini.section? f.config "default" = some s) (sets : s.Sets key v)

variable {f : SharedFiles} {name key v : String}

theorem gives_iff : (f.sections name).findSome? (·.value? key) = some v ↔ f.Gives name key v := by
  have hlayer : ∀ o : Option Ini.Section, o.toList.findSome? (·.value? key) = o.bind (·.value? key) := by
    intro o
    cases o <;> simp
  have hsets : ∀ o : Option Ini.Section, o.bind (·.value? key) = some v ↔ ∃ s, o = some s ∧ s.Sets key v := by
    intro o
    simp only [Option.bind_eq_some_iff, Ini.Section.value?_eq_some]
  have hlacks : ∀ o : Option Ini.Section, o.bind (·.value? key) = none ↔ ∀ s, o = some s → s.Lacks key := by
    intro o
    simp only [Option.bind_eq_none_iff, Ini.Section.value?_eq_none]
  have hown : (if name = "default" then (Ini.section? f.config name).toList else []).findSome? (·.value? key) = some v ↔
      name = "default" ∧ ∃ s, Ini.section? f.config "default" = some s ∧ s.Sets key v := by
    split
    · rename_i hname
      rw [hlayer, hsets, hname]
      simp
    · rename_i hname
      simp [hname]
  rw [sections, List.findSome?_append, List.findSome?_append, Option.or_eq_some_iff, Option.or_eq_some_iff,
    Option.or_eq_none_iff, hlayer, hlayer, hsets, hsets, hlacks, hlacks, hown]
  constructor
  · rintro ((⟨s, here, sets⟩ | ⟨above, s, here, sets⟩) | ⟨⟨above, above'⟩, hname, s, here, sets⟩)
    · exact .credentials here sets
    · exact .config above here sets
    · exact .default above above' hname here sets
  · rintro (⟨here, sets⟩ | ⟨above, here, sets⟩ | ⟨above, above', hname, here, sets⟩)
    · exact .inl (.inl ⟨_, here, sets⟩)
    · exact .inl (.inr ⟨above, _, here, sets⟩)
    · exact .inr ⟨⟨above, above'⟩, hname, _, here, sets⟩

theorem raw?_of_profile? {p : Profile} (h : f.profile? name = some p) (key : String) :
    p.raw? key = (f.sections name).findSome? (·.value? key) := by
  unfold profile? at h
  split at h
  · cases h
  · rw [← Option.some.inj h]
    rfl

end SharedFiles

/-- What a profile has for a key is trimmed, and it has nothing when nothing is left. -/
theorem Profile.get_eq_some {p : Profile} {key v : String} :
    p.get key = some v ↔ ∃ raw, p.raw? key = some raw ∧ Trims Text.isBlank raw.toList v.toList ∧ v ≠ "" := by
  have hnonEmpty : ∀ t : String, Text.nonEmpty? t = some v ↔ t = v ∧ v ≠ "" := by
    intro t
    unfold Text.nonEmpty?
    split
    · rename_i h
      rw [String.isEmpty_iff] at h
      simp only [reduceCtorEq, false_iff, not_and, not_not]
      exact fun e => e ▸ h
    · rename_i h
      rw [String.isEmpty_iff] at h
      rw [Option.some_inj, iff_self_and]
      exact fun e => e ▸ h
  simp only [get, Option.bind_eq_some_iff, hnonEmpty, Text.trim_eq_iff]

theorem Profile.get_of_isBlankText {p : Profile} {key raw : String} (h : p.raw? key = some raw)
    (hblank : Text.isBlankText raw = true) : p.get key = none := by
  rw [get, h, Option.bind_some, Text.trim_eq_empty.2 hblank]
  rfl

namespace SharedFiles

/-- Which section decides on a property, and what is made of its value. -/
theorem profile_precedence (f : SharedFiles) (name : String) :
    ((f.profile? name).isSome ↔ (Ini.section? f.credentials name).isSome ∨
      (Ini.section? f.config (heading ++ name)).isSome ∨ name = "default" ∧ (Ini.section? f.config name).isSome) ∧
    ∀ p, f.profile? name = some p → ∀ key,
      f.properties name key = p.raw? key ∧
      (∀ v, p.raw? key = some v ↔ f.Gives name key v) ∧
      (∀ v, p.get key = some v ↔ ∃ raw, f.Gives name key raw ∧ Trims Text.isBlank raw.toList v.toList ∧ v ≠ "") ∧
      ∀ s raw, Ini.section? f.credentials name = some s → s.Sets key raw → Text.isBlankText raw = true →
        p.get key = none := by
  refine ⟨isSome_profile?, fun p hp key => ?_⟩
  have hraw := raw?_of_profile? hp key
  have hgives : ∀ v, p.raw? key = some v ↔ f.Gives name key v := by
    intro v
    rw [hraw, gives_iff]
  refine ⟨?_, hgives, fun v => ?_, fun s raw here sets hblank => ?_⟩
  · rw [properties_eq, foldl_lay_apply, Option.or_none, hraw]
  · simp only [Profile.get_eq_some, hgives]
  · exact Profile.get_of_isBlankText ((hgives raw).2 (.credentials here sets)) hblank

/-- All three layers: a key that comes twice in one section, a section that comes twice, and a blank value on top. -/
def layered : SharedFiles where
  credentials := [⟨"default", [("region", "eu-west-1"), ("role_arn", " "), ("region", "eu-west-2 ")]⟩,
    ⟨"default", [("role_arn", "late")]⟩]
  config := [⟨"default", [("role_arn", "low"), ("external_id", "lowest"), ("source_profile", "base")]⟩,
    ⟨"profile default", [("role_arn", "mid"), ("external_id", "x"), ("external_id", "y")]⟩]

theorem profile_precedence_layered : ∃ p, layered.profile? "default" = some p ∧
    p.get "region" = some "eu-west-2" ∧ p.get "role_arn" = none ∧ p.get "external_id" = some "y" ∧
    p.get "source_profile" = some "base" := by
  obtain ⟨exists_iff, h⟩ := layered.profile_precedence "default"
  obtain ⟨p, hp⟩ := Option.isSome_iff_exists.1 (exists_iff.2 (.inl rfl))
  have lacks : ∀ {o : Option Ini.Section} {key : String}, o.bind (·.value? key) = none → ∀ s, o = some s → s.Lacks key := by
    rintro _ key hnone s rfl
    exact Ini.Section.value?_eq_none.1 hnone
  refine ⟨p, hp, ?_, ?_, ?_, ?_⟩
  · have gives : layered.Gives "default" "region" "eu-west-2 " := .credentials rfl (Ini.Section.value?_eq_some.1 rfl)
    exact ((h p hp "region").2.2.1 _).2 ⟨_, gives, Text.trim_eq_iff.1 rfl, by decide⟩
  · exact (h p hp "role_arn").2.2.2 _ " " rfl (Ini.Section.value?_eq_some.1 rfl) rfl
  · have gives : layered.Gives "default" "external_id" "y" :=
      .config (lacks rfl) rfl (Ini.Section.value?_eq_some.1 rfl)
    exact ((h p hp "external_id").2.2.1 _).2 ⟨_, gives, Text.trim_eq_iff.1 rfl, by decide⟩
  · have gives : layered.Gives "default" "source_profile" "base" :=
      .default (lacks rfl) (lacks rfl) rfl rfl (Ini.Section.value?_eq_some.1 rfl)
    exact ((h p hp "source_profile").2.2.1 _).2 ⟨_, gives, Text.trim_eq_iff.1 rfl, by decide⟩

end SharedFiles

end SigV4
