import Mathlib.Data.List.DropRight
import SigV4.Proofs.Utf8
import SigV4.Text.Blank
/-!
# Texts cut at their ends

What is left of a text when the blanks around it are taken off, and what its bytes are when the slashes behind it are.
-/

namespace SigV4

/-- What is dropped behind the first list reaches into it only when the second one is dropped whole. -/
theorem rdropWhile_append_of_last {α : Type} {p : α → Bool} {l : List α} (tail : List α)
    (h : ∀ a ∈ l.getLast?, p a = false) : (l ++ tail).rdropWhile p = l ++ tail.rdropWhile p := by
  simp only [List.rdropWhile, List.reverse_append, List.dropWhile_append]
  split
  · rename_i hnil
    rw [List.isEmpty_iff.1 hnil, List.reverse_nil, List.append_nil, List.reverse_eq_iff]
    cases hl : l.reverse with
    | nil => rfl
    | cons a l' =>
      have ha : p a = false := h a (by rw [← List.head?_reverse, hl]; rfl)
      rw [List.dropWhile_cons_of_neg (by simp [ha])]
  · rw [List.reverse_append, List.reverse_reverse]

/-- A list, and what is left of it when members of a kind are taken off its ends. -/
structure Trims {α : Type} (p : α → Bool) (l core : List α) : Prop where
  around : ∃ front back, l = front ++ core ++ back ∧ ∀ a ∈ front ++ back, p a = true
  first : ∀ a, core.head? = some a → p a = false
  last : ∀ a, core.getLast? = some a → p a = false

theorem trims_dropWhile {α : Type} (p : α → Bool) (l : List α) : Trims p l ((l.dropWhile p).rdropWhile p) := by
  have hhead : ∀ (m : List α) (a : α), (m.dropWhile p).head? = some a → p a = false := by
    intro m a ha
    have h := List.head?_dropWhile_not p m
    rw [ha] at h
    simpa using h
  refine ⟨⟨l.takeWhile p, (l.dropWhile p).rtakeWhile p, ?_, ?_⟩, ?_, ?_⟩
  · rw [List.append_assoc, List.rdropWhile_append_rtakeWhile, List.takeWhile_append_dropWhile]
  · intro a ha
    rcases List.mem_append.1 ha with ha | ha
    · exact List.mem_takeWhile_imp ha
    · exact List.mem_rtakeWhile_imp ha
  · intro a ha
    obtain ⟨rest, hrest⟩ := List.rdropWhile_prefix p (l.dropWhile p)
    apply hhead l
    rw [← hrest, List.head?_append, ha]
    rfl
  · intro a ha
    apply hhead (l.dropWhile p).reverse
    rwa [List.rdropWhile, List.getLast?_reverse] at ha

/-- There is only one thing to be left. -/
theorem trims_iff {α : Type} {p : α → Bool} {l core : List α} :
    Trims p l core ↔ (l.dropWhile p).rdropWhile p = core := by
  constructor
  · rintro ⟨⟨front, back, hsplit, hdropped⟩, hfirst, hlast⟩
    have hfront : ∀ a ∈ front, p a = true := fun a ha => hdropped a (List.mem_append_left _ ha)
    have hback : ∀ a ∈ back, p a = true := fun a ha => hdropped a (List.mem_append_right _ ha)
    rw [hsplit, List.append_assoc, List.dropWhile_append_of_pos hfront]
    cases core with
    | nil => rw [List.nil_append, List.dropWhile_eq_nil_iff.2 hback, List.rdropWhile_nil]
    | cons a core =>
      rw [List.cons_append, List.dropWhile_cons_of_neg (by simp [hfirst a rfl]), ← List.cons_append,
        rdropWhile_append_of_last back hlast, List.rdropWhile_eq_nil_iff.2 hback, List.append_nil]
  · rintro rfl
    exact trims_dropWhile p l

theorem Trims.core_core {α : Type} {p : α → Bool} {l core : List α} (h : Trims p l core) : Trims p core core :=
  ⟨⟨[], [], by simp, by simp⟩, h.first, h.last⟩

theorem trims_self {α : Type} {p : α → Bool} {l : List α} (h : ∀ a ∈ l, p a = false) : Trims p l l :=
  ⟨⟨[], [], by simp, by simp⟩, fun a ha => h a (List.mem_of_mem_head? ha), fun a ha => h a (List.mem_of_getLast? ha)⟩

/-- Every character has a byte. -/
theorem utf8_eq_nil {s : String} : utf8 s = [] ↔ s = "" := by
  rw [utf8, List.flatMap_eq_nil_iff, ← String.toList_eq_nil_iff, List.eq_nil_iff_forall_not_mem]
  refine forall₂_congr fun c _ => iff_of_false (fun hnil => ?_) id
  rcases Utf8.utf8EncodeChar_cases c with ⟨-, hone⟩ | ⟨-, hne, -⟩
  · rw [hone] at hnil
    cases hnil
  · exact hne hnil

namespace Text

/-! ## Blanks -/

theorem strip_eq_nil {cs : List Char} : strip cs = [] ↔ cs.all isBlank = true := by
  have hend : ∀ ds : List Char, dropBlankEnd ds = [] ↔ ds.all isBlank = true := by
    intro ds
    simp [dropBlankEnd]
  have hparts := List.takeWhile_append_dropWhile (p := isBlank) (l := cs)
  have hfront : (cs.takeWhile isBlank).all isBlank = true := List.all_takeWhile
  rw [strip, hend]
  conv_rhs => rw [← hparts, List.all_append, hfront, Bool.true_and]

theorem trim_eq_empty {s : String} : trim s = "" ↔ isBlankText s = true := by
  rw [trim, isBlankText, ← strip_eq_nil]
  exact String.ofList_eq_empty_iff

theorem trim_eq_iff {s t : String} : trim s = t ↔ Trims isBlank s.toList t.toList := by
  rw [trims_iff, trim]
  constructor
  · rintro rfl
    rw [String.toList_ofList]
    rfl
  · intro h
    rw [← String.ofList_toList (s := t), ← h]
    rfl

/-! ## Slashes -/

theorem toList_withoutSlashes (s : String) : (withoutSlashes s).toList = s.toList.rdropWhile (· == '/') := by
  rw [withoutSlashes, String.toList_ofList]
  rfl

/-- Slashes are all that is dropped, and no slash is left. -/
theorem exists_slashes (s : String) : (∃ n, s.toList = (withoutSlashes s).toList ++ List.replicate n '/') ∧
    (withoutSlashes s).toList.getLast? ≠ some '/' := by
  rw [toList_withoutSlashes]
  constructor
  · have hdropped : s.toList.rtakeWhile (· == '/') = List.replicate (s.toList.rtakeWhile (· == '/')).length '/' :=
      List.eq_replicate_of_mem fun c hc => by simpa using List.mem_rtakeWhile_imp hc
    exact ⟨_, by rw [← hdropped, List.rdropWhile_append_rtakeWhile]⟩
  · intro hlast
    have hne : s.toList.rdropWhile (· == '/') ≠ [] := by
      intro hnil
      rw [hnil] at hlast
      cases hlast
    have hkept := List.rdropWhile_last_not (· == '/') s.toList hne
    rw [List.getLast?_eq_some_getLast hne, Option.some.injEq] at hlast
    rw [hlast] at hkept
    exact hkept rfl

/-- Only a slash is written with the byte of a slash. -/
theorem exists_last_utf8EncodeChar {c : Char} (hc : c ≠ '/') :
    ∃ b, (String.utf8EncodeChar c).getLast? = some b ∧ (b == 0x2F) = false := by
  rcases Utf8.utf8EncodeChar_cases c with ⟨hlt, hone⟩ | ⟨-, hne, hlarge⟩
  · refine ⟨_, by rw [hone]; rfl, ?_⟩
    rw [beq_eq_false_iff_ne]
    intro h
    have hnat : (UInt8.ofNat c.toNat).toNat = 0x2F := congrArg UInt8.toNat h
    rw [UInt8.toNat_ofNat_of_lt' (Nat.lt_trans hlt (by decide))] at hnat
    exact hc (Char.toNat_inj.1 hnat)
  · refine ⟨_, List.getLast?_eq_some_getLast hne, ?_⟩
    rw [beq_eq_false_iff_ne]
    intro h
    have hlast := hlarge _ (List.getLast_mem hne)
    rw [h] at hlast
    exact absurd hlast (by decide)

theorem utf8_withoutSlashes (s : String) : utf8 (withoutSlashes s) = (utf8 s).rdropWhile (· == 0x2F) := by
  have hslash : String.utf8EncodeChar '/' = [0x2F] := by decide
  have hchars : ∀ cs : List Char, (cs.rdropWhile (· == '/')).flatMap String.utf8EncodeChar =
      (cs.flatMap String.utf8EncodeChar).rdropWhile (· == 0x2F) := by
    intro cs
    induction cs using List.reverseRecOn with
    | nil => rfl
    | append_singleton cs c ih =>
      rw [List.flatMap_append, List.flatMap_singleton]
      by_cases hc : c = '/'
      · rw [hc, List.rdropWhile_concat_pos _ _ _ (by decide), hslash, List.rdropWhile_concat_pos _ _ _ (by decide), ih]
      · obtain ⟨b, hb, hne⟩ := exists_last_utf8EncodeChar hc
        have hlast : ∀ a ∈ (cs.flatMap String.utf8EncodeChar ++ String.utf8EncodeChar c).getLast?,
            (a == 0x2F) = false := by
          rw [List.getLast?_append, hb, Option.some_or]
          exact fun a ha => Option.some.inj ha ▸ hne
        have hkept := rdropWhile_append_of_last [] hlast
        rw [List.rdropWhile_concat_neg _ _ _ (by simpa using hc), List.flatMap_append, List.flatMap_singleton]
        simpa using hkept.symm
  rw [utf8, toList_withoutSlashes]
  exact hchars s.toList

end Text

end SigV4
