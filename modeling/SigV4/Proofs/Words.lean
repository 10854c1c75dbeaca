import Mathlib.Data.List.TakeWhile
import SigV4.Proofs.Bytes
import SigV4.Signing.Canonical
/-!
# The words of a field value

A signed value is told by its words. Blanks at its ends are no words, the words hold all that is
not blank, and so they say whether the value is a text and what its canonical form is.
-/

namespace SigV4.Canonical

open Http FieldValue

@[simp] theorem words_nil : words [] = [] := rfl

theorem words_append_cons (as bs : Bytes) {b : UInt8} (h : isPadding b = true) :
    words (as ++ b :: bs) = words as ++ words bs := by
  rw [words, List.splitOnP_append_cons as bs h, List.filter_append]; rfl

theorem words_cons {b : UInt8} (h : isPadding b = true) (bs : Bytes) : words (b :: bs) = words bs := by
  simpa using words_append_cons [] bs h

/-! ## Blanks at the ends -/

theorem words_dropWhile (bs : Bytes) : words (bs.dropWhile isPadding) = words bs := by
  induction bs with
  | nil => rfl
  | cons b bs ih =>
    by_cases h : isPadding b = true
    · rw [List.dropWhile_cons_of_pos h, ih, words_cons h]
    · rw [List.dropWhile_cons_of_neg h]

theorem words_blank {bs : Bytes} (h : ∀ b ∈ bs, isPadding b = true) : words bs = [] := by
  induction bs with
  | nil => rfl
  | cons b bs ih => rw [words_cons (h b (by simp)), ih fun c hc => h c (by simp [hc])]

theorem words_append_blank (as : Bytes) {bs : Bytes} (h : ∀ b ∈ bs, isPadding b = true) :
    words (as ++ bs) = words as := by
  cases bs with
  | nil => rw [List.append_nil]
  | cons b bs =>
    have hw : words bs = [] := words_blank fun c hc => h c (by simp [hc])
    rw [words_append_cons as bs (h b (by simp)), hw, List.append_nil]

theorem words_dropWhile_reverse (bs : Bytes) : words (bs.reverse.dropWhile isPadding).reverse = words bs := by
  have h : bs = (bs.reverse.dropWhile isPadding).reverse ++ (bs.reverse.takeWhile isPadding).reverse := by
    rw [← List.reverse_append, List.takeWhile_append_dropWhile, List.reverse_reverse]
  conv => rhs; rw [h]
  refine (words_append_blank _ fun b hb => ?_).symm
  exact List.mem_takeWhile_imp (List.mem_reverse.1 hb)

@[simp] theorem words_trim (v : FieldValue) : words v.trim.bytes = words v.bytes := by
  rw [trim, words_dropWhile_reverse, words_dropWhile]

/-! ## What the words hold -/

theorem mem_of_mem_words {b : UInt8} {w bs : Bytes} (hw : w ∈ words bs) (hb : b ∈ w) : b ∈ bs :=
  Bytes.mem_of_mem_splitOnP (List.mem_filter.1 hw).1 hb

theorem exists_word {b : UInt8} {bs : Bytes} (h : isPadding b = false) (hb : b ∈ bs) :
    ∃ w ∈ words bs, b ∈ w := by
  obtain ⟨w, hw, hbw⟩ := Bytes.exists_mem_splitOnP h hb
  refine ⟨w, List.mem_filter.2 ⟨hw, ?_⟩, hbw⟩
  cases w with
  | nil => cases hbw
  | cons c w => rfl

theorem isText_iff_words (bs : Bytes) : bs.all isTextByte = true ↔ ∀ w ∈ words bs, w.all isTextByte = true := by
  simp only [List.all_eq_true]
  refine ⟨fun h w hw b hb => h b (mem_of_mem_words hw hb), fun h b hb => ?_⟩
  by_cases hp : isPadding b = true
  · simp only [isPadding, Bool.or_eq_true, beq_iff_eq] at hp
    rcases hp with rfl | rfl <;> decide
  · obtain ⟨w, hw, hbw⟩ := exists_word (by simpa using hp) hb
    exact h w hw b hbw

/-- Where no blank is left, nothing but single spaces stands between the words. -/
theorem mem_collapse {b : UInt8} {bs : Bytes} (h : b ∈ collapse bs) : b = 0x20 ∨ b ∈ bs := by
  rcases Bytes.mem_join h with h | ⟨w, hw, hb⟩
  · exact .inl (List.mem_singleton.1 h)
  · exact .inr (mem_of_mem_words hw hb)

end SigV4.Canonical
