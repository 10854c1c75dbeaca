import SigV4.Bytes
/-!
# Splitting and joining

`Bytes.splitOn` and `Bytes.join` are the library's `splitOn` and `intercalate`, so joined pieces
come apart again where no piece holds the separator.
-/

namespace SigV4.Bytes

theorem splitOn_eq (sep : UInt8) (bs : Bytes) : splitOn sep bs = List.splitOn sep bs := by
  induction bs with
  | nil => rfl
  | cons b bs ih =>
    rw [splitOn, List.splitOn_cons_eq_if_modifyHead, ih]
    by_cases hb : b = sep
    · simp [hb]
    · rw [if_neg hb, if_neg (by simpa using hb)]
      cases h : List.splitOn sep bs with
      | nil => exact absurd h (List.splitOn_ne_nil sep bs)
      | cons p ps => rfl

/-! ## Lists cut where a condition holds -/

theorem mem_of_mem_splitOnP {α : Type} {p : α → Bool} {b : α} {bs w : List α} (hw : w ∈ bs.splitOnP p) (hb : b ∈ w) :
    b ∈ bs := by
  induction bs generalizing w with
  | nil =>
    rw [List.splitOnP_nil, List.mem_singleton] at hw
    exact hw ▸ hb
  | cons c bs ih =>
    obtain ⟨d, ds, hs⟩ := List.exists_cons_of_ne_nil (List.splitOnP_ne_nil p bs)
    rw [List.splitOnP_cons_eq_if_modifyHead] at hw
    split at hw
    · rcases List.mem_cons.1 hw with rfl | hw
      · cases hb
      · exact List.mem_cons_of_mem c (ih hw hb)
    · rw [hs] at hw ih
      rcases List.mem_cons.1 hw with rfl | hw
      · rcases List.mem_cons.1 hb with rfl | hb
        · exact List.mem_cons_self
        · exact List.mem_cons_of_mem c (ih List.mem_cons_self hb)
      · exact List.mem_cons_of_mem c (ih (List.mem_cons_of_mem d hw) hb)

theorem exists_mem_splitOnP {α : Type} {p : α → Bool} {b : α} {bs : List α} (h : p b = false) (hb : b ∈ bs) :
    ∃ w ∈ bs.splitOnP p, b ∈ w := by
  induction bs with
  | nil => cases hb
  | cons c bs ih =>
    obtain ⟨d, ds, hs⟩ := List.exists_cons_of_ne_nil (List.splitOnP_ne_nil p bs)
    rw [List.splitOnP_cons_eq_if_modifyHead]
    rcases List.mem_cons.1 hb with rfl | hb
    · rw [if_neg (by simp [h]), hs]
      exact ⟨b :: d, List.mem_cons_self, List.mem_cons_self⟩
    · obtain ⟨w, hw, hbw⟩ := ih hb
      split
      · exact ⟨w, List.mem_cons_of_mem _ hw, hbw⟩
      · rw [hs] at hw ⊢
        rcases List.mem_cons.1 hw with rfl | hw
        · exact ⟨c :: w, List.mem_cons_self, List.mem_cons_of_mem c hbw⟩
        · exact ⟨w, List.mem_cons_of_mem _ hw, hbw⟩

/-! ## Joined pieces -/

theorem join_eq (sep : Bytes) (ps : List Bytes) : join sep ps = sep.intercalate ps := by
  induction ps with
  | nil => rfl
  | cons p ps ih =>
    cases ps with
    | nil => simp [join]
    | cons q ps => rw [join, ih, List.intercalate_cons_cons]; simp

@[simp] theorem join_nil (sep : Bytes) : join sep [] = [] := rfl

@[simp] theorem join_singleton (sep p : Bytes) : join sep [p] = p := rfl

theorem join_cons (sep p : Bytes) {ps : List Bytes} (h : ps ≠ []) :
    join sep (p :: ps) = p ++ sep ++ join sep ps := by
  cases ps with
  | nil => exact absurd rfl h
  | cons q ps => rfl

theorem join_append (sep : Bytes) {ps qs : List Bytes} (hp : ps ≠ []) (hq : qs ≠ []) :
    join sep (ps ++ qs) = join sep ps ++ sep ++ join sep qs := by
  induction ps with
  | nil => exact absurd rfl hp
  | cons p ps ih =>
    by_cases h : ps = []
    · subst h; rw [List.singleton_append, join_cons sep p hq, join_singleton]
    · rw [List.cons_append, join_cons sep p (by simp [h]), ih h, join_cons sep p h]
      simp only [List.append_assoc]

theorem splitOn_ne_nil (sep : UInt8) (bs : Bytes) : splitOn sep bs ≠ [] := by
  rw [splitOn_eq]; exact List.splitOn_ne_nil sep bs

theorem splitOn_of_notMem {sep : UInt8} {bs : Bytes} (h : sep ∉ bs) : splitOn sep bs = [bs] := by
  rw [splitOn_eq, List.splitOn_eq_singleton h]

theorem splitOn_append_cons (sep : UInt8) (as bs : Bytes) :
    splitOn sep (as ++ sep :: bs) = splitOn sep as ++ splitOn sep bs := by
  simp only [splitOn_eq]; exact List.splitOn_append_cons_self as bs

theorem notMem_of_mem_splitOn {sep : UInt8} {bs p : Bytes} (h : p ∈ splitOn sep bs) : sep ∉ p := by
  induction bs generalizing p with
  | nil =>
    rw [List.mem_singleton.1 h]
    simp
  | cons b bs ih =>
    obtain ⟨q, qs, hq⟩ := List.exists_cons_of_ne_nil (splitOn_ne_nil sep bs)
    rw [splitOn] at h
    by_cases hb : b = sep
    · rw [if_pos hb] at h
      rcases List.mem_cons.1 h with rfl | h
      · simp
      · exact ih h
    · rw [if_neg hb, hq] at h
      rw [hq] at ih
      rcases List.mem_cons.1 h with rfl | h
      · rw [List.mem_cons, not_or]
        exact ⟨Ne.symm hb, ih List.mem_cons_self⟩
      · exact ih (List.mem_cons_of_mem q h)

/-- What stands in front of a separator that occurs in neither part. -/
theorem prefix_iff {sep : UInt8} {front as bs : Bytes} (hf : sep ∉ front) (ha : sep ∉ as) :
    front ++ [sep] <+: as ++ sep :: bs ↔ front = as := by
  constructor
  · rintro ⟨rest, h⟩
    have hs := congrArg (splitOn sep) h
    simp only [List.append_assoc, List.singleton_append, splitOn_append_cons, splitOn_of_notMem hf,
      splitOn_of_notMem ha] at hs
    exact (List.cons.inj hs).1
  · rintro rfl
    exact ⟨bs, by simp⟩

theorem join_splitOn (sep : UInt8) (bs : Bytes) : join [sep] (splitOn sep bs) = bs := by
  rw [splitOn_eq, join_eq, List.intercalate_splitOn]

/-- Pieces without the separator come back whole. -/
theorem splitOn_join {sep : UInt8} {ps : List Bytes} (hp : ps ≠ []) (h : ∀ p ∈ ps, sep ∉ p) :
    splitOn sep (join [sep] ps) = ps := by
  rw [splitOn_eq, join_eq, List.splitOn_intercalate sep h hp]

/-- A joined text says which pieces it was joined from. -/
theorem join_inj {sep : UInt8} {ps qs : List Bytes} (hp : ps ≠ []) (hq : qs ≠ [])
    (h : ∀ p ∈ ps, sep ∉ p) (h' : ∀ q ∈ qs, sep ∉ q) : join [sep] ps = join [sep] qs ↔ ps = qs := by
  refine ⟨fun e => ?_, fun e => by rw [e]⟩
  rw [← splitOn_join hp h, e, splitOn_join hq h']

theorem mem_join {b : UInt8} {sep : Bytes} {ps : List Bytes} (h : b ∈ join sep ps) :
    b ∈ sep ∨ ∃ p ∈ ps, b ∈ p := by
  induction ps with
  | nil => simp at h
  | cons p ps ih =>
    by_cases hps : ps = []
    · subst hps; exact .inr ⟨p, by simp, by simpa using h⟩
    · rw [join_cons sep p hps, List.mem_append, List.mem_append] at h
      rcases h with (h | h) | h
      · exact .inr ⟨p, by simp, h⟩
      · exact .inl h
      · rcases ih h with h | ⟨q, hq, hb⟩
        · exact .inl h
        · exact .inr ⟨q, by simp [hq], hb⟩

end SigV4.Bytes

/-! ## Hexadecimal digits -/

namespace SigV4.Hex

/-- A digit that `encode` writes. -/
def isLowerHex (b : UInt8) : Bool := Bytes.isDigit b || (0x61 ≤ b && b ≤ 0x66)

theorem isLowerHex_lowerDigit (b : UInt8) :
    isLowerHex (lowerDigit (b >>> 4)) = true ∧ isLowerHex (lowerDigit (b &&& 0x0F)) = true :=
  have all : ∀ n : Fin 256, isLowerHex (lowerDigit (UInt8.ofFin n >>> 4)) = true ∧
      isLowerHex (lowerDigit (UInt8.ofFin n &&& 0x0F)) = true := by decide +kernel
  all b.toFin

/-- A digit of an escape. -/
def isUpperHex (b : UInt8) : Bool := Bytes.isDigit b || (0x41 ≤ b && b ≤ 0x46)

theorem isUpperHex_upperDigit (b : UInt8) :
    isUpperHex (upperDigit (b >>> 4)) = true ∧ isUpperHex (upperDigit (b &&& 0x0F)) = true :=
  have all : ∀ n : Fin 256, isUpperHex (upperDigit (UInt8.ofFin n >>> 4)) = true ∧
      isUpperHex (upperDigit (UInt8.ofFin n &&& 0x0F)) = true := by decide +kernel
  all b.toFin

theorem all_encode (bs : Bytes) : (encode bs).all isLowerHex = true := by
  rw [encode, List.all_flatMap, List.all_eq_true]
  intro b _
  simp [isLowerHex_lowerDigit b]

theorem length_encode (bs : Bytes) : (encode bs).length = 2 * bs.length := by
  induction bs with
  | nil => rfl
  | cons b bs ih =>
    rw [encode, List.flatMap_cons, List.length_append, ← encode, ih, List.length_cons]
    simp only [List.length_cons, List.length_nil]
    omega

/-- A byte that is no digit stands in no hexadecimal text. -/
theorem notMem_encode {b : UInt8} (h : isLowerHex b = false) (bs : Bytes) : b ∉ encode bs := by
  intro hb
  rw [List.all_eq_true.1 (all_encode bs) b hb] at h
  cases h

end SigV4.Hex
