import SigV4.Text.Utf8
/-!
# What repairing UTF-8 keeps

A byte string is well formed when it is a sequence of characters. `repair` leaves such strings
alone and makes every other string one, and the encoding of a text is always one.
-/

namespace SigV4.Utf8

/-- A byte string that is read as one character, whatever follows it. -/
def IsCharacter (c : Bytes) : Prop :=
  ∃ b bs, c = b :: bs ∧ ∀ rest, piece b (bs ++ rest) = (.character, bs.length)

def WellFormed (bs : Bytes) : Prop := ∃ cs : List Bytes, (∀ c ∈ cs, IsCharacter c) ∧ bs = cs.flatten

/-! ## Characters in a byte string -/

theorem continuation_character {n k : Nat} {bs : Bytes} (h : continuation n bs = (.character, k)) :
    k = n ∧ n ≤ bs.length ∧ ∀ rest, continuation n (bs.take n ++ rest) = (.character, n) := by
  induction n generalizing bs k with
  | zero =>
    obtain ⟨-, rfl⟩ : Verdict.character = .character ∧ 0 = k := by simpa [continuation] using h
    exact ⟨rfl, Nat.zero_le _, fun rest => by simp [continuation]⟩
  | succ n ih =>
    cases bs with
    | nil => simp [continuation] at h
    | cons b bs =>
      by_cases hb : isContinuation b = true
      · simp only [continuation, hb, if_true, Prod.mk.injEq] at h
        obtain ⟨hk, hn, hr⟩ := ih (k := k - 1) (Prod.ext h.1 (by simp only; omega))
        refine ⟨by omega, by simpa using hn, fun rest => ?_⟩
        simp [continuation, hb, hr rest]
      · simp [continuation, hb] at h

theorem isCharacter_of_piece {b : UInt8} {bs : Bytes} {n : Nat} (h : piece b bs = (.character, n)) :
    IsCharacter (b :: bs.take n) := by
  refine ⟨b, bs.take n, rfl, fun rest => ?_⟩
  unfold piece at h ⊢
  by_cases hb : b < 0x80
  · simp only [hb, if_true, Prod.mk.injEq, true_and] at h ⊢
    simp [← h]
  · simp only [hb, if_false] at h ⊢
    cases hl : lead? b with
    | none => simp [hl] at h
    | some l =>
      obtain ⟨low, high, more⟩ := l
      cases bs with
      | nil => simp [hl] at h
      | cons c cs =>
        by_cases hc : (low ≤ c && c ≤ high) = true
        · simp only [hl, hc, if_true, Prod.mk.injEq] at h
          obtain ⟨hk, hm, hr⟩ := continuation_character (k := n - 1) (Prod.ext h.1 (by simp only; omega))
          obtain rfl : n = more + 1 := by omega
          simp [hc, hr rest, hm]
        · simp [hl, hc] at h

theorem pieces_append {c : Bytes} (h : IsCharacter c) (rest : Bytes) :
    pieces (c ++ rest) = (.character, c) :: pieces rest := by
  obtain ⟨b, bs, rfl, hp⟩ := h
  rw [List.cons_append, pieces, hp rest]
  simp

theorem pieces_flatten {cs : List Bytes} (h : ∀ c ∈ cs, IsCharacter c) :
    pieces cs.flatten = cs.map (.character, ·) := by
  induction cs with
  | nil => simp [pieces]
  | cons c cs ih =>
    rw [List.flatten_cons, pieces_append (h c (by simp)), ih (fun d hd => h d (by simp [hd])), List.map_cons]

theorem isCharacter_of_mem_pieces {bs c : Bytes} (h : (.character, c) ∈ pieces bs) : IsCharacter c := by
  fun_induction pieces bs with
  | case1 => simp at h
  | case2 b bs ih =>
    rcases List.mem_cons.1 h with h | h
    · obtain ⟨hv, rfl⟩ := Prod.mk.inj h
      exact isCharacter_of_piece (Prod.ext hv.symm rfl)
    · exact ih h

theorem isCharacter_replacement : IsCharacter [0xEF, 0xBF, 0xBD] :=
  ⟨0xEF, [0xBF, 0xBD], rfl, fun _ => rfl⟩

/-! ## Repair -/

theorem repair_of_wellFormed {bs : Bytes} (h : WellFormed bs) : repair bs = bs := by
  obtain ⟨cs, hc, rfl⟩ := h
  rw [repair, pieces_flatten hc, List.flatMap_map]
  simp [List.flatMap_def]

theorem wellFormed_repair (bs : Bytes) : WellFormed (repair bs) := by
  refine ⟨(pieces bs).map fun p => if p.1 == .character then p.2 else [0xEF, 0xBF, 0xBD], ?_, rfl⟩
  intro c hc
  obtain ⟨⟨v, d⟩, hp, rfl⟩ := List.mem_map.1 hc
  by_cases hv : v = .character
  · subst hv; exact isCharacter_of_mem_pieces hp
  · simpa [hv] using isCharacter_replacement

/-! ## Encoded characters -/

theorem isCharacter_ascii {b : UInt8} (h : b < 0x80) : IsCharacter [b] :=
  ⟨b, [], rfl, fun rest => by simp [piece, h]⟩

theorem isContinuation_ofNat (n : Nat) : isContinuation (UInt8.ofNat (n % 0x40 + 0x80)) = true := by
  simp only [isContinuation, UInt8.le_iff_toNat_le, UInt8.toNat_ofNat', UInt8.toNat_ofNat, Bool.and_eq_true,
    decide_eq_true_eq]
  omega

/-- A lead byte, a second byte in its range and continuation bytes make a character. -/
theorem isCharacter_of_lead {b low high c : UInt8} {cs : Bytes} (hb : 0x80 ≤ b)
    (hl : lead? b = some (low, high, cs.length)) (hc : low ≤ c ∧ c ≤ high)
    (hs : ∀ d ∈ cs, isContinuation d = true) : IsCharacter (b :: c :: cs) := by
  have hk : ∀ ds : Bytes, (∀ d ∈ ds, isContinuation d = true) → ∀ rest,
      continuation ds.length (ds ++ rest) = (.character, ds.length) := by
    intro ds hd rest
    induction ds with
    | nil => rfl
    | cons d ds ih => simp [continuation, hd d (by simp), ih (fun e he => hd e (by simp [he]))]
  refine ⟨b, c :: cs, rfl, fun rest => ?_⟩
  have hb' : ¬ b < 0x80 := by simpa using hb
  simp [piece, hb', hl, hc.1, hc.2, hk cs hs rest]

/-- `lead?` by number. -/
theorem lead?_ofNat : ∀ n < 256, lead? (UInt8.ofNat n) =
    if 0xC2 ≤ n ∧ n ≤ 0xDF then some (0x80, 0xBF, 0)
    else if n = 0xE0 then some (0xA0, 0xBF, 1)
    else if n = 0xED then some (0x80, 0x9F, 1)
    else if 0xE1 ≤ n ∧ n ≤ 0xEF then some (0x80, 0xBF, 1)
    else if n = 0xF0 then some (0x90, 0xBF, 2)
    else if 0xF1 ≤ n ∧ n ≤ 0xF3 then some (0x80, 0xBF, 2)
    else if n = 0xF4 then some (0x80, 0x8F, 2)
    else none := by decide +kernel

theorem ofNat_le_ofNat {m n : Nat} (hm : m < 256) (hn : n < 256) (h : m ≤ n) :
    UInt8.ofNat m ≤ UInt8.ofNat n := by
  rw [UInt8.le_iff_toNat_le, UInt8.toNat_ofNat', UInt8.toNat_ofNat']; omega

/-- `isCharacter_of_lead` by numbers. -/
theorem isCharacter_of_numbers {n l u m : Nat} {k : List Nat} (hn : 0x80 ≤ n ∧ n < 256)
    (hl : lead? (UInt8.ofNat n) = some (UInt8.ofNat l, UInt8.ofNat u, k.length))
    (hm : l ≤ m ∧ m ≤ u) (hu : u < 256) :
    IsCharacter (UInt8.ofNat n :: UInt8.ofNat m :: k.map fun i => UInt8.ofNat (i % 0x40 + 0x80)) :=
  isCharacter_of_lead (ofNat_le_ofNat (m := 0x80) (by omega) hn.2 hn.1) (by simpa using hl)
    ⟨ofNat_le_ofNat (by omega) (by omega) hm.1, ofNat_le_ofNat (by omega) hu hm.2⟩
    (by simpa using fun i _ => isContinuation_ofNat i)

theorem isCharacter_utf8EncodeChar (c : Char) : IsCharacter (String.utf8EncodeChar c) := by
  have hv : c.val.toNat < 0xd800 ∨ (0xdfff < c.val.toNat ∧ c.val.toNat < 0x110000) := c.valid
  unfold String.utf8EncodeChar
  generalize c.val.toNat = v at hv
  simp only
  split
  · exact isCharacter_ascii (by rw [UInt8.lt_iff_toNat_lt, UInt8.toNat_ofNat']; show v % 256 < 128; omega)
  split
  · refine isCharacter_of_numbers (l := 0x80) (u := 0xBF) (k := []) (by omega) ?_ (by omega) (by omega)
    rw [lead?_ofNat _ (by omega), if_pos (by omega)]; rfl
  split
  · -- the second byte of E0 and ED has a smaller range
    rcases (by omega : v / 4096 = 0 ∨ v / 4096 = 13 ∨ (v / 4096 ≠ 0 ∧ v / 4096 ≠ 13)) with h | h | h
    · refine isCharacter_of_numbers (l := 0xA0) (u := 0xBF) (k := [v]) (by omega) ?_ (by omega) (by omega)
      rw [lead?_ofNat _ (by omega), if_neg (by omega), if_pos (by omega)]; rfl
    · refine isCharacter_of_numbers (l := 0x80) (u := 0x9F) (k := [v]) (by omega) ?_ (by omega) (by omega)
      rw [lead?_ofNat _ (by omega), if_neg (by omega), if_neg (by omega), if_pos (by omega)]; rfl
    · refine isCharacter_of_numbers (l := 0x80) (u := 0xBF) (k := [v]) (by omega) ?_ (by omega) (by omega)
      rw [lead?_ofNat _ (by omega), if_neg (by omega), if_neg (by omega), if_neg (by omega), if_pos (by omega)]
      rfl
  · rcases (by omega : v / 262144 = 0 ∨ v / 262144 = 4 ∨ (v / 262144 ≠ 0 ∧ v / 262144 ≠ 4)) with h | h | h
    · refine isCharacter_of_numbers (l := 0x90) (u := 0xBF) (k := [v / 64, v]) (by omega) ?_ (by omega) (by omega)
      rw [lead?_ofNat _ (by omega), if_neg (by omega), if_neg (by omega), if_neg (by omega), if_neg (by omega),
        if_pos (by omega)]
      rfl
    · refine isCharacter_of_numbers (l := 0x80) (u := 0x8F) (k := [v / 64, v]) (by omega) ?_ (by omega) (by omega)
      rw [lead?_ofNat _ (by omega), if_neg (by omega), if_neg (by omega), if_neg (by omega), if_neg (by omega),
        if_neg (by omega), if_neg (by omega), if_pos (by omega)]
      rfl
    · refine isCharacter_of_numbers (l := 0x80) (u := 0xBF) (k := [v / 64, v]) (by omega) ?_ (by omega) (by omega)
      rw [lead?_ofNat _ (by omega), if_neg (by omega), if_neg (by omega), if_neg (by omega), if_neg (by omega),
        if_neg (by omega), if_pos (by omega)]
      rfl

/-- A character is one byte with its number, or bytes that are not ASCII. -/
theorem utf8EncodeChar_cases (c : Char) :
    (c.toNat < 0x80 ∧ String.utf8EncodeChar c = [UInt8.ofNat c.toNat]) ∨
      (0x80 ≤ c.toNat ∧ String.utf8EncodeChar c ≠ [] ∧ ∀ b ∈ String.utf8EncodeChar c, 0x80 ≤ b) := by
  have hvalid : c.val.toNat < 0xd800 ∨ (0xdfff < c.val.toNat ∧ c.val.toNat < 0x110000) := c.valid
  have hlarge : ∀ n, 0x80 ≤ n → n < 256 → UInt8.ofNat 0x80 ≤ UInt8.ofNat n :=
    fun n hl hu => ofNat_le_ofNat (by decide) hu hl
  unfold String.utf8EncodeChar Char.toNat
  generalize c.val.toNat = v at hvalid
  simp only
  split
  · exact .inl ⟨by omega, rfl⟩
  · refine .inr ⟨by omega, ?_⟩
    split
    · refine ⟨List.cons_ne_nil _ _, ?_⟩
      simp only [List.forall_mem_cons]
      exact ⟨hlarge _ (by omega) (by omega), hlarge _ (by omega) (by omega), by simp⟩
    split
    · refine ⟨List.cons_ne_nil _ _, ?_⟩
      simp only [List.forall_mem_cons]
      exact ⟨hlarge _ (by omega) (by omega), hlarge _ (by omega) (by omega), hlarge _ (by omega) (by omega), by simp⟩
    · refine ⟨List.cons_ne_nil _ _, ?_⟩
      simp only [List.forall_mem_cons]
      exact ⟨hlarge _ (by omega) (by omega), hlarge _ (by omega) (by omega), hlarge _ (by omega) (by omega),
        hlarge _ (by omega) (by omega), by simp⟩

/-! ## Texts -/

theorem wellFormed_ascii {bs : Bytes} (h : ∀ b ∈ bs, b < 0x80) : WellFormed bs :=
  ⟨bs.map ([·]), by simpa using fun b hb => isCharacter_ascii (h b hb), by simp [← List.flatMap_def]⟩

theorem isValid_of_wellFormed {bs : Bytes} (h : WellFormed bs) : isValid bs = true := by
  obtain ⟨cs, hc, rfl⟩ := h
  rw [isValid, pieces_flatten hc, List.all_map, List.all_eq_true]
  exact fun _ _ => rfl

theorem wellFormed_utf8 (s : String) : WellFormed (utf8 s) :=
  ⟨s.toList.map String.utf8EncodeChar, by simpa using fun c _ => isCharacter_utf8EncodeChar c,
    by simp [utf8, List.flatMap_def]⟩

/-- Different texts have different bytes. -/
theorem utf8_inj {s t : String} : utf8 s = utf8 t ↔ s = t := by
  refine ⟨fun h => ?_, fun h => by rw [h]⟩
  have hencode : s.toList.utf8Encode = t.toList.utf8Encode := congrArg List.toByteArray h
  rwa [String.utf8Encode_toList, String.utf8Encode_toList, String.toByteArray_inj] at hencode

theorem WellFormed.append {as bs : Bytes} (ha : WellFormed as) (hb : WellFormed bs) :
    WellFormed (as ++ bs) := by
  obtain ⟨cs, hc, rfl⟩ := ha
  obtain ⟨ds, hd, rfl⟩ := hb
  refine ⟨cs ++ ds, ?_, by simp⟩
  intro c h
  rcases List.mem_append.1 h with h | h
  · exact hc c h
  · exact hd c h

end SigV4.Utf8
