import Mathlib.Data.List.Basic
import Mathlib.Data.List.TakeWhile
import SigV4.Proofs.Bytes
import SigV4.Proofs.Utf8
import SigV4.Signing.Canonical
/-!
# Queries that are written and read back

An encoded component holds unreserved bytes and percent signs only, so no separator of a query
stands in one and reading gives the component back. Pairs that were encoded, sorted and written
come back in the order of their encoded forms, all but those that are empty on both sides: they
leave nothing behind. The query line of a canonical request names exactly the pairs, in any order.
-/

namespace SigV4

/-! ## Percent encoding -/

namespace Percent

theorem value_upperDigit (b : UInt8) :
    Hex.value? (Hex.upperDigit (b >>> 4)) = some (b >>> 4) ∧
      Hex.value? (Hex.upperDigit (b &&& 0x0F)) = some (b &&& 0x0F) ∧
      b >>> 4 <<< 4 ||| b &&& 0x0F = b :=
  have all : ∀ n : Fin 256, Hex.value? (Hex.upperDigit (UInt8.ofFin n >>> 4)) = some (UInt8.ofFin n >>> 4) ∧
      Hex.value? (Hex.upperDigit (UInt8.ofFin n &&& 0x0F)) = some (UInt8.ofFin n &&& 0x0F) ∧
      UInt8.ofFin n >>> 4 <<< 4 ||| UInt8.ofFin n &&& 0x0F = UInt8.ofFin n := by decide +kernel
  all b.toFin

theorem isUnreserved_upperDigit (b : UInt8) :
    isUnreserved (Hex.upperDigit (b >>> 4)) = true ∧ isUnreserved (Hex.upperDigit (b &&& 0x0F)) = true :=
  have all : ∀ n : Fin 256, isUnreserved (Hex.upperDigit (UInt8.ofFin n >>> 4)) = true ∧
      isUnreserved (Hex.upperDigit (UInt8.ofFin n &&& 0x0F)) = true := by decide +kernel
  all b.toFin

theorem decode_cons {b : UInt8} (h : b ≠ 0x25) (rest : Bytes) : decode (b :: rest) = b :: decode rest := by
  rw [decode.eq_def]
  split
  · rename_i e
    exact absurd (List.cons.inj e).1 h
  · rename_i e
    obtain ⟨rfl, rfl⟩ := List.cons.inj e
    rfl
  · rename_i e
    exact absurd e (List.cons_ne_nil b rest)

theorem decode_escape (b : UInt8) (rest : Bytes) : decode (escape b ++ rest) = b :: decode rest := by
  obtain ⟨hh, hl, he⟩ := value_upperDigit b
  simp only [escape, List.cons_append, List.nil_append, decode, hh, hl, he]

theorem decode_encode_append {keep : UInt8 → Bool} (h : keep 0x25 = false) (bs rest : Bytes) :
    decode (encode keep bs ++ rest) = bs ++ decode rest := by
  induction bs with
  | nil => rfl
  | cons b bs ih =>
    rw [encode, List.flatMap_cons, List.append_assoc, ← encode, List.cons_append, ← ih]
    by_cases hb : keep b = true
    · rw [if_pos hb, List.singleton_append, decode_cons]
      rintro rfl
      rw [h] at hb; cases hb
    · rw [if_neg hb, decode_escape]

theorem decode_encode {keep : UInt8 → Bool} (h : keep 0x25 = false) (bs : Bytes) :
    decode (encode keep bs) = bs := by
  simpa [decode] using decode_encode_append h bs []

theorem encode_inj {keep : UInt8 → Bool} (h : keep 0x25 = false) {as bs : Bytes} :
    encode keep as = encode keep bs ↔ as = bs :=
  ⟨fun e => by rw [← decode_encode h as, e, decode_encode h bs], fun e => by rw [e]⟩

theorem encode_eq_nil {keep : UInt8 → Bool} {bs : Bytes} : encode keep bs = [] ↔ bs = [] := by
  cases bs with
  | nil => simp [encode]
  | cons b bs => by_cases hb : keep b = true <;> simp [encode, escape, hb]

theorem encode_eq_self {keep : UInt8 → Bool} {bs : Bytes} (h : ∀ b ∈ bs, keep b = true) : encode keep bs = bs := by
  induction bs with
  | nil => rfl
  | cons b bs ih =>
    rw [List.forall_mem_cons] at h
    rw [encode, List.flatMap_cons, ← encode, ih h.2, if_pos h.1, List.singleton_append]

/-- What stands in an encoded text. -/
theorem mem_encode {keep : UInt8 → Bool} (hk : ∀ b, isUnreserved b = true → keep b = true) {b : UInt8}
    {bs : Bytes} (h : b ∈ encode keep bs) : keep b = true ∨ b = 0x25 := by
  obtain ⟨c, -, hc⟩ := List.mem_flatMap.1 h
  by_cases hkc : keep c = true
  · rw [if_pos hkc, List.mem_singleton] at hc
    exact .inl (hc ▸ hkc)
  · rw [if_neg hkc, escape] at hc
    simp only [List.mem_cons, List.not_mem_nil, or_false] at hc
    rcases hc with rfl | rfl | rfl
    · exact .inr rfl
    · exact .inl (hk _ (isUnreserved_upperDigit c).1)
    · exact .inl (hk _ (isUnreserved_upperDigit c).2)

/-- A byte that is neither unreserved nor a percent sign is in no encoded component. -/
theorem notMem_encode {b : UInt8} (h : isUnreserved b = false) (hb : b ≠ 0x25) (bs : Bytes) :
    b ∉ encode isUnreserved bs := by
  intro hm
  rcases mem_encode (fun _ => id) hm with hu | rfl
  · rw [h] at hu; cases hu
  · exact hb rfl

end Percent

/-! ## Reading a query -/

namespace Form

/-- A pair of texts. -/
def WellFormed (p : Pair) : Prop := Utf8.WellFormed p.1 ∧ Utf8.WellFormed p.2

theorem wellFormed_of_mem_read {query : Bytes} {p : Pair} (h : p ∈ read query) : WellFormed p := by
  obtain ⟨piece, -, rfl⟩ := List.mem_map.1 h
  exact ⟨Utf8.wellFormed_repair _, Utf8.wellFormed_repair _⟩

theorem decodeComponent_encode {bs : Bytes} (h : Utf8.WellFormed bs) :
    decodeComponent (Percent.encode Percent.isUnreserved bs) = bs := by
  have hp : (Percent.encode Percent.isUnreserved bs).map plusToSpace = Percent.encode Percent.isUnreserved bs := by
    refine (List.map_congr_left fun b hb => ?_).trans (List.map_id _)
    have hb' : b ≠ 0x2B := by
      rintro rfl
      exact Percent.notMem_encode (by decide) (by decide) bs hb
    simp [plusToSpace, hb']
  rw [decodeComponent, hp, Percent.decode_encode (by decide), Utf8.repair_of_wellFormed h]

theorem decodeComponent_nil : decodeComponent [] = [] := by
  simp [decodeComponent, Percent.decode, Utf8.repair, Utf8.pieces]

/-- What stands between two separators for a pair. -/
def written (p : Pair) : Bytes := SigningRequest.writePair (Canonical.encodePair p)

theorem written_eq_nil {p : Pair} : written p = [] ↔ p = ([], []) := by
  obtain ⟨k, v⟩ := p
  by_cases hv : v = []
  · simp [written, SigningRequest.writePair, Canonical.encodePair, Percent.encode_eq_nil, hv]
  · simp [written, SigningRequest.writePair, Canonical.encodePair, Percent.encode_eq_nil, hv]

theorem notMem_written {b : UInt8} (hu : Percent.isUnreserved b = false) (h : b ≠ 0x25) (he : b ≠ 0x3D)
    (p : Pair) : b ∉ written p := by
  unfold written SigningRequest.writePair
  split
  · exact Percent.notMem_encode hu h _
  · simp only [List.mem_append, List.mem_cons, not_or]
    exact ⟨Percent.notMem_encode hu h _, he, Percent.notMem_encode hu h _⟩

/-- A key ends at the first equals sign. -/
theorem decodePair_append {k : Bytes} (h : (0x3D : UInt8) ∉ k) (v : Bytes) :
    decodePair (k ++ 0x3D :: v) = (decodeComponent k, decodeComponent v) := by
  have hk : ∀ b ∈ k, (b != 0x3D) = true := fun b hb => bne_iff_ne.2 fun e => h (e ▸ hb)
  rw [decodePair, List.takeWhile_append_of_pos hk, List.dropWhile_append_of_pos hk]
  simp

theorem decodePair_of_notMem {k : Bytes} (h : (0x3D : UInt8) ∉ k) : decodePair k = (decodeComponent k, []) := by
  have hk : ∀ b ∈ k, (b != 0x3D) = true := fun b hb => bne_iff_ne.2 fun e => h (e ▸ hb)
  rw [decodePair, List.takeWhile_eq_self_iff.2 hk, List.dropWhile_eq_nil_iff.2 hk, List.drop_nil, decodeComponent_nil]

theorem decodePair_written {p : Pair} (h : WellFormed p) : decodePair (written p) = p := by
  obtain ⟨k, v⟩ := p
  have hk : (0x3D : UInt8) ∉ Percent.encode Percent.isUnreserved k :=
    Percent.notMem_encode (by decide) (by decide) k
  unfold written SigningRequest.writePair Canonical.encodePair
  simp only
  split
  · rename_i hv
    obtain rfl : v = [] := by simpa [Percent.encode_eq_nil] using hv
    rw [decodePair_of_notMem hk, decodeComponent_encode h.1]
  · rw [decodePair_append hk, decodeComponent_encode h.1, decodeComponent_encode h.2]

/-- Pairs come back from what stands for them between separators, all but those that nothing stands for. -/
theorem read_join {f : Pair → Bytes} {ps : List Pair} (hf : ∀ p ∈ ps, (0x26 : UInt8) ∉ f p)
    (hback : ∀ p ∈ ps, decodePair (f p) = p) : read (Bytes.join [0x26] (ps.map f)) = ps.filter (f · ≠ []) := by
  by_cases hps : ps = []
  · subst hps; rfl
  · have hpieces : ∀ piece ∈ ps.map f, (0x26 : UInt8) ∉ piece := List.forall_mem_map.2 hf
    have hempty : ps.filter ((fun piece : Bytes => !piece.isEmpty) ∘ f) = ps.filter (f · ≠ []) := by
      refine List.filter_congr fun p _ => ?_
      cases h : f p <;> simp [h]
    rw [read, Bytes.splitOn_join (by simpa using hps) hpieces, List.filter_map, List.map_map, hempty]
    refine (List.map_congr_left fun p hp => ?_).trans (List.map_id _)
    exact hback p (List.mem_filter.1 hp).1

/-- Every pair comes back but those that are empty on both sides. -/
theorem read_written {ps : List Pair} (h : ∀ p ∈ ps, WellFormed p) :
    read (Bytes.join [0x26] (ps.map written)) = ps.filter (· ≠ ([], [])) := by
  rw [read_join (fun p _ => notMem_written (by decide) (by decide) (by decide) p)
    fun p hp => decodePair_written (h p hp)]
  exact List.filter_congr fun p _ => decide_eq_decide.2 (not_congr written_eq_nil)

/-! ## Writing a form -/

theorem encodeComponent_map (bs : Bytes) :
    (encodeComponent bs).map plusToSpace = Percent.encode (fun b => isPlain b || b == 0x20) bs := by
  have hplus : isPlain 0x2B = false ∧ Percent.isUnreserved 0x2B = false := by decide
  have hkept : ∀ b, b ≠ 0x2B → plusToSpace b = b := fun b hb => if_neg hb
  rw [encodeComponent, Percent.encode, List.map_flatMap]
  refine List.flatMap_congr fun b _ => ?_
  by_cases hb : isPlain b = true
  · have hne : b ≠ 0x2B := by
      rintro rfl
      rw [hplus.1] at hb; cases hb
    rw [if_pos hb, if_pos (by rw [hb]; rfl), List.map_singleton, hkept b hne]
  by_cases hspace : b = 0x20
  · subst hspace
    decide
  · have hdigit : ∀ d, Percent.isUnreserved d = true → plusToSpace d = d := by
      intro d hd
      refine hkept d ?_
      rintro rfl
      rw [hplus.2] at hd; cases hd
    obtain ⟨hhigh, hlow⟩ := Percent.isUnreserved_upperDigit b
    rw [if_neg hb, if_neg hspace, if_neg (by simp [hb, hspace]), Percent.escape, List.map_cons, List.map_cons,
      List.map_singleton, hdigit _ hhigh, hdigit _ hlow, hkept 0x25 (by decide)]

/-- A form component gives back what was written, spaces and plus signs as well. -/
theorem decodeComponent_encodeComponent {bs : Bytes} (h : Utf8.WellFormed bs) :
    decodeComponent (encodeComponent bs) = bs := by
  rw [decodeComponent, encodeComponent_map, Percent.decode_encode (by decide), Utf8.repair_of_wellFormed h]

/-- What stands in a form component. -/
theorem mem_encodeComponent {b : UInt8} {bs : Bytes} (h : b ∈ encodeComponent bs) :
    isPlain b = true ∨ b = 0x2B ∨ b = 0x25 := by
  have hplain : ∀ d, Hex.isUpperHex d = true → isPlain d = true := by
    grind [Hex.isUpperHex, isPlain, Bytes.isAlphanumeric, Bytes.isUpper]
  obtain ⟨c, -, hc⟩ := List.mem_flatMap.1 h
  split at hc
  · rename_i hplain
    exact .inl (List.mem_singleton.1 hc ▸ hplain)
  split at hc
  · exact .inr (.inl (List.mem_singleton.1 hc))
  · obtain ⟨hhigh, hlow⟩ := Hex.isUpperHex_upperDigit c
    simp only [Percent.escape, List.mem_cons, List.not_mem_nil, or_false] at hc
    rcases hc with rfl | rfl | rfl
    · exact .inr (.inr rfl)
    · exact .inl (hplain _ hhigh)
    · exact .inl (hplain _ hlow)

theorem notMem_encodeComponent {b : UInt8} (h : isPlain b = false) (hplus : b ≠ 0x2B) (hpercent : b ≠ 0x25)
    (bs : Bytes) : b ∉ encodeComponent bs := by
  intro hm
  rcases mem_encodeComponent hm with hplain | rfl | rfl
  · rw [h] at hplain; cases hplain
  · exact hplus rfl
  · exact hpercent rfl

theorem notMem_encodePair {b : UInt8} (h : isPlain b = false) (hplus : b ≠ 0x2B) (hpercent : b ≠ 0x25)
    (hequals : b ≠ 0x3D) (p : Pair) : b ∉ encodePair p := by
  simp only [encodePair, List.mem_append, List.mem_cons, not_or]
  exact ⟨notMem_encodeComponent h hplus hpercent _, hequals, notMem_encodeComponent h hplus hpercent _⟩

theorem decodePair_encodePair {p : Pair} (h : WellFormed p) : decodePair (encodePair p) = p := by
  have hkey : (0x3D : UInt8) ∉ encodeComponent p.1 :=
    notMem_encodeComponent (by decide) (by decide) (by decide) p.1
  rw [encodePair, decodePair_append hkey, decodeComponent_encodeComponent h.1, decodeComponent_encodeComponent h.2]

/-- A form gives back its pairs. -/
theorem read_write {ps : List Pair} (h : ∀ p ∈ ps, WellFormed p) : read (write ps) = ps := by
  rw [write, read_join (fun p _ => notMem_encodePair (by decide) (by decide) (by decide) (by decide) p)
    fun p hp => decodePair_encodePair (h p hp)]
  exact List.filter_eq_self.2 fun p _ => by simp [encodePair]

/-- No fragment starts in a form. -/
theorem notMem_write (ps : List Pair) : (0x23 : UInt8) ∉ write ps := by
  intro hm
  rcases Bytes.mem_join hm with hm | ⟨piece, hpiece, hm⟩
  · exact absurd hm (by decide)
  · obtain ⟨p, -, rfl⟩ := List.mem_map.1 hpiece
    exact notMem_encodePair (by decide) (by decide) (by decide) (by decide) p hm

end Form

/-! ## The order of pairs -/

namespace Canonical

open Form

theorem encodePair_inj {p q : Pair} : encodePair p = encodePair q ↔ p = q := by
  obtain ⟨k, v⟩ := p
  obtain ⟨k', v'⟩ := q
  simp [encodePair, @Percent.encode_inj Percent.isUnreserved rfl]

theorem pairLe_iff {p q : Pair} : pairLe p q = true ↔ p.1 < q.1 ∨ (p.1 = q.1 ∧ p.2 ≤ q.2) := by
  simp [pairLe]

theorem pairLe_trans {p q r : Pair} (h : pairLe p q = true) (h' : pairLe q r = true) : pairLe p r = true := by
  rw [pairLe_iff] at *
  rcases h with h | ⟨he, h⟩ <;> rcases h' with h' | ⟨he', h'⟩
  · exact .inl (List.lt_trans h h')
  · exact .inl (he' ▸ h)
  · exact .inl (he ▸ h')
  · exact .inr ⟨he.trans he', List.le_trans h h'⟩

theorem pairLe_total (p q : Pair) : (pairLe p q || pairLe q p) = true := by
  rw [Bool.or_eq_true, pairLe_iff, pairLe_iff]
  rcases List.le_total p.1 q.1 with h | h <;> rcases List.le_iff_lt_or_eq.1 h with h | h
  · exact .inl (.inl h)
  · rcases List.le_total p.2 q.2 with h' | h'
    · exact .inl (.inr ⟨h, h'⟩)
    · exact .inr (.inr ⟨h.symm, h'⟩)
  · exact .inr (.inl h)
  · rcases List.le_total p.2 q.2 with h' | h'
    · exact .inl (.inr ⟨h.symm, h'⟩)
    · exact .inr (.inr ⟨h, h'⟩)

theorem pairLe_antisymm {p q : Pair} (h : pairLe p q = true) (h' : pairLe q p = true) : p = q := by
  rw [pairLe_iff] at *
  rcases h with h | ⟨he, h⟩ <;> rcases h' with h' | ⟨he', h'⟩
  · exact absurd h' (List.lt_asymm h)
  · exact absurd (he' ▸ h) (List.lt_irrefl _)
  · exact absurd (he ▸ h') (List.lt_irrefl _)
  · exact Prod.ext he (List.le_antisymm h h')

/-- The pairs in the order in which a query is sent. -/
def sortPairs (ps : List Pair) : List Pair := ps.mergeSort fun p q => pairLe (encodePair p) (encodePair q)

theorem sortPairs_perm (ps : List Pair) : (sortPairs ps).Perm ps := List.mergeSort_perm _ _

theorem sortPairs_sorted (ps : List Pair) :
    (sortPairs ps).Pairwise fun p q => pairLe (encodePair p) (encodePair q) = true := by
  apply List.pairwise_mergeSort
  · exact fun _ _ _ h h' => pairLe_trans h h'
  · exact fun p q => pairLe_total (encodePair p) (encodePair q)

/-- There is one order that the encoded forms are in. -/
theorem sortPairs_eq {ps qs : List Pair} (h : ps.Perm qs)
    (hqs : qs.Pairwise fun p q => pairLe (encodePair p) (encodePair q) = true) : sortPairs ps = qs :=
  List.Perm.eq_of_pairwise (fun _ _ _ _ hp hq => encodePair_inj.1 (pairLe_antisymm hp hq)) (sortPairs_sorted ps) hqs
    ((sortPairs_perm ps).trans h)

theorem encodeQuery_eq (ps : List Pair) : encodeQuery ps = (sortPairs ps).map encodePair := by
  unfold encodeQuery sortPairs
  rw [List.map_mergeSort (s := pairLe) (f := encodePair) fun _ _ _ _ => rfl]

theorem encodeQuery_sorted (ps : List Pair) : (encodeQuery ps).Pairwise fun p q => pairLe p q = true := by
  rw [encodeQuery_eq, List.pairwise_map]
  exact sortPairs_sorted ps

theorem encodeQuery_perm {ps qs : List Pair} (h : ps.Perm qs) : encodeQuery ps = encodeQuery qs := by
  refine List.Perm.eq_of_pairwise (fun _ _ _ _ => pairLe_antisymm) (encodeQuery_sorted ps) (encodeQuery_sorted qs) ?_
  exact (List.mergeSort_perm _ _).trans ((h.map encodePair).trans (List.mergeSort_perm _ _).symm)

/-! ## Query lines -/

/-- A pair as the canonical request shows it. -/
def shown (p : Pair) : Bytes := (encodePair p).1 ++ 0x3D :: (encodePair p).2

theorem queryLine_eq (ps : List Pair) : queryLine (encodeQuery ps) = Bytes.join [0x26] ((sortPairs ps).map shown) := by
  rw [encodeQuery_eq, queryLine, List.map_map]; rfl

theorem notMem_shown {b : UInt8} (hu : Percent.isUnreserved b = false) (h : b ≠ 0x25) (he : b ≠ 0x3D)
    (p : Pair) : b ∉ shown p := by
  simp only [shown, List.mem_append, List.mem_cons, not_or]
  exact ⟨Percent.notMem_encode hu h _, he, Percent.notMem_encode hu h _⟩

theorem shown_inj {p q : Pair} (h : shown p = shown q) : p = q := by
  have hn : ∀ k : Bytes, (0x3D : UInt8) ∉ Percent.encode Percent.isUnreserved k :=
    Percent.notMem_encode (by decide) (by decide)
  have hs := congrArg (Bytes.splitOn 0x3D) h
  simp only [shown, encodePair, Bytes.splitOn_append_cons, Bytes.splitOn_of_notMem (hn _)] at hs
  obtain ⟨hk, hv⟩ : (encodePair p).1 = (encodePair q).1 ∧ (encodePair p).2 = (encodePair q).2 := by
    simpa [encodePair] using hs
  exact encodePair_inj.1 (Prod.ext hk hv)

theorem queryLine_notMem {b : UInt8} (hu : Percent.isUnreserved b = false) (h : b ≠ 0x25) (he : b ≠ 0x3D)
    (ha : b ≠ 0x26) (ps : List Pair) : b ∉ queryLine (encodeQuery ps) := by
  rw [queryLine_eq]
  intro hb
  rcases Bytes.mem_join hb with hb | ⟨piece, hp, hb⟩
  · exact ha (List.mem_singleton.1 hb)
  · obtain ⟨p, -, rfl⟩ := List.mem_map.1 hp
    exact notMem_shown hu h he p hb

/-- The line names the pairs and how often each occurs, but not their order. -/
theorem queryLine_inj {ps qs : List Pair} :
    queryLine (encodeQuery ps) = queryLine (encodeQuery qs) ↔ ps.Perm qs := by
  refine ⟨fun h => ?_, fun h => by rw [encodeQuery_perm h]⟩
  rw [queryLine_eq, queryLine_eq] at h
  have hn : ∀ rs : List Pair, ∀ piece ∈ (sortPairs rs).map shown, (0x26 : UInt8) ∉ piece := by
    intro rs piece hm
    obtain ⟨p, -, rfl⟩ := List.mem_map.1 hm
    exact notMem_shown (by decide) (by decide) (by decide) p
  have hs := congrArg (Bytes.splitOn 0x26) h
  -- no pairs at all leave one empty piece, which no pair does
  have he : ∀ rs : List Pair, [[]] ≠ (sortPairs rs).map shown := by
    intro rs e
    have : [] ∈ (sortPairs rs).map shown := by rw [← e]; simp
    obtain ⟨p, -, hp⟩ := List.mem_map.1 this
    simp [shown] at hp
  have hm : (sortPairs ps).map shown = (sortPairs qs).map shown := by
    by_cases hps : (sortPairs ps).map shown = [] <;> by_cases hqs : (sortPairs qs).map shown = []
    · rw [hps, hqs]
    · rw [hps, Bytes.splitOn_join hqs (hn qs)] at hs
      exact absurd hs (he qs)
    · rw [hqs, Bytes.splitOn_join hps (hn ps)] at hs
      exact absurd hs.symm (he ps)
    · rwa [Bytes.splitOn_join hps (hn ps), Bytes.splitOn_join hqs (hn qs)] at hs
  have hp : sortPairs ps = sortPairs qs := (List.map_inj_right fun _ _ => shown_inj).1 hm
  exact (sortPairs_perm ps).symm.trans (hp ▸ sortPairs_perm qs)

end Canonical

end SigV4
