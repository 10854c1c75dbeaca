import Mathlib.Data.List.Sort
import SigV4.Http.Header
/-!
# Headers by name

What each change to a header does to the values under one name, and that `names` lists every name
with a value once, in ascending order.
-/

namespace SigV4.Http

/-! ## Tokens -/

theorem value_of_isTokenByte {b : UInt8} (h : isTokenByte b = true) : b < 0x80 ∧ isValueByte b = true := by
  have hmarks : tokenMarks.all (fun b => b < 0x80 ∧ isValueByte b = true) = true := by decide
  rw [isTokenByte, Bool.or_eq_true, List.contains_iff_mem] at h
  rcases h with h | h
  · grind [Bytes.isAlphanumeric, Bytes.isDigit, Bytes.isUpper, Bytes.isLower, isValueByte]
  · simpa using List.all_eq_true.1 hmarks b h

theorem Method.notMem {b : UInt8} (h : isTokenByte b = false) (m : Method) : b ∉ m.token := by
  intro hb
  have hv := m.valid
  rw [Bool.and_eq_true, List.all_eq_true] at hv
  rw [hv.2 b hb] at h
  cases h

theorem FieldName.notMem {b : UInt8} (h : isTokenByte b = false) (n : FieldName) : b ∉ n.bytes := by
  intro hb
  have hv := n.valid
  simp only [Bool.and_eq_true, List.all_eq_true] at hv
  rw [(hv.2 b hb).1] at h
  cases h

theorem FieldName.value_of_mem {b : UInt8} {n : FieldName} (h : b ∈ n.bytes) : b < 0x80 ∧ isValueByte b = true := by
  by_cases ht : isTokenByte b = true
  · exact value_of_isTokenByte ht
  · exact absurd h (n.notMem (Bool.not_eq_true _ ▸ ht))

theorem FieldName.ext_bytes {n m : FieldName} (h : n.bytes = m.bytes) : n = m := by
  cases n; cases m; simp_all

theorem Method.ext_token {m k : Method} (h : m.token = k.token) : m = k := by
  cases m; cases k; simp_all

namespace Header

/-! ## Values -/

variable (h : Header) (n m : FieldName) (v : FieldValue)

@[simp] theorem values_append : (h.append n v).values m = h.values m ++ if n = m then [v] else [] := by
  by_cases e : n = m <;> simp [values, append, e]

@[simp] theorem values_erase : (h.erase n).values m = if n = m then [] else h.values m := by
  simp only [values, erase, List.filterMap_filter]
  by_cases e : n = m
  · subst e
    rw [if_pos rfl, List.filterMap_eq_nil_iff]
    intro f _
    by_cases hf : f.1 = n <;> simp [hf]
  · rw [if_neg e]
    refine List.filterMap_congr fun f _ => ?_
    by_cases hf : f.1 = m
    · simp [hf, Ne.symm e]
    · by_cases hn : f.1 = n <;> simp [hf, hn, e]

@[simp] theorem values_set : (h.set n v).values m = if n = m then [v] else h.values m := by
  rw [set, values_append, values_erase]
  by_cases e : n = m <;> simp [e]

@[simp] theorem values_mapValues (f : FieldValue → FieldValue) :
    (h.mapValues f).values n = (h.values n).map f := by
  simp only [values, mapValues, List.filterMap_map, List.map_filterMap]
  refine List.filterMap_congr fun p _ => ?_
  by_cases hp : p.1 = n <;> simp [hp]

theorem contains_iff : h.contains n = true ↔ h.values n ≠ [] := by
  simp only [contains, values, List.any_eq_true, decide_eq_true_eq, ne_eq, List.filterMap_eq_nil_iff]
  constructor
  · rintro ⟨f, hf, e⟩ hn
    simpa [e] using hn f hf
  · intro hn
    by_contra hc
    refine hn fun f hf => if_neg fun e => hc ⟨f, hf, e⟩

/-! ## Names -/

variable {h n m}

theorem mem_insertName {ns : List FieldName} : m ∈ insertName n ns ↔ m = n ∨ m ∈ ns := by
  induction ns with
  | nil => simp [insertName]
  | cons k ns ih =>
    unfold insertName
    split
    · simp
    · split
      · rename_i e
        simp [e]
      · simp only [List.mem_cons, ih]
        exact or_left_comm

theorem mem_names : n ∈ h.names ↔ h.values n ≠ [] := by
  obtain ⟨fields⟩ := h
  simp only [names, values]
  induction fields with
  | nil => simp
  | cons f fields ih =>
    rw [List.foldr_cons, mem_insertName, ih]
    by_cases e : f.1 = n
    · simp [e]
    · simp [e, Ne.symm e]

theorem sorted_insertName {ns : List FieldName} (hs : ns.Pairwise (·.bytes < ·.bytes)) :
    (insertName n ns).Pairwise (·.bytes < ·.bytes) := by
  induction ns with
  | nil => simp [insertName]
  | cons k ns ih =>
    obtain ⟨hk, hns⟩ := List.pairwise_cons.1 hs
    unfold insertName
    split
    · rename_i hlt
      refine List.pairwise_cons.2 ⟨fun j hj => ?_, hs⟩
      rcases List.mem_cons.1 hj with rfl | hj
      · exact hlt
      · exact List.lt_trans hlt (hk j hj)
    · split
      · exact hs
      · rename_i hlt hne
        refine List.pairwise_cons.2 ⟨fun j hj => ?_, ih hns⟩
        rcases mem_insertName.1 hj with rfl | hj
        · -- neither smaller nor equal
          rcases List.le_iff_lt_or_eq.1 (List.not_lt.1 hlt) with hkj | e
          · exact hkj
          · exact absurd (FieldName.ext_bytes e.symm) hne
        · exact hk j hj

theorem sorted_names (h : Header) : h.names.Pairwise (·.bytes < ·.bytes) := by
  unfold names
  induction h.fields with
  | nil => exact .nil
  | cons f fields ih => exact sorted_insertName ih

/-- Ascending lists with the same names are equal. -/
theorem eq_of_sorted {ns ms : List FieldName} (hn : ns.Pairwise (·.bytes < ·.bytes))
    (hm : ms.Pairwise (·.bytes < ·.bytes)) (h : ∀ n, n ∈ ns ↔ n ∈ ms) : ns = ms := by
  have : Std.Irrefl fun n m : FieldName => n.bytes < m.bytes := ⟨fun n => List.lt_irrefl n.bytes⟩
  have : Std.Antisymm fun n m : FieldName => n.bytes < m.bytes :=
    ⟨fun n m h h' => absurd h' (List.lt_asymm h)⟩
  exact hn.eq_of_mem_iff hm fun n => h n

end Header

end SigV4.Http
