import SigV4.Proofs.Acceptance
/-!
# Reading a canonical request

A canonical request is read line by line: the third line shows the pairs of the query, one line each
follows for the signed fields, and an empty one ends them. What the third line shows is what is sent,
but for pairs that are empty on both sides.
-/

namespace SigV4

open Http Canonical

/-! ## Lines -/

namespace Canonical

def linesIn (text : Bytes) : List Bytes := Bytes.splitOn 0x0A text

def queryIn (text : Bytes) : Bytes := ((linesIn text)[2]?).getD []

/-- The pairs of the query line, as they are shown. -/
def pairsIn (text : Bytes) : List Bytes := (Bytes.splitOn 0x26 (queryIn text)).filter (!·.isEmpty)

/-- The lines of the signed fields. -/
def fieldsIn (text : Bytes) : List Bytes := ((linesIn text).drop 3).takeWhile (!·.isEmpty)

variable {r : SigningRequest} {ps : List Form.Pair} {text : Bytes}

theorem linesIn_eq (hq : r.query = encodeQuery ps) (ht : request? r = some text) :
    ∃ payload, linesIn text = lines r payload := by
  obtain ⟨hread, payload, hp, rfl⟩ := request?_eq_some.1 ht
  exact ⟨payload, Bytes.splitOn_join (by simp [lines]) (notMem_lines hq hread hp)⟩

theorem queryIn_eq (hq : r.query = encodeQuery ps) (ht : request? r = some text) :
    queryIn text = queryLine r.query := by
  obtain ⟨payload, hl⟩ := linesIn_eq hq ht
  rw [queryIn, hl]
  rfl

theorem pairsIn_eq (hq : r.query = encodeQuery ps) (ht : request? r = some text) :
    pairsIn text = (sortPairs ps).map shown := by
  rw [pairsIn, queryIn_eq hq ht, hq, queryLine_eq]
  by_cases hps : sortPairs ps = []
  · rw [hps]
    rfl
  · have hn : ∀ piece ∈ (sortPairs ps).map shown, (0x26 : UInt8) ∉ piece := by
      intro piece hm
      obtain ⟨p, -, rfl⟩ := List.mem_map.1 hm
      exact notMem_shown (by decide) (by decide) (by decide) p
    rw [Bytes.splitOn_join (by simpa using hps) hn, List.filter_eq_self]
    intro piece hm
    obtain ⟨p, -, rfl⟩ := List.mem_map.1 hm
    simp [shown]

theorem fieldsIn_eq (hq : r.query = encodeQuery ps) (ht : request? r = some text) :
    fieldsIn text = (signedNames r.header).map (fieldRow r.header) := by
  obtain ⟨payload, hl⟩ := linesIn_eq hq ht
  have hrows : ∀ row ∈ (signedNames r.header).map (fieldRow r.header), (!row.isEmpty) = true := by
    intro row hm
    obtain ⟨n, -, rfl⟩ := List.mem_map.1 hm
    simp [fieldRow]
  have hdrop : (lines r payload).drop 3 =
      (signedNames r.header).map (fieldRow r.header) ++ [[], nameList (signedNames r.header), payload] := rfl
  rw [fieldsIn, hl, hdrop, List.takeWhile_append_of_pos hrows]
  simp

end Canonical

/-! ## What is signed and what is sent -/

/-- Behind a signature in the header the pairs are those of the request, but for lost ones. -/
theorem Mandate.Signed.query_sent {m : Mandate} {r sent : Request} {taken prepared : SigningRequest} {text : Bytes}
    (h : m.Signed r taken prepared text sent) (hm : m.placement = .header) :
    ∃ back, SigningRequest.ofRequest? sent = some back ∧ queryIn text = queryLine (encodeQuery taken.query) ∧
      back.query.Perm (taken.query.filter (· ≠ ([], []))) ∧
      (back.query.Perm taken.query ↔ ([], []) ∉ taken.query) := by
  obtain ⟨v, -, hback⟩ := h.sent_header hm
  have hpairs := signedPairs_header hm taken prepared
  have hkept : m.keptPairs taken prepared = (sortPairs taken.query).filter (· ≠ ([], [])) := by
    rw [keptPairs, hpairs]
  refine ⟨_, hback, ?_, ?_, ?_⟩
  · rw [queryIn_eq (prepare_query h.prepared_eq) h.text_eq, prepare_query h.prepared_eq, hpairs]
  · exact hkept ▸ (sortPairs_perm _).filter _
  · exact hpairs ▸ keptPairs_perm_iff m taken prepared

namespace Signer

/-- The pairs of the request that is sent are those of the request that was signed, in some order, and their
encoding is the query line that was signed, exactly when none of them is empty on both sides. Such pairs
are signed too, and they are all that is lost. -/
theorem sign_keeps_pairs {s : Signer} {now : Time} {r : Request} {body : Bytes}
    (h : (s.sign now r body).fault = none) :
    ∃ taken back text, SigningRequest.ofRequest? r = some taken ∧
      SigningRequest.ofRequest? (s.sign now r body).request = some back ∧
      (s.sign now r body).canonicalRequest = some text ∧ queryIn text = queryLine (encodeQuery taken.query) ∧
      back.query.Perm (taken.query.filter (· ≠ ([], []))) ∧
      (back.query.Perm taken.query ↔ ([], []) ∉ taken.query) ∧
      (queryLine (encodeQuery back.query) = queryIn text ↔ ([], []) ∉ taken.query) := by
  obtain ⟨taken, taken', prepared, text, htaken, hquery, hsigned, htext, -, -⟩ := signed_of_sign h
  obtain ⟨back, hback, hline, hperm, hiff⟩ := hsigned.query_sent rfl
  rw [hquery] at hline hperm hiff
  refine ⟨taken, back, text, htaken, hback, htext, hline, hperm, hiff, ?_⟩
  rw [hline, queryLine_inj, hiff]

/-- Pairs without a value and without a key, a plus sign, an escape that is none and raw bytes. -/
def oddPairs : Request := asking (utf8 "k=&=v&a+b=%zz&k&é=&&%C3=1") (by decide +kernel)

theorem sign_keeps_odd_pairs : (longTerm.sign morning oddPairs []).fault = none ∧
    ∃ back text, SigningRequest.ofRequest? (longTerm.sign morning oddPairs []).request = some back ∧
      (longTerm.sign morning oddPairs []).canonicalRequest = some text ∧
      back.query.Perm (Form.read (utf8 "k=&=v&a+b=%zz&k&é=&&%C3=1")) ∧
      queryLine (encodeQuery back.query) = queryIn text := by
  have h : (longTerm.sign morning oddPairs []).fault = none := sign_of_isReady (by decide +kernel)
  obtain ⟨taken, back, text, htaken, hback, htext, -, -, hperm, hline⟩ := sign_keeps_pairs h
  have hq : ([], []) ∉ taken.query := by
    rw [query_asking htaken]
    decide +kernel
  exact ⟨h, back, text, hback, htext, query_asking htaken ▸ hperm.2 hq, hline.2 hq⟩

/-- A pair that is empty on both sides, between two others. -/
def emptyBetween : Request := asking (utf8 "a=1&=&b") (by decide +kernel)

theorem sign_drops_empty_pair : (longTerm.sign morning emptyBetween []).fault = none ∧
    ∃ taken back text, SigningRequest.ofRequest? emptyBetween = some taken ∧
      SigningRequest.ofRequest? (longTerm.sign morning emptyBetween []).request = some back ∧
      (longTerm.sign morning emptyBetween []).canonicalRequest = some text ∧
      taken.query = [(utf8 "a", utf8 "1"), ([], []), (utf8 "b", [])] ∧ back.query.length = 2 ∧
      ¬ back.query.Perm taken.query ∧ queryLine (encodeQuery back.query) ≠ queryIn text := by
  have h : (longTerm.sign morning emptyBetween []).fault = none := sign_of_isReady (by decide +kernel)
  obtain ⟨taken, taken', prepared, text, htaken, hquery, hsigned, htext, -, -⟩ := signed_of_sign h
  obtain ⟨back, hback, hline, hperm, hiff⟩ := hsigned.query_sent rfl
  have hread : taken.query = [(utf8 "a", utf8 "1"), ([], []), (utf8 "b", [])] := by
    rw [query_asking htaken]
    decide +kernel
  rw [hquery, hread] at hline hperm hiff
  have hlost : ¬ back.query.Perm taken.query := by
    rw [hread, hiff]
    decide +kernel
  refine ⟨h, taken, back, text, htaken, hback, htext, hread, ?_, hlost, ?_⟩
  · rw [hperm.length_eq]
    decide +kernel
  · rwa [hline, Ne, queryLine_inj, ← hread]

end Signer

end SigV4
