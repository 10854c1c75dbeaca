import SigV4.Proofs.Aftermath
import SigV4.Proofs.Coverage
/-!
# The host field of a signed request

An authority is a host, perhaps with a user in front of it and a port behind it. A request that has no
host field gets one when it is signed, and its value is the authority as it stands in the URI. So a user
part is signed and sent along with the host.
-/

namespace SigV4

open Http Canonical

namespace Http.Authority

/-! ## The parts of an authority -/

/-- A host and the port behind it, if there is one. -/
def hostWithPort (host : Bytes) (port : Option Bytes) : Bytes := host ++ port.elim [] (0x3A :: ·)

/-- A user and the sign behind it. -/
def userPart (user : Option Bytes) : Bytes := user.elim [] (· ++ [0x40])

/-- Every colon has a closing bracket behind it. -/
def Bracketed (host : Bytes) : Prop := ∀ front back, host = front ++ 0x3A :: back → 0x5D ∈ back

/-- The parts of an authority: the user ends at the last `@`, and the port begins at the colon behind the brackets. -/
structure Spells (a : Authority) (user : Option Bytes) (host : Bytes) (port : Option Bytes) : Prop where
  bytes_eq : a.bytes = userPart user ++ hostWithPort host port
  noAt : 0x40 ∉ hostWithPort host port
  bracketed : Bracketed host
  plain : ∀ p ∈ port, 0x3A ∉ p ∧ 0x5D ∉ p

theorem Bracketed.append {front tail : Bytes} (h : Bracketed front) (ht : 0x3A ∉ tail) : Bracketed (front ++ tail) := by
  intro before after e
  rcases List.append_eq_append_iff.1 e with ⟨mid, -, htail⟩ | ⟨mid, hfront, hafter⟩
  · exact absurd (htail ▸ List.mem_append_right _ List.mem_cons_self) ht
  · cases mid with
    | nil => exact absurd (List.nil_append tail ▸ hafter ▸ List.mem_cons_self) ht
    | cons b mid =>
      obtain ⟨rfl, rfl⟩ := List.cons.inj hafter
      exact List.mem_append_left _ (h _ _ hfront)

theorem bracketed_concat (bs : Bytes) : Bracketed (bs ++ [0x5D]) := by
  intro front back e
  have hlast := congrArg List.getLast? e
  rw [List.getLast?_concat, List.getLast?_append, List.getLast?_cons] at hlast
  cases hback : back.getLast? with
  | none => simp [hback] at hlast
  | some b =>
    rw [hback] at hlast
    obtain rfl := Option.some.inj hlast
    exact List.mem_of_getLast? hback

/-! ## What the scan has seen -/

/-- The bytes scanned so far: a user, what is behind it up to the last bracket, and what follows that. -/
structure Seen (s : Scan) (bs : Bytes) (user : Option Bytes) (front tail : Bytes) : Prop where
  bytes_eq : bs = userPart user ++ (front ++ tail)
  noAt : 0x40 ∉ front ++ tail
  bracketed : Bracketed front
  unclosed : 0x5D ∉ tail
  colons : s.colons = tail.count 0x3A

theorem Seen.step {s s' : Scan} {bs front tail : Bytes} {user : Option Bytes} {b : UInt8}
    (h : Seen s bs user front tail) (hstep : s.step b = some s') :
    ∃ user' front' tail', Seen s' (bs ++ [b]) user' front' tail' := by
  obtain ⟨hbytes, hat, hfront, htail, hcolons⟩ := h
  have hkeep : ∀ b : UInt8, b ≠ 0x40 → b ≠ 0x5D → s'.colons = (tail ++ [b]).count 0x3A →
      Seen s' (bs ++ [b]) user front (tail ++ [b]) := by
    intro b hb hb' hcount
    exact ⟨by simp [hbytes], by simpa [Ne.symm hb] using hat, hfront, by simpa [Ne.symm hb'] using htail, hcount⟩
  rcases (Scan.step_cases hstep).2 with ⟨rfl, hs⟩ | ⟨rfl, hs⟩ | ⟨rfl, hs⟩ | ⟨hb, hb', hb'', hs⟩
  · exact ⟨user, front, _, hkeep 0x3A (by decide) (by decide) (by simp [hs, hcolons])⟩
  · exact ⟨user, _, [], by simp [hbytes], by simpa using hat, bracketed_concat (front ++ tail), List.not_mem_nil, hs⟩
  · exact ⟨some bs, [], [], by simp [userPart], by simp, by simp [Bracketed], List.not_mem_nil, hs⟩
  · exact ⟨user, front, _, hkeep b hb'' hb' (by simp [hs, hcolons, hb])⟩

theorem exists_seen {bs : Bytes} {s : Scan} (h : bs.foldlM Scan.step {} = some s) :
    ∃ user front tail, Seen s bs user front tail := by
  induction bs using List.reverseRecOn generalizing s with
  | nil =>
    obtain rfl := Option.some.inj h
    exact ⟨none, [], [], rfl, List.not_mem_nil, by simp [Bracketed], List.not_mem_nil, rfl⟩
  | append_singleton bs b ih =>
    rw [List.foldlM_append, Option.bind_eq_bind, Option.bind_eq_some_iff] at h
    obtain ⟨s', hs', hb⟩ := h
    rw [List.foldlM_cons, Option.bind_eq_bind, Option.bind_eq_some_iff] at hb
    obtain ⟨s'', hstep, hs⟩ := hb
    obtain rfl := Option.some.inj hs
    obtain ⟨user, front, tail, hseen⟩ := ih hs'
    exact hseen.step hstep

/-- Every authority has its parts. -/
theorem exists_spells (a : Authority) : ∃ user host port, a.Spells user host port := by
  have hv := a.valid
  unfold isValid at hv
  cases hscan : a.bytes.foldlM Scan.step {} with
  | none => simp [hscan] at hv
  | some s =>
    simp only [hscan, Bool.and_eq_true, decide_eq_true_eq] at hv
    obtain ⟨user, front, tail, hbytes, hat, hfront, htail, hcolons⟩ := exists_seen hscan
    have hone : tail.count 0x3A ≤ 1 := hcolons ▸ hv.2.1.2
    by_cases hcolon : 0x3A ∈ tail
    · obtain ⟨name, port, rfl, hname⟩ := List.eq_append_cons_of_mem hcolon
      have hport : 0x3A ∉ port := by
        rw [List.count_append, List.count_cons_self] at hone
        exact List.count_eq_zero.1 (by omega)
      refine ⟨user, front ++ name, some port, by simpa [hostWithPort] using hbytes, by simpa [hostWithPort] using hat,
        hfront.append hname, ?_⟩
      rintro p hp
      obtain rfl := Option.some.inj hp
      exact ⟨hport, fun hmem => htail (by simp [hmem])⟩
    · exact ⟨user, front ++ tail, none, by simpa [hostWithPort] using hbytes, by simpa [hostWithPort] using hat,
        hfront.append hcolon, by simp⟩

/-- No blank stands in an authority, so it is a single word. -/
theorem collapse_bytes (a : Authority) : collapse a.bytes = a.bytes := by
  have hsplit : a.bytes.splitOnP FieldValue.isPadding = [a.bytes] := by
    apply List.splitOnP_eq_singleton
    intro b hb
    exact (value_of_mem hb).2.2
  have hne : a.bytes ≠ [] := by
    intro h
    have hv := a.valid
    rw [h] at hv
    cases hv
  rw [collapse, words, hsplit]
  simp [hne]

end Http.Authority

/-! ## The host field -/

namespace Signer

variable {st : Step} {r : Request}

/-- The authority is signed and sent as it is. -/
theorem host_attempt (hfault : (st.attempt r).fault = none) (hhost : r.header.values .host = []) :
    ∃ a text, r.uri.authority? = some a ∧ (st.attempt r).canonicalRequest = some text ∧
      utf8 "host:" ++ a.bytes ∈ fieldsIn text ∧
      ((st.attempt r).request.header.values .host).map (·.bytes) = [a.bytes] := by
  rcases st.attempt_cases r with heq | ⟨f, heq⟩
  · rw [heq] at hfault ⊢
    obtain ⟨taken, prepared, text, sent, hsigned, hsent, -, -⟩ := Mandate.sign_ok hfault
    obtain ⟨-, huri, hvalues⟩ := st.handed_rest r
    obtain ⟨-, -, hauthority⟩ := SigningRequest.place_of_ofRequest? hsigned.taken_eq
    have hkept := hsigned.keeps.host ((hvalues .host (by decide)).trans hhost)
    rw [hauthority, ← hsent] at hkept
    obtain ⟨-, -, hname, text', htext, hfields, -⟩ := hsigned.covers
    have hrow : fieldRow (st.mandate.sign (st.handed r)).request.header .host = utf8 "host:" ++ taken.authority.bytes := by
      have hprefix : utf8 "host:" = FieldName.host.bytes ++ [0x3A] := by decide
      rw [fieldRow, fieldText_of_values hkept, Authority.collapse_bytes, hprefix, List.append_assoc]
      rfl
    refine ⟨taken.authority, text', huri ▸ hauthority, htext, ?_, hkept⟩
    rw [hfields, ← hrow]
    exact List.mem_map_of_mem hname
  · rw [heq] at hfault
    cases hfault

/-- A request without a host field is sent with one that is the whole authority: without a user it is the host and
the port, and a user part stands in front of them. -/
theorem inserted_host (hfault : (st.attempt r).fault = none) (hhost : r.header.values .host = []) :
    ∃ a text, r.uri.authority? = some a ∧ (st.attempt r).canonicalRequest = some text ∧
      (∃ user host port, a.Spells user host port) ∧
      ∀ user host port, a.Spells user host port →
        ((st.attempt r).request.header.values .host).map (·.bytes) =
          [Authority.userPart user ++ Authority.hostWithPort host port] ∧
        utf8 "host:" ++ Authority.userPart user ++ Authority.hostWithPort host port ∈ fieldsIn text ∧
        (((st.attempt r).request.header.values .host).map (·.bytes) = [Authority.hostWithPort host port] ↔
          user = none) := by
  obtain ⟨a, text, ha, htext, hsigned, hsent⟩ := host_attempt hfault hhost
  refine ⟨a, text, ha, htext, a.exists_spells, ?_⟩
  intro user host port hspells
  rw [hsent, hspells.bytes_eq]
  refine ⟨rfl, ?_, ?_⟩
  · rw [List.append_assoc, ← hspells.bytes_eq]
    exact hsigned
  · rw [List.singleton_inj, List.append_left_eq_self]
    cases user with
    | none => exact iff_of_true rfl rfl
    | some name => exact iff_of_false (by simp [Authority.userPart]) (by simp)

/-- A request for the root of a server. -/
def addressed (a : Authority) : Request := ⟨.get, .full .https a .root, {}⟩

/-- An address in brackets, with a port. -/
def loopback : Authority := ⟨utf8 "[::1]:8443", by decide +kernel⟩

theorem inserted_host_loopback :
    ((Step.presign longTerm morning 60000000000).attempt (addressed loopback)).fault = none ∧
      (addressed loopback).header.values .host = [] ∧
      loopback.Spells none (utf8 "[::1]") (some (utf8 "8443")) ∧
      (((Step.presign longTerm morning 60000000000).attempt (addressed loopback)).request.header.values .host).map
        (·.bytes) = [utf8 "[::1]:8443"] := by
  have hfault : ((Step.presign longTerm morning 60000000000).attempt (addressed loopback)).fault = none :=
    presign_of_isReady (by decide) (by decide +kernel)
  have hspells : loopback.Spells none (utf8 "[::1]") (some (utf8 "8443")) := by
    refine ⟨by decide, by decide, ?_, ?_⟩
    · have hclosed : utf8 "[::1]" = utf8 "[::1" ++ [0x5D] := by decide
      exact hclosed ▸ Authority.bracketed_concat _
    · rintro p hp
      obtain rfl := Option.some.inj hp
      decide
  obtain ⟨a, text, ha, -, -, h⟩ := inserted_host hfault rfl
  obtain rfl := Option.some.inj ha
  exact ⟨hfault, rfl, hspells, (h _ _ _ hspells).2.2.2 rfl⟩

/-- A server with the user and the password in front. -/
def guarded : Authority := ⟨utf8 "user:pw@example.com", by decide +kernel⟩

/-- The password is sent in the host field. -/
theorem host_shows_user :
    guarded.Spells (some (utf8 "user:pw")) (utf8 "example.com") none ∧ (addressed guarded).header.values .host = [] ∧
      ((Step.sign longTerm morning []).attempt (addressed guarded)).fault = none ∧
      (((Step.sign longTerm morning []).attempt (addressed guarded)).request.header.values .host).map (·.bytes) =
        [utf8 "user:pw@example.com"] ∧
      (((Step.sign longTerm morning []).attempt (addressed guarded)).request.header.values .host).map (·.bytes) ≠
        [Authority.hostWithPort (utf8 "example.com") none] := by
  have hfault : ((Step.sign longTerm morning []).attempt (addressed guarded)).fault = none :=
    sign_of_isReady (by decide +kernel)
  have hspells : guarded.Spells (some (utf8 "user:pw")) (utf8 "example.com") none := by
    have hname : 0x3A ∉ utf8 "example.com" := by decide
    refine ⟨by decide, by decide, fun front back e => ?_, by simp⟩
    exact absurd (e ▸ List.mem_append_right _ List.mem_cons_self) hname
  obtain ⟨a, -, ha, -, -, hsent⟩ := host_attempt hfault rfl
  obtain rfl := Option.some.inj ha
  refine ⟨hspells, rfl, hfault, hsent, ?_⟩
  rw [hsent]
  decide

end Signer

end SigV4
