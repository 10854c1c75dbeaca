import Mathlib.Data.List.TakeWhile
import SigV4.Http.Uri
/-!
# URIs with a server

A URI that starts with a scheme names its server up to the first slash, question mark or number sign.
`Written` takes a text apart in that way; what is read from such a text has just this server, and whatever has
a scheme was read from such a text.
-/

namespace SigV4.Http

/-! ## Schemes -/

theorem Scheme.split?_eq_some {bs scheme rest : Bytes} :
    split? bs = some (scheme, rest) ↔ scheme.all isSchemeByte = true ∧ bs = scheme ++ (utf8 "://" ++ rest) := by
  have hmark : utf8 "://" = [0x3A, 0x2F, 0x2F] := by decide
  have hcolon : isSchemeByte 0x3A = false := by decide
  rw [hmark]
  unfold split?
  constructor
  · intro h
    split at h
    · rename_i rest' hdrop
      obtain ⟨rfl, rfl⟩ := Prod.mk.inj (Option.some.inj h)
      have hparts := List.takeWhile_append_dropWhile (p := isSchemeByte) (l := bs)
      rw [hdrop] at hparts
      exact ⟨List.all_takeWhile, hparts.symm⟩
    · cases h
  · rintro ⟨hall, rfl⟩
    rw [List.takeWhile_append_of_pos (List.all_eq_true.1 hall), List.dropWhile_append_of_pos (List.all_eq_true.1 hall)]
    simp [hcolon]

/-! ## Servers -/

theorem Authority.bytes_of_ofBytes? {bs : Bytes} {a : Authority} (h : ofBytes? bs = some a) : a.bytes = bs := by
  unfold ofBytes? at h
  split at h
  · rw [← Option.some.inj h]
  · cases h

namespace Uri

/-- A text taken apart into the name of a scheme, a server and what follows it. -/
structure Written (bs scheme server tail : Bytes) : Prop where
  bytes : bs = scheme ++ (utf8 "://" ++ (server ++ tail))
  scheme : scheme.all Scheme.isSchemeByte = true
  server : ∀ b ∈ server, endsAuthority b = false
  tail : tail.head?.all endsAuthority = true

variable {bs scheme server tail rest : Bytes} {uri : Uri} {s : Scheme} {a : Authority} {t : Target}

/-- The server is what comes before the first byte that ends it. -/
theorem written_split (rest : Bytes) (h : scheme.all Scheme.isSchemeByte = true) :
    Written (scheme ++ (utf8 "://" ++ rest)) scheme (rest.takeWhile (!endsAuthority ·))
      (rest.dropWhile (!endsAuthority ·)) := by
  refine ⟨by rw [List.takeWhile_append_dropWhile], h, ?_, ?_⟩
  · intro b hb
    simpa using List.mem_takeWhile_imp hb
  · have hnot := List.head?_dropWhile_not (!endsAuthority ·) rest
    cases hb : (rest.dropWhile (!endsAuthority ·)).head? with
    | none => rfl
    | some b => simpa [hb] using hnot

theorem Written.server_eq (h : Written bs scheme server tail) :
    (server ++ tail).takeWhile (!endsAuthority ·) = server := by
  have hserver : ∀ b ∈ server, (!endsAuthority b) = true := by simpa using h.server
  have htail := h.tail
  rw [List.takeWhile_append_of_pos hserver]
  cases tail with
  | nil => simp
  | cons b tail => simp_all

theorem Written.tail_eq (h : Written bs scheme server tail) : (server ++ tail).dropWhile (!endsAuthority ·) = tail := by
  have hserver : ∀ b ∈ server, (!endsAuthority b) = true := by simpa using h.server
  have htail := h.tail
  rw [List.dropWhile_append_of_pos hserver]
  cases tail with
  | nil => rfl
  | cons b tail => simp_all

theorem readFull?_eq_some : readFull? scheme rest = some uri ↔ scheme.length ≤ Scheme.longest ∧
    ∃ a t, Authority.ofBytes? (rest.takeWhile (!endsAuthority ·)) = some a ∧
      Target.read (rest.dropWhile (!endsAuthority ·)) = .ok t ∧ uri = .full (.ofName scheme) a t := by
  unfold readFull?
  split
  · rename_i hlong
    simp [Nat.not_le.2 hlong]
  · rename_i hlong
    simp only [Nat.not_lt.1 hlong, true_and, Option.bind_eq_bind, Option.bind_eq_some_iff]
    refine exists_congr fun a => ?_
    cases ht : Target.read (rest.dropWhile (!endsAuthority ·)) with
    | error f => simp
    | ok t => simp [eq_comm]

/-- Neither an asterisk nor a path starts with a scheme. -/
theorem Written.read?_eq (h : Written bs scheme server tail) :
    read? bs = if longestUri < bs.length then Option.none else readFull? scheme (server ++ tail) := by
  have hmark : utf8 "://" = [0x3A, 0x2F, 0x2F] := by decide
  have hstar : ¬ bs = utf8 "*" := by
    intro e
    have hlen := congrArg List.length (h.bytes.symm.trans e)
    have hone : (utf8 "*").length = 1 := by decide
    rw [hone, hmark] at hlen
    simp only [List.length_append, List.length_cons, List.length_nil] at hlen
    omega
  have hslash : ¬ bs.head? = some 0x2F := by
    have hscheme := h.scheme
    rw [h.bytes, hmark]
    cases scheme with
    | nil => simp
    | cons b scheme =>
      intro e
      obtain rfl := Option.some.inj e
      simp [show Scheme.isSchemeByte 0x2F = false from by decide] at hscheme
  rw [read?, if_neg hstar, if_neg hslash, Scheme.split?_eq_some.2 ⟨h.scheme, h.bytes⟩]

/-- A text with a scheme is read as its server and what follows, if it is read at all. -/
theorem Written.read?_eq_some (h : Written bs scheme server tail) (hr : read? bs = some uri) :
    ∃ a t, uri = .full (.ofName scheme) a t ∧ a.bytes = server ∧ Target.read tail = .ok t := by
  rw [h.read?_eq] at hr
  split at hr
  · cases hr
  · obtain ⟨-, a, t, ha, ht, rfl⟩ := readFull?_eq_some.1 hr
    rw [h.server_eq] at ha
    rw [h.tail_eq] at ht
    exact ⟨a, t, rfl, Authority.bytes_of_ofBytes? ha, ht⟩

/-- What stands between the scheme and the first slash is the server. -/
theorem read?_https {host : Bytes} (h : ∀ b ∈ host, endsAuthority b = false)
    (hr : read? (utf8 "https://" ++ (host ++ 0x2F :: rest)) = some uri) :
    ∃ a t, uri = .full .https a t ∧ a.bytes = host ∧ Target.read (0x2F :: rest) = .ok t := by
  have hmark : utf8 "https://" = utf8 "https" ++ utf8 "://" := by decide
  have hname : Scheme.ofName (utf8 "https") = .https := by decide
  have hwritten : Written (utf8 "https://" ++ (host ++ 0x2F :: rest)) (utf8 "https") host (0x2F :: rest) :=
    ⟨by rw [hmark, List.append_assoc], by decide, h, rfl⟩
  obtain ⟨a, t, rfl, ha, ht⟩ := hwritten.read?_eq_some hr
  exact ⟨a, t, by rw [hname], ha, ht⟩

/-- What has a scheme was read from a text with a scheme. -/
theorem written_of_read? (h : read? bs = some (.full s a t)) :
    ∃ scheme tail, Written bs scheme a.bytes tail ∧ s = .ofName scheme ∧ Target.read tail = .ok t := by
  unfold read? at h
  split at h
  · cases h
  split at h
  · cases h
  split at h
  · split at h <;> cases h
  split at h
  · rename_i scheme rest hsplit
    obtain ⟨hscheme, rfl⟩ := Scheme.split?_eq_some.1 hsplit
    obtain ⟨-, a', t', ha, ht, hfull⟩ := readFull?_eq_some.1 h
    cases hfull
    have hserver := Authority.bytes_of_ofBytes? ha
    exact ⟨scheme, _, hserver ▸ written_split _ hscheme, rfl, ht⟩
  · obtain ⟨a', -, h⟩ := Option.map_eq_some_iff.1 h
    cases h

end Uri

end SigV4.Http
