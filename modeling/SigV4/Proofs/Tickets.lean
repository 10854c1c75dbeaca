import SigV4.Proofs.Coverage
import SigV4.Proofs.History
/-!
# One ticket in a text

An `authorization` field spells out who signed, for what, which fields, and the signature. The access
key stands first and may be any text that a field admits, even one that looks like the rest. The rest
has neither commas nor slashes of its own, so a text spells out one ticket.
-/

namespace SigV4

open Http Canonical

/-! ## Spelling a ticket -/

namespace Verifier

/-- The text of a ticket. Nothing is asked of the access key. -/
structure Ticket.Spells (t : Ticket) (text : Bytes) : Prop where
  text_eq : text = algorithm ++ utf8 " Credential=" ++ (t.issuer.accessKeyId ++ 0x2F :: t.issuer.scope) ++
    utf8 ", SignedHeaders=" ++ Bytes.join [0x3B] t.names ++ utf8 ", Signature=" ++ t.signature
  date : (0x2F : UInt8) ∉ t.issuer.date
  region : (0x2F : UInt8) ∉ t.issuer.region
  service : (0x2F : UInt8) ∉ t.issuer.service
  names_ne_nil : t.names ≠ []
  names : ∀ n ∈ t.names, (0x2C : UInt8) ∉ n ∧ (0x3B : UInt8) ∉ n
  signature : (0x2C : UInt8) ∉ t.signature

variable {t t' : Ticket} {text : Bytes}

theorem Ticket.Spells.read?_eq (h : t.Spells text) : Ticket.read? text = some t := by
  rw [h.text_eq]
  exact read?_parts (Issuer.read?_eq h.date h.region h.service) h.names_ne_nil h.names h.signature

theorem Ticket.Spells.unique (h : t.Spells text) (h' : t'.Spells text) : t = t' := by
  have heq := h.read?_eq
  rw [h'.read?_eq] at heq
  exact (Option.some.inj heq).symm

theorem Ticket.spells_authorizationText {m : Mandate} {names : List FieldName} {sig : Bytes}
    (hr : Region.isValid m.scope.region = true) (hs : (0x2F : UInt8) ∉ utf8 m.scope.service) (hn : names ≠ [])
    (hsig : (0x2C : UInt8) ∉ sig) :
    Spells ⟨issuerOf m, names.map (·.bytes), sig⟩ (m.authorizationText names sig) := by
  refine ⟨rfl, slash_notMem fun _ => isScopeChar_of_formatDate, slash_notMem (isScopeChar_of_region hr), hs, ?_,
    notMem_names, hsig⟩
  simpa using hn

end Verifier

/-- The date is the part of the stamp in front of its `T`. -/
theorem Scope.takeWhile_stamp (s : Scope) : s.stamp.takeWhile (· ≠ 0x54) = s.date := by
  have hdate : ∀ b ∈ s.date, decide (b ≠ 0x54) = true := by
    intro b hb
    have ht : (0x54 : UInt8) ∉ s.date := Verifier.notMem_of_isScopeChar (fun _ => Verifier.isScopeChar_of_formatDate)
      (by decide)
    exact decide_eq_true fun e => ht (e ▸ hb)
  have hsplit : s.stamp = s.date ++ 0x54 :: utf8 (s.time.clockText "" ++ "Z") := by
    have hmark : utf8 "T" = [0x54] := by decide
    rw [stamp, Time.formatIso8601, utf8_append, utf8_append, utf8_append, hmark, utf8_append]
    simp [date, Time.formatDate]
  rw [hsplit, List.takeWhile_append_of_pos hdate, List.takeWhile_cons_of_neg (by decide), List.append_nil]

namespace Signer

open Verifier

/-- Who signs at a time, with the names and the signature of a text. -/
def ticket (s : Signer) (now : Time) (names : List FieldName) (text : Bytes) : Ticket :=
  ⟨⟨utf8 s.credential.accessKeyId, utf8 (s.time.getD now).formatDate, utf8 s.region, utf8 service⟩, names.map (·.bytes),
    (s.scope now).signature s.credential.secretAccessKey ((s.scope now).stringToSign text)⟩

/-- A successful signature in the header sends one `authorization`, which spells out its ticket. -/
theorem spells_sent {s : Signer} {now : Time} {r : Request} {body : Bytes} (h : (s.sign now r body).fault = none) :
    ∃ names text v, Covers (s.sign now r body) names ∧ (s.sign now r body).canonicalRequest = some text ∧
      (s.sign now r body).request.header.values .authorization = [v] ∧ (s.ticket now names text).Spells v.bytes := by
  obtain ⟨-, taken, prepared, text, -, -, hsigned, htext, -, -⟩ := signed_of_sign h
  obtain ⟨v, hv, hback⟩ := hsigned.sent_header rfl
  have hcovers : Covers (s.sign now r body) (signedNames prepared.header) := hsigned.covers
  have hservice : (0x2F : UInt8) ∉ utf8 service := by decide
  have hsig : (0x2C : UInt8) ∉ (s.scope now).signature s.credential.secretAccessKey ((s.scope now).stringToSign text) :=
    Hex.notMem_encode (by decide) _
  have hspells := Ticket.spells_authorizationText (m := ⟨s.credential, s.scope now, .header⟩) s.region_valid hservice
    (Mandate.signedNames_ne_nil hsigned.prepared_eq) hsig
  refine ⟨_, text, v, hcovers, htext, ?_, ?_⟩
  · rw [← SigningRequest.header_of_ofRequest? hback, Header.values_set, if_pos rfl]
  · rw [hv]
    exact hspells

/-- The stamp is sent, and the date of the scope is the part of it in front of the `T`. -/
theorem date_sent {s : Signer} {now : Time} {r : Request} {body : Bytes} (h : (s.sign now r body).fault = none) :
    ∃ d, (s.sign now r body).request.header.values .amzDate = [d] ∧
      d.bytes.takeWhile (· ≠ 0x54) = utf8 (s.time.getD now).formatDate := by
  obtain ⟨-, taken, prepared, text, -, -, hsigned, -⟩ := signed_of_sign h
  have hstamp : ((s.sign now r body).request.header.values .amzDate).map (·.bytes) = [(s.scope now).stamp] :=
    hsigned.keeps.written (.amzDate, [(s.scope now).stamp]) (by simp [Mandate.fresh])
  obtain ⟨d, hd, hbytes⟩ := List.map_eq_singleton_iff.1 hstamp
  exact ⟨d, hd, hbytes ▸ (s.scope now).takeWhile_stamp⟩

theorem ticket_inj {s s' : Signer} {now now' : Time} {names names' : List FieldName} {text text' : Bytes}
    (h : s.ticket now names text = s'.ticket now' names' text') :
    s.credential.accessKeyId = s'.credential.accessKeyId ∧
      (s.time.getD now).formatDate = (s'.time.getD now').formatDate ∧ s.region = s'.region ∧ names = names' := by
  have hissuer := congrArg Ticket.issuer h
  have hnames : names.map (·.bytes) = names'.map (·.bytes) := congrArg Ticket.names h
  simp only [ticket, Issuer.mk.injEq, Utf8.utf8_inj, and_true] at hissuer
  obtain ⟨hkey, hdate, hregion⟩ := hissuer
  exact ⟨hkey, hdate, hregion, List.map_injective_iff.2 (fun _ _ => FieldName.ext_bytes) hnames⟩

/-- What is sent in the header is read in one way only, whatever the access key looks like: as the key, date,
region and service that signed, the names that are covered and the signature of the text. Another call that sends
the same has signed with the same ones. -/
theorem authorization_unambiguous {s : Signer} {now : Time} {r : Request} {body : Bytes}
    (h : (s.sign now r body).fault = none) :
    ∃ names text v d, Covers (s.sign now r body) names ∧ (s.sign now r body).canonicalRequest = some text ∧
      (s.sign now r body).request.header.values .authorization = [v] ∧
      (∀ t : Ticket, t.Spells v.bytes ↔ t = s.ticket now names text) ∧
      Ticket.read? v.bytes = some (s.ticket now names text) ∧ (s.ticket now names text).signature.length = 64 ∧
      -- the date
      (s.sign now r body).request.header.values .amzDate = [d] ∧
      d.bytes.takeWhile (· ≠ 0x54) = (s.ticket now names text).issuer.date ∧
      -- other calls
      ∀ s' now' r' body', (sign s' now' r' body').fault = none →
        (sign s' now' r' body').request.header.values .authorization = [v] →
        s'.credential.accessKeyId = s.credential.accessKeyId ∧
          (s'.time.getD now').formatDate = (s.time.getD now).formatDate ∧ s'.region = s.region ∧
          Covers (sign s' now' r' body') names ∧
          ∃ text', (sign s' now' r' body').canonicalRequest = some text' ∧
            s'.ticket now' names text' = s.ticket now names text := by
  obtain ⟨names, text, v, hcovers, htext, hv, hspells⟩ := spells_sent h
  obtain ⟨d, hd, hdate⟩ := date_sent h
  refine ⟨names, text, v, d, hcovers, htext, hv, ?_, hspells.read?_eq, Mandate.length_signature _ _ _, hd, hdate, ?_⟩
  · exact fun t => ⟨fun ht => ht.unique hspells, fun e => e ▸ hspells⟩
  · intro s' now' r' body' h' hsame
    obtain ⟨names', text', v', hcovers', htext', hv', hspells'⟩ := spells_sent h'
    rw [hv'] at hsame
    obtain rfl := (List.cons.inj hsame).1
    have hticket := hspells'.unique hspells
    obtain ⟨hkey, hformat, hregion, rfl⟩ := ticket_inj hticket
    exact ⟨hkey, hformat, hregion, hcovers', text', htext', hticket⟩

/-- A signer whose access key looks like a whole ticket. -/
def disguised : Signer :=
  { longTerm with
    credential := {
      accessKeyId := "AKID/20000101/us-east-1/s3/aws4_request, SignedHeaders=host;a, Signature=0, b=,"
      secretAccessKey := "secret" }
    keys := rfl }

theorem authorization_unambiguous_disguised : (disguised.sign morning plain []).fault = none ∧
    ∃ v t, (disguised.sign morning plain []).request.header.values .authorization = [v] ∧
      Ticket.read? v.bytes = some t ∧ t.issuer.accessKeyId = utf8 disguised.credential.accessKeyId ∧
      t.issuer.date = utf8 "20240501" ∧ t.issuer.region = utf8 "eu-west-1" ∧ ∀ u : Ticket, u.Spells v.bytes → u = t := by
  have h : (disguised.sign morning plain []).fault = none := sign_of_isReady (by decide +kernel)
  obtain ⟨names, text, v, d, -, -, hv, hone, hread, -⟩ := authorization_unambiguous h
  have hdate : morning.formatDate = "20240501" := by decide +kernel
  exact ⟨h, v, _, hv, hread, rfl, congrArg utf8 hdate, rfl, fun u hu => (hone u).1 hu⟩

end Signer

end SigV4
