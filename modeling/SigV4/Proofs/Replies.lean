import SigV4.Proofs.Hops
import SigV4.Proofs.Text
/-!
# What a reply is believed to hold

The token service is believed when it says 200 and gives two keys and an expiry. Whether a key is there is asked
before the blanks around it are taken off, so a key of nothing but blanks counts as one and ends up empty. All other
replies without keys are errors, and unexpected ones.
-/

namespace SigV4

theorem Xml.read?_ofList (cs : List Char) : read? (String.ofList cs) =
    (root? [] (tokens (if cs.head? = some (Char.ofNat 0xFEFF) then cs.tail else cs))).filter Node.isLawful := by
  rw [read?, String.toList_ofList]

namespace Sts

open Resolve

variable {w : World} {before after : List Call} {c : Credential} {x : Exchange} {q : Http.Request} {r : Http.Response}

/-! ## Grants -/

namespace Grant

variable {g : Grant} {t : Time}

theorem hasKeys_iff : g.hasKeys = true ↔ g.accessKeyId ≠ "" ∧ g.secretAccessKey ≠ "" := by
  simp [hasKeys]

/-- One of the keys has nothing in it, or nothing but blanks. -/
def LacksKey (g : Grant) : Prop :=
  Text.isBlankText g.accessKeyId = true ∨ Text.isBlankText g.secretAccessKey = true

/-- One of the keys has nothing but blanks, and none has nothing in it. -/
def HidesBlank (g : Grant) : Prop := g.hasKeys = true ∧ g.LacksKey

instance : Decidable g.LacksKey := inferInstanceAs (Decidable (_ ∨ _))

instance : Decidable g.HidesBlank := inferInstanceAs (Decidable (_ ∧ _))

/-- When the credential of the grant expires. -/
def expiry? (g : Grant) : Option Time := Rfc3339.read? (Text.trim g.expiration)

/-- The texts of the grant without the blanks around them. -/
def trimmed (g : Grant) (t : Time) : Credential :=
  ⟨Text.trim g.accessKeyId, Text.trim g.secretAccessKey, Text.nonEmpty? (Text.trim g.sessionToken), some t⟩

theorem hasKeys_trimmed : (g.trimmed t).hasKeys = true ↔ ¬ g.LacksKey := by
  rw [Credential.hasKeys_iff, LacksKey, not_or]
  exact and_congr (not_congr Text.trim_eq_empty) (not_congr Text.trim_eq_empty)

theorem hasKeys_of_not_lacksKey (h : ¬ g.LacksKey) : g.hasKeys = true := by
  have hempty : Text.isBlankText "" = true := rfl
  refine hasKeys_iff.2 ⟨fun hk => h (.inl ?_), fun hk => h (.inr ?_)⟩
  · rw [hk, hempty]
  · rw [hk, hempty]

theorem credential_of_expiry (h : g.expiry? = some t) : g.credential = .ok (g.trimmed t) := by
  unfold credential Rfc3339.parse
  rw [show Rfc3339.read? (Text.trim g.expiration) = some t from h]
  rfl

theorem credential_of_no_expiry (h : g.expiry? = none) : g.credential =
    .error ⟨.unexpected, "failed to parse rfc3339 time", [s!"value: {Text.trim g.expiration}"], none⟩ := by
  unfold credential Rfc3339.parse
  rw [show Rfc3339.read? (Text.trim g.expiration) = none from h]
  rfl

end Grant

/-! ## Replies -/

namespace Exchange

theorem accept_of_read {g : Grant} (hstatus : r.status = .ok) (hg : Grant.read? r.text = some g) :
    x.accept r = if g.hasKeys then g.credential else .error x.noCredentials := by
  unfold accept
  rw [if_neg (not_not.2 hstatus)]
  simp only [hg]

/-- What is believed: two keys, which are looked at with the blanks around them, and an expiry. -/
theorem accept_eq_ok_iff : x.accept r = .ok c ↔ r.status = .ok ∧ ∃ g t, Grant.read? r.text = some g ∧
    g.hasKeys = true ∧ g.expiry? = some t ∧ c = g.trimmed t := by
  constructor
  · intro h
    obtain ⟨hstatus, g, hg, hkeys, hc⟩ := accept_eq_ok h
    cases ht : g.expiry? with
    | none =>
      rw [Grant.credential_of_no_expiry ht] at hc
      cases hc
    | some t =>
      rw [Grant.credential_of_expiry ht] at hc
      exact ⟨hstatus, g, t, hg, hkeys, ht, (Except.ok.inj hc).symm⟩
  · rintro ⟨hstatus, g, t, hg, hkeys, ht, rfl⟩
    rw [accept_of_read hstatus hg, if_pos hkeys, Grant.credential_of_expiry ht]

/-- Whatever is wrong with a grant is unexpected. -/
theorem kind_of_accept_error {g : Grant} {e : Error} (hstatus : r.status = .ok) (hg : Grant.read? r.text = some g)
    (h : x.accept r = .error e) : e.kind = .unexpected := by
  rw [accept_of_read hstatus hg] at h
  split at h
  · cases ht : g.expiry? with
    | none =>
      rw [Grant.credential_of_no_expiry ht] at h
      rw [← Except.error.inj h]
    | some t =>
      rw [Grant.credential_of_expiry ht] at h
      cases h
  · rw [← Except.error.inj h]
    rfl

/-! ## Exchanges -/

/-- The exchange sends a request, and this is the reply to it. -/
def Gets (x : Exchange) (w : World) (before : List Call) (q : Http.Request) (r : Http.Response) : Prop :=
  x.request w.now = .ok q ∧ w.reply? before q = some r

theorem Gets.run_eq (h : x.Gets w before q r) : x.run.run w before = (x.accept r, before ++ [.http q []]) := by
  obtain ⟨answer, hw, hr⟩ := World.reply?_eq_some.1 h.2
  rw [run_sent h.1 hw, hr]
  rfl

/-- No credential without a reply. -/
theorem run_eq_ok_iff : x.run.run w before = (.ok c, after) ↔
    ∃ q r, x.Gets w before q r ∧ x.accept r = .ok c ∧ after = before ++ [.http q []] := by
  constructor
  · intro h
    unfold run at h
    simp only [run_bind_eq_ok, run_mapError_eq_ok, run_send_eq_ok, run_lift_eq_ok] at h
    obtain ⟨now, _, hnow, q, _, ⟨hq, rfl⟩, reply, _, ⟨answer, hw, hanswer, rfl⟩, haccept, rfl⟩ := h
    cases hnow
    exact ⟨q, reply, ⟨hq, World.reply?_eq_some.2 ⟨answer, hw, hanswer⟩⟩, haccept, rfl⟩
  · rintro ⟨q, r, hgets, haccept, rfl⟩
    rw [hgets.run_eq, haccept]

/-- An exchange that succeeds was answered with 200 and a grant, and its credential has both keys unless one key of the
grant is made of blanks and none is empty. A grant without keys is an unexpected error with the same exception, where
there is one only if the expiry cannot be read. With keys and an expiry there is a credential. -/
theorem reply_keys (x : Exchange) (w : World) (before : List Call) :
    (∀ c after, x.run.run w before = (.ok c, after) → ∃ q r g, x.Gets w before q r ∧ r.status = .ok ∧
      Grant.read? r.text = some g ∧ (c.hasKeys = true ↔ ¬ g.HidesBlank)) ∧
    ∀ q r g, x.Gets w before q r → r.status = .ok → Grant.read? r.text = some g →
      (g.LacksKey → ((∃ e, x.run.run w before = (.error e, before ++ [.http q []]) ∧ e.kind = .unexpected) ↔
        ¬ (g.HidesBlank ∧ g.expiry?.isSome))) ∧
      (¬ g.LacksKey → ∀ t, g.expiry? = some t →
        x.run.run w before = (.ok (g.trimmed t), before ++ [.http q []]) ∧ (g.trimmed t).hasKeys = true) := by
  refine ⟨?_, ?_⟩
  · intro c after h
    obtain ⟨q, r, hgets, haccept, -⟩ := run_eq_ok_iff.1 h
    obtain ⟨hstatus, g, t, hg, hkeys, -, rfl⟩ := accept_eq_ok_iff.1 haccept
    refine ⟨q, r, g, hgets, hstatus, hg, ?_⟩
    rw [Grant.hasKeys_trimmed, Grant.HidesBlank, and_iff_right hkeys]
  · intro q r g hgets hstatus hg
    rw [hgets.run_eq]
    refine ⟨fun hlacks => ?_, fun hlacks t ht => ⟨?_, Grant.hasKeys_trimmed.2 hlacks⟩⟩
    · rw [Grant.HidesBlank, and_iff_left hlacks]
      constructor
      · rintro ⟨e, he, -⟩ ⟨hkeys, ht⟩
        obtain ⟨t, ht⟩ := Option.isSome_iff_exists.1 ht
        rw [accept_eq_ok_iff.2 ⟨hstatus, g, t, hg, hkeys, ht, rfl⟩] at he
        cases he
      · intro hnot
        cases haccept : x.accept r with
        | error e => exact ⟨e, rfl, kind_of_accept_error hstatus hg haccept⟩
        | ok c =>
          obtain ⟨-, g', t, hg', hkeys, ht, -⟩ := accept_eq_ok_iff.1 haccept
          obtain rfl := Option.some.inj (hg.symm.trans hg')
          exact absurd ⟨hkeys, by rw [ht]; rfl⟩ hnot
    · rw [accept_eq_ok_iff.2 ⟨hstatus, g, t, hg, Grant.hasKeys_of_not_lacksKey hlacks, ht, rfl⟩]

/-! ## Some replies -/

def element (name : String) (inside : Bytes) : Bytes :=
  utf8 "<" ++ utf8 name ++ utf8 ">" ++ inside ++ utf8 "</" ++ utf8 name ++ utf8 ">"

/-- A reply to a web identity, whose credential expires at the start of 2030. -/
def replyWith (key secret : String) : Http.Response :=
  ⟨.ok, element "R" (element "AssumeRoleWithWebIdentityResult" (element "Credentials"
    (element "AccessKeyId" (utf8 key) ++ element "SecretAccessKey" (utf8 secret) ++
      element "SessionToken" (utf8 "t") ++ element "Expiration" (utf8 "2030-01-01T00:00:00Z"))))⟩

/-- A world in which every request gets one reply. -/
def worldOf (r : Http.Response) : World := { now := ⟨0, 0⟩, http := some fun _ _ _ => .ok r }

/-- A web identity at the global host. -/
def identity : Exchange := Source.WebIdentity.exchange (.global false) "arn" "s" "t"

theorem gets_worldOf (r : Http.Response) : ∃ q, identity.Gets (worldOf r) [] q r := by
  have hbuilt : identity.unsigned?.isSome = true := by decide +kernel
  obtain ⟨q, hq⟩ := Option.isSome_iff_exists.1 hbuilt
  refine ⟨q, ?_, rfl⟩
  unfold request
  rw [hq]
  rfl

/-- What a reply to a web identity grants. -/
def granted (key secret : String) : Grant := ⟨key, secret, "t", "2030-01-01T00:00:00Z"⟩

theorem expiry_granted (key secret : String) : (granted key secret).expiry? = some ⟨1893456000, 0⟩ := by
  have h : Rfc3339.read? (Text.trim "2030-01-01T00:00:00Z") = some ⟨1893456000, 0⟩ := by decide +kernel
  exact h

/-- Blanks around a key are taken off, and a blank key beside an empty one is an error. -/
theorem reply_keys_padded :
    (∃ calls, identity.run.run (worldOf (replyWith "&#160;AKID" "<![CDATA[secret ]]>")) [] =
      (.ok ⟨"AKID", "secret", some "t", some ⟨1893456000, 0⟩⟩, calls)) ∧
    ∃ e calls, identity.run.run (worldOf (replyWith "<![CDATA[ ]]>" "")) [] = (.error e, calls) ∧
      e.kind = .unexpected := by
  constructor
  · obtain ⟨q, hgets⟩ := gets_worldOf (replyWith "&#160;AKID" "<![CDATA[secret ]]>")
    have hg : Grant.read? (replyWith "&#160;AKID" "<![CDATA[secret ]]>").text =
        some (granted "\u00a0AKID" "secret ") := by
      rw [Grant.read?, Http.Response.text, Utf8.decodeLossy, Xml.read?_ofList]
      decide +kernel
    obtain ⟨hrun, -⟩ := ((reply_keys identity _ []).2 q _ _ hgets rfl hg).2 (by decide) _ (expiry_granted _ _)
    exact ⟨_, hrun⟩
  · obtain ⟨q, hgets⟩ := gets_worldOf (replyWith "<![CDATA[ ]]>" "")
    have hg : Grant.read? (replyWith "<![CDATA[ ]]>" "").text = some (granted " " "") := by
      rw [Grant.read?, Http.Response.text, Utf8.decodeLossy, Xml.read?_ofList]
      decide +kernel
    obtain ⟨e, hrun, hkind⟩ := (((reply_keys identity _ []).2 q _ _ hgets rfl hg).1 (by decide)).2 (by decide)
    exact ⟨e, _, hrun, hkind⟩

/-- Keys of one blank each are believed, and the credential has two empty ones. -/
theorem blank_keys_believed : ∃ calls, identity.run.run (worldOf (replyWith "&#32;" "&#32;")) [] =
    (.ok ⟨"", "", some "t", some ⟨1893456000, 0⟩⟩, calls) := by
  obtain ⟨q, hgets⟩ := gets_worldOf (replyWith "&#32;" "&#32;")
  have hg : Grant.read? (replyWith "&#32;" "&#32;").text = some (granted " " " ") := by
    rw [Grant.read?, Http.Response.text, Utf8.decodeLossy, Xml.read?_ofList]
    decide +kernel
  have haccept := (accept_eq_ok_iff (x := identity)).2 ⟨rfl, _, _, hg, by decide, expiry_granted _ _, rfl⟩
  exact ⟨_, hgets.run_eq.trans (by rw [haccept]; rfl)⟩

end Exchange

end Sts

end SigV4
