import AuditSwarm.Lib.Returns
import AuditSwarm.Model.Vault

/-!
# What the quote check establishes

`verify_exact_quote` accepts a quote exactly when the cited record is in the vault, its payload can
be read, its digest matches, it is not bound to another session, and the quote stands in the
payload.
-/

namespace AuditSwarm

open Python

namespace Evidence

variable {rt : Runtime} {lib : VaultLibrary} {environ : Environ}

/-! ## Quotes -/

theorem quoteAdmissible_iff {quote : Str} :
    quoteAdmissible quote = true ↔ strip quote ≠ [] ∧ minQuoteLength ≤ quote.length := by
  simp [quoteAdmissible]

theorem quoteAdmissible_of_within {quote text : Str} (h : quoteAdmissible quote = true)
    (hwithin : quote <:+: text) : quoteAdmissible text = true := by
  rw [quoteAdmissible_iff] at h ⊢
  refine ⟨fun hblank => h.1 ?_, h.2.trans hwithin.length_le⟩
  rw [strip_eq_nil_iff] at hblank ⊢
  exact fun c hc => hblank c (hwithin.subset hc)

/-! ## The payload of a record -/

/-- The text a record holds: its payload, decrypted when the record is encrypted. -/
def PayloadOf (lib : VaultLibrary) (environ : Environ) (record : Dict Str Json) (text : Str) :
    Prop :=
  ∃ payload, record.get? (lit "raw_payload") = some payload ∧
    if (truthyField record (lit "encrypted")).isSome then
      ∃ key, getFernet environ = .ok (some key) ∧ decryptPayload lib key payload = .ok text
    else payload = .str text

theorem PayloadOf.unique {record : Dict Str Json} {text text' : Str}
    (h : PayloadOf lib environ record text) (h' : PayloadOf lib environ record text') :
    text = text' := by
  obtain ⟨payload, hpayload, h⟩ := h
  obtain ⟨payload', hpayload', h'⟩ := h'
  obtain rfl := Option.some.inj (hpayload.symm.trans hpayload')
  split at h
  · rename_i hencrypted
    rw [if_pos hencrypted] at h'
    obtain ⟨key, hkey, h⟩ := h
    obtain ⟨key', hkey', h'⟩ := h'
    obtain rfl := Option.some.inj (Except.ok.inj (hkey.symm.trans hkey'))
    exact Except.ok.inj (h.symm.trans h')
  · rename_i hencrypted
    rw [if_neg hencrypted, h] at h'
    exact Json.str.inj h'

/-- The value `_digest_input` makes of a record's text and metadata. -/
def recordInput (record : Dict Str Json) (text : Str) : Json :=
  .str (digestInput text (record.getD (lit "metadata") .null))

/-! ## The checks -/

theorem checkPayload_text {record : Dict Str Json} {text quote : Str} {sessionId : Option Str} :
    checkPayload rt lib environ record (.str text) quote sessionId = .ok true ↔
      digestMatches rt environ record (recordInput record text) = .ok true ∧
        boundElsewhere rt lib record sessionId = false ∧ quote <:+: text := by
  simp only [checkPayload, digestInputOf, Except.ok_bind, Except.bind_eq_ok_iff]
  constructor
  · intro h
    obtain ⟨same, hsame, h⟩ := h
    cases same with
    | false => cases h
    | true =>
        cases hbound : boundElsewhere rt lib record sessionId with
        | true => simp [hbound] at h
        | false => exact ⟨hsame, rfl, by simpa [hbound] using h⟩
  · intro h
    obtain ⟨hsame, hbound, hquote⟩ := h
    exact ⟨true, hsame, by simpa [hbound] using hquote⟩

theorem checkPayload_ne_true {record : Dict Str Json} {payload : Json} {quote : Str}
    {sessionId : Option Str} (h : ∀ text, payload ≠ .str text) :
    checkPayload rt lib environ record payload quote sessionId ≠ .ok true := by
  intro htrue
  unfold checkPayload at htrue
  obtain ⟨input, -, htrue⟩ := Except.bind_eq_ok_iff.mp htrue
  obtain ⟨same, -, htrue⟩ := Except.bind_eq_ok_iff.mp htrue
  split at htrue
  · cases htrue
  split at htrue
  · cases htrue
  cases payload with
  | str text => exact h text rfl
  | _ => cases htrue

structure RecordAccepted (rt : Runtime) (lib : VaultLibrary) (environ : Environ)
    (record : Dict Str Json) (text quote : Str) (sessionId : Option Str) : Prop where
  payload : PayloadOf lib environ record text
  digest : digestMatches rt environ record (recordInput record text) = .ok true
  session : boundElsewhere rt lib record sessionId = false
  quoted : quote <:+: text

theorem checkFields_eq_true_iff {record : Dict Str Json} {quote : Str}
    {sessionId : Option Str} :
    checkFields rt lib environ record quote sessionId = .ok true ↔
      ∃ text, RecordAccepted rt lib environ record text quote sessionId := by
  unfold checkFields
  rw [Except.bind_eq_ok_iff]
  constructor
  · intro h
    obtain ⟨payload, hpayload, h⟩ := h
    have hget : record.get? (lit "raw_payload") = some payload := by simpa using hpayload
    by_cases hencrypted : (truthyField record (lit "encrypted")).isSome
    · rw [if_pos hencrypted] at h
      obtain ⟨found, hfound, h⟩ := Except.bind_eq_ok_iff.mp h
      cases found with
      | none => cases h
      | some key =>
          obtain ⟨text, htext, h⟩ := Except.bind_eq_ok_iff.mp h
          obtain ⟨hdigest, hsession, hquoted⟩ := checkPayload_text.mp h
          refine ⟨text, ⟨payload, hget, ?_⟩, hdigest, hsession, hquoted⟩
          rw [if_pos hencrypted]
          exact ⟨key, hfound, htext⟩
    · rw [if_neg hencrypted] at h
      by_cases htext : ∃ text, payload = .str text
      · obtain ⟨text, rfl⟩ := htext
        obtain ⟨hdigest, hsession, hquoted⟩ := checkPayload_text.mp h
        refine ⟨text, ⟨_, hget, ?_⟩, hdigest, hsession, hquoted⟩
        rw [if_neg hencrypted]
      · exact absurd h (checkPayload_ne_true fun text heq => htext ⟨text, heq⟩)
  · intro h
    obtain ⟨text, ⟨payload, hget, hpayload⟩, hdigest, hsession, hquoted⟩ := h
    refine ⟨payload, by simpa using hget, ?_⟩
    by_cases hencrypted : (truthyField record (lit "encrypted")).isSome
    · rw [if_pos hencrypted] at hpayload ⊢
      obtain ⟨key, hkey, htext⟩ := hpayload
      simp only [hkey, Except.ok_bind, htext]
      exact checkPayload_text.mpr ⟨hdigest, hsession, hquoted⟩
    · rw [if_neg hencrypted] at hpayload ⊢
      subst hpayload
      exact checkPayload_text.mpr ⟨hdigest, hsession, hquoted⟩

theorem failClosed_eq_true_iff {x : Except VaultError Bool} :
    failClosed x = .ok true ↔ x = .ok true := by
  unfold failClosed
  cases x with
  | ok b => rfl
  | error e => cases h : e.caught <;> simp [h]

def Cites (vault : Vault) (vaultId : Str) (record : Dict Str Json) : Prop :=
  ∃ entry, vault.get? (vaultId ++ lit ".json") = some entry ∧ Vault.inside entry = true ∧
    Vault.load entry = .ok (.obj record)

theorem Cites.unique {vault : Vault} {vaultId : Str} {record record' : Dict Str Json}
    (h : Cites vault vaultId record) (h' : Cites vault vaultId record') : record = record' := by
  obtain ⟨entry, hentry, -, hload⟩ := h
  obtain ⟨entry', hentry', -, hload'⟩ := h'
  obtain rfl := Option.some.inj (hentry.symm.trans hentry')
  exact Json.obj.inj (Except.ok.inj (hload.symm.trans hload'))

/-- The quote check accepts a quote exactly for an admissible quote of an accepted record. -/
theorem verifyExactQuote_eq_true_iff {vault : Vault} {vaultId quote : Str}
    {sessionId : Option Str} :
    verifyExactQuote rt lib environ vault vaultId quote sessionId = .ok true ↔
      isUuid vaultId = true ∧ quoteAdmissible quote = true ∧
        ∃ record text, Cites vault vaultId record ∧
          RecordAccepted rt lib environ record text quote sessionId := by
  unfold verifyExactQuote Cites
  by_cases huuid : isUuid vaultId = true
  · by_cases hquote : quoteAdmissible quote = true
    · simp only [huuid, hquote, Bool.not_true, Bool.false_eq_true, if_false, true_and]
      cases hentry : vault.get? (vaultId ++ lit ".json") with
      | none => simp
      | some entry =>
          by_cases hinside : Vault.inside entry = true
          · simp only [hinside, Bool.not_true, Bool.false_eq_true, if_false,
              failClosed_eq_true_iff, Except.bind_eq_ok_iff]
            constructor
            · intro h
              obtain ⟨loaded, hloaded, h⟩ := h
              cases loaded with
              | obj record =>
                  obtain ⟨text, haccepted⟩ := checkFields_eq_true_iff.mp h
                  exact ⟨record, text, ⟨entry, rfl, hinside, hloaded⟩, haccepted⟩
              | _ => cases h
            · intro h
              obtain ⟨record, text, ⟨entry', hentry', -, hloaded⟩, haccepted⟩ := h
              obtain rfl := Option.some.inj hentry'
              exact ⟨.obj record, hloaded, checkFields_eq_true_iff.mpr ⟨text, haccepted⟩⟩
          · have houtside : Vault.inside entry = false := by simpa using hinside
            simp only [houtside, Bool.not_false, if_true]
            constructor
            · intro h
              cases h
            · intro h
              obtain ⟨record, text, ⟨entry', hentry', hinside', -⟩, -⟩ := h
              obtain rfl := Option.some.inj hentry'
              exact absurd hinside' hinside
    · simp [huuid, hquote]
  · simp [huuid]

end Evidence

end AuditSwarm
