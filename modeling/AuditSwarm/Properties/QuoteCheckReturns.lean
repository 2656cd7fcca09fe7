import AuditSwarm.Properties.EvidenceGate
import AuditSwarm.Vault.Exceptions

/-!
# When the quote check returns

`verify_exact_quote` answers `False` to the exceptions it names; a `TypeError` or an
`AttributeError` escapes it.  This module says which records raise one.
-/

namespace AuditSwarm

open Python

namespace Evidence

variable {rt : Runtime} {lib : VaultLibrary} {environ : Environ}

/-! ## Caught exceptions -/

abbrev Closed {α : Type} (x : Except VaultError α) : Prop :=
  x.RaisesOnly fun e => e.caught = true

theorem closed_bind_iff {α β : Type} {x : Except VaultError α} {f : α → Except VaultError β} :
    Closed (x >>= f) ↔ Closed x ∧ ∀ a, x = .ok a → Closed (f a) :=
  Except.raisesOnly_bind_iff

theorem returns_failClosed_iff {x : Except VaultError Bool} :
    (failClosed x).Returns ↔ Closed x := by
  unfold failClosed
  cases x with
  | ok b => simp
  | error e =>
      cases h : e.caught with
      | true => simp [h]
      | false => simp [h]

/-! ## The digest check -/

/-- Wherever the digest of a text is computed, the digest stored beside it is ASCII. -/
def DigestComparable (rt : Runtime) (environ : Environ) (record : Dict Str Json) (text : Str) :
    Prop :=
  match record.get? (lit "hmac_sha256") with
  | some stored => ∀ keyB64, configuredKey environ = some keyB64 →
      (keyedDigest rt (recordInput record text) keyB64).Returns → isAscii (rt.textOf stored) = true
  | none => ∀ stored, record.get? (lit "sha256") = some stored →
      (plainDigest rt (recordInput record text)).Returns → isAscii (rt.textOf stored) = true

theorem closed_digestMatches_iff {record : Dict Str Json} {text : Str} :
    Closed (digestMatches rt environ record (recordInput record text)) ↔
      DigestComparable rt environ record text := by
  unfold digestMatches DigestComparable
  cases record.get? (lit "hmac_sha256") with
  | some stored =>
      cases configuredKey environ with
      | none => simp
      | some keyB64 =>
          have hclosed : Closed (keyedDigest rt (recordInput record text) keyB64) :=
            raisesOnly_keyedDigest handled_caught _ _
          dsimp only
          rw [closed_bind_iff, and_iff_right hclosed]
          constructor
          · intro h keyB64' hkey hreturns
            obtain rfl := Option.some.inj hkey
            obtain ⟨expected, hexpected⟩ := hreturns
            exact (raisesOnly_compareDigest_iff handled_caught
              (isAscii_of_keyedDigest hexpected)).mp (h expected hexpected)
          · intro h expected hexpected
            exact (raisesOnly_compareDigest_iff handled_caught
              (isAscii_of_keyedDigest hexpected)).mpr (h keyB64 rfl ⟨expected, hexpected⟩)
  | none =>
      have hclosed : Closed (plainDigest rt (recordInput record text)) :=
        raisesOnly_plainDigest handled_caught _
      dsimp only
      rw [closed_bind_iff, and_iff_right hclosed]
      constructor
      · intro h stored hstored hreturns
        obtain ⟨expected, hexpected⟩ := hreturns
        have hrest := h expected hexpected
        rw [hstored, Except.orRaise, Except.ok_bind] at hrest
        exact (raisesOnly_compareDigest_iff handled_caught
          (isAscii_of_plainDigest hexpected)).mp hrest
      · intro h expected hexpected
        rw [closed_bind_iff]
        refine ⟨Except.raisesOnly_orRaise_iff.mpr fun _ => rfl, fun stored hstored => ?_⟩
        exact (raisesOnly_compareDigest_iff handled_caught
          (isAscii_of_plainDigest hexpected)).mpr (h stored (Except.orRaise_eq_ok_iff.mp hstored) ⟨expected, hexpected⟩)

/-! ## The checks on a payload -/

theorem closed_checkPayload_text_iff {record : Dict Str Json} {text quote : Str}
    {sessionId : Option Str} :
    Closed (checkPayload rt lib environ record (.str text) quote sessionId) ↔
      DigestComparable rt environ record text := by
  have hinput : digestInputOf (.str text) (record.getD (lit "metadata") .null) =
      .ok (recordInput record text) := rfl
  unfold checkPayload
  rw [hinput, Except.ok_bind, closed_bind_iff, closed_digestMatches_iff, and_iff_left]
  intro same _
  split
  · exact Except.raisesOnly_pure _
  split
  · exact Except.raisesOnly_pure _
  · exact Except.raisesOnly_pure _

/-- A payload that is no text is looked at, and raises, unless there is no metadata and the keyed
digest stored beside it cannot be computed for want of a readable key. -/
def PayloadUnread (rt : Runtime) (environ : Environ) (record : Dict Str Json) : Prop :=
  (record.getD (lit "metadata") .null).truthy = false ∧
    record.contains (lit "hmac_sha256") = true ∧
    ∀ keyB64, configuredKey environ = some keyB64 →
      ¬ (Trail.deriveHmacKey rt keyB64 hmacKeyLabel).Returns

theorem closed_checkPayload_iff_unread {record : Dict Str Json} {payload : Json} {quote : Str}
    {sessionId : Option Str} (h : ∀ text, payload ≠ .str text) :
    Closed (checkPayload rt lib environ record payload quote sessionId) ↔
      PayloadUnread rt environ record := by
  have hencode : encodeText payload = .error .attributeError := by
    cases payload with
    | str text => exact absurd rfl (h text)
    | _ => rfl
  have hinput : digestInputOf payload (record.getD (lit "metadata") .null) =
      if (record.getD (lit "metadata") .null).truthy then .error .typeError else .ok payload := by
    cases payload with
    | str text => exact absurd rfl (h text)
    | _ => rfl
  unfold checkPayload PayloadUnread
  rw [hinput]
  cases (record.getD (lit "metadata") .null).truthy with
  | true => simp [VaultError.caught]
  | false =>
      rw [if_neg (by decide), Except.ok_bind, and_iff_right rfl]
      unfold digestMatches Dict.contains
      cases record.get? (lit "hmac_sha256") with
      | none =>
          have hplain : plainDigest rt payload = .error .attributeError := by
            rw [plainDigest, hencode]
            rfl
          simp [hplain, VaultError.caught]
      | some stored =>
          cases configuredKey environ with
          | none => simp
          | some keyB64 =>
              cases hderive : Trail.deriveHmacKey rt keyB64 hmacKeyLabel with
              | error e =>
                  have hkeyed : keyedDigest rt payload keyB64 = .error .valueError := by
                    rw [keyedDigest, hderive]
                    rfl
                  simp [hkeyed, hderive, VaultError.caught]
              | ok key =>
                  have hkeyed : keyedDigest rt payload keyB64 = .error .attributeError := by
                    rw [keyedDigest, hderive, hencode]
                    rfl
                  simp [hkeyed, hderive, VaultError.caught]

/-! ## The whole check -/

/-- A record that the quote check can read without an exception it does not catch. -/
def FieldsReadable (rt : Runtime) (lib : VaultLibrary) (environ : Environ)
    (record : Dict Str Json) : Prop :=
  ∀ payload, record.get? (lit "raw_payload") = some payload →
    if (truthyField record (lit "encrypted")).isSome then
      ∀ key, getFernet environ = .ok (some key) →
        ∃ token, payload = .str token ∧
          ∀ text, decryptPayload lib key payload = .ok text → DigestComparable rt environ record text
    else (∃ text, payload = .str text ∧ DigestComparable rt environ record text) ∨
      ((∀ text, payload ≠ .str text) ∧ PayloadUnread rt environ record)

theorem closed_getFernet : Closed (getFernet environ) := by
  unfold getFernet
  split
  · exact Except.raisesOnly_ok _
  · rename_i keyB64 _
    intro e he
    have hbuild := Except.map_eq_error_iff.mp he
    unfold buildFernet at hbuild
    split at hbuild
    · cases hbuild
      rfl
    split at hbuild
    · cases hbuild
      rfl
    split at hbuild
    · cases hbuild
    · cases hbuild
      rfl

theorem closed_checkFields_iff {record : Dict Str Json} {quote : Str} {sessionId : Option Str} :
    Closed (checkFields rt lib environ record quote sessionId) ↔
      FieldsReadable rt lib environ record := by
  unfold checkFields FieldsReadable
  cases record.get? (lit "raw_payload") with
  | none => simp [Except.orRaise, VaultError.caught]
  | some payload =>
      rw [Except.orRaise, Except.ok_bind]
      by_cases hencrypted : (truthyField record (lit "encrypted")).isSome
      · simp only [hencrypted, if_true, Option.some.injEq, forall_eq']
        rw [closed_bind_iff, and_iff_right closed_getFernet]
        constructor
        · intro h key hkey
          have hbody := h (some key) hkey
          dsimp only at hbody
          rw [closed_bind_iff] at hbody
          obtain ⟨hdecrypt, hbody⟩ := hbody
          obtain ⟨token, htoken⟩ := (raisesOnly_decryptPayload_iff handled_caught).mp hdecrypt
          exact ⟨token, htoken, fun text htext =>
            closed_checkPayload_text_iff.mp (hbody text htext)⟩
        · intro h found hfound
          cases found with
          | none => exact Except.raisesOnly_pure _
          | some key =>
              obtain ⟨token, htoken, hbody⟩ := h key hfound
              dsimp only
              rw [closed_bind_iff]
              exact ⟨(raisesOnly_decryptPayload_iff handled_caught).mpr ⟨token, htoken⟩,
                fun text htext => closed_checkPayload_text_iff.mpr (hbody text htext)⟩
      · simp only [hencrypted, Bool.false_eq_true, if_false, Option.some.injEq, forall_eq']
        by_cases htext : ∃ text, payload = .str text
        · obtain ⟨text, rfl⟩ := htext
          rw [closed_checkPayload_text_iff]
          constructor
          · exact fun h => .inl ⟨text, rfl, h⟩
          · intro h
            rcases h with ⟨text', heq, h⟩ | ⟨hnot, -⟩
            · rwa [Json.str.inj heq]
            · exact absurd rfl (hnot text)
        · have hnot : ∀ text, payload ≠ .str text := fun text heq => htext ⟨text, heq⟩
          rw [closed_checkPayload_iff_unread hnot]
          constructor
          · exact fun h => .inr ⟨hnot, h⟩
          · intro h
            rcases h with ⟨text, heq, -⟩ | ⟨-, h⟩
            · exact absurd heq (hnot text)
            · exact h

/-- A JSON value that can be read as a record. -/
def RecordReadable (rt : Runtime) (lib : VaultLibrary) (environ : Environ) (loaded : Json) : Prop :=
  ∃ record : Dict Str Json, loaded = .obj record ∧ FieldsReadable rt lib environ record

theorem closed_checkRecord_iff {loaded : Json} {quote : Str} {sessionId : Option Str} :
    Closed (checkRecord rt lib environ loaded quote sessionId) ↔
      RecordReadable rt lib environ loaded := by
  unfold checkRecord RecordReadable
  cases loaded with
  | obj record => simp [closed_checkFields_iff]
  | _ => simp [VaultError.caught]

theorem closed_load (entry : VaultEntry) : Closed (Vault.load entry) := by
  cases entry with
  | directory => exact Except.raisesOnly_error_iff.mpr rfl
  | file f =>
      unfold Vault.load
      dsimp only
      cases f.content with
      | ok j => exact Except.raisesOnly_ok j
      | error e =>
          cases e with
          | unreadable => exact Except.raisesOnly_error_iff.mpr rfl
          | notJson => exact Except.raisesOnly_error_iff.mpr rfl
          | tooDeep => exact Except.raisesOnly_error_iff.mpr rfl

/-- The JSON value the quote check reads for a citation, if it comes that far. -/
def Reads (vault : Vault) (vaultId quote : Str) (loaded : Json) : Prop :=
  isUuid vaultId = true ∧ quoteAdmissible quote = true ∧
    ∃ entry, vault.get? (vaultId ++ lit ".json") = some entry ∧ Vault.inside entry = true ∧
      Vault.load entry = .ok loaded

theorem returns_verifyExactQuote_iff {vault : Vault} {vaultId quote : Str}
    {sessionId : Option Str} :
    (verifyExactQuote rt lib environ vault vaultId quote sessionId).Returns ↔
      ∀ loaded, Reads vault vaultId quote loaded → RecordReadable rt lib environ loaded := by
  unfold verifyExactQuote Reads
  by_cases huuid : isUuid vaultId = true
  · by_cases hquote : quoteAdmissible quote = true
    · simp only [huuid, hquote, Bool.not_true, Bool.false_eq_true, if_false, true_and]
      cases hentry : vault.get? (vaultId ++ lit ".json") with
      | none => simp
      | some entry =>
          by_cases hinside : Vault.inside entry = true
          · simp only [hinside, Bool.not_true, Bool.false_eq_true, if_false,
              returns_failClosed_iff, closed_bind_iff, closed_checkRecord_iff]
            rw [and_iff_right (closed_load entry)]
            constructor
            · intro h loaded hreads
              obtain ⟨entry', hentry', -, hload⟩ := hreads
              obtain rfl := Option.some.inj hentry'
              exact h loaded hload
            · exact fun h loaded hload => h loaded ⟨entry, rfl, hinside, hload⟩
          · have houtside : Vault.inside entry = false := by simpa using hinside
            simp only [houtside, Bool.not_false, if_true]
            apply iff_of_true
            · exact Except.returns_ok _
            · intro loaded hreads
              obtain ⟨entry', hentry', hinside', -⟩ := hreads
              obtain rfl := Option.some.inj hentry'
              exact absurd hinside' hinside
    · simp [huuid, hquote]
  · simp [huuid]

/-- A record that can stand behind a quote: an object whose payload is a text under a digest that
matches it. -/
def WellFormed (rt : Runtime) (lib : VaultLibrary) (environ : Environ) (vault : Vault)
    (vaultId : Str) : Prop :=
  ∃ (record : Dict Str Json) (text : Str), Cites vault vaultId record ∧
    PayloadOf lib environ record text ∧ DigestHolds rt environ record text

/-- The quote check answers with a boolean, and with `False` unless the record is well formed. -/
def FailsClosed (rt : Runtime) (lib : VaultLibrary) (environ : Environ) (vault : Vault)
    (vaultId quote : Str) (sessionId : Option Str) : Prop :=
  ∃ b, verifyExactQuote rt lib environ vault vaultId quote sessionId = .ok b ∧
    (¬ WellFormed rt lib environ vault vaultId → b = false)

/-- The quote check fails closed exactly when what it reads can be read as a record. -/
theorem verifyExactQuote_failsClosed_iff (rt : Runtime) (lib : VaultLibrary) (environ : Environ)
    (vault : Vault) (vaultId quote : Str) (sessionId : Option Str) :
    FailsClosed rt lib environ vault vaultId quote sessionId ↔
      ∀ loaded, Reads vault vaultId quote loaded → RecordReadable rt lib environ loaded := by
  rw [← @returns_verifyExactQuote_iff rt lib environ vault vaultId quote sessionId]
  constructor
  · intro h
    obtain ⟨b, hb, -⟩ := h
    exact ⟨b, hb⟩
  · intro h
    obtain ⟨b, hb⟩ := h
    refine ⟨b, hb, fun hmalformed => ?_⟩
    cases b with
    | false => rfl
    | true =>
        obtain ⟨-, -, record, text, hcites, haccepted⟩ := verifyExactQuote_eq_true_iff.mp hb
        exact absurd ⟨record, text, hcites, haccepted.payload,
          digestHolds_of_digestMatches haccepted.digest⟩ hmalformed

/-- A vault file that holds a JSON list makes the quote check raise. -/
theorem verifyExactQuote_raises_list :
    ¬ ∀ (vault : Vault) (vaultId quote : Str) (sessionId : Option Str),
      FailsClosed (.ascii Runtime.shortDigest) sampleLibrary (fun _ => none) vault vaultId quote
        sessionId := by
  intro h
  obtain ⟨b, hb, -⟩ := h
    (Vault.empty.put (Sample.vaultId ++ lit ".json") (written (fun _ => []) true (.arr [])))
    Sample.vaultId Sample.evidenceText none
  have hraise : verifyExactQuote (.ascii Runtime.shortDigest) sampleLibrary (fun _ => none)
      (Vault.empty.put (Sample.vaultId ++ lit ".json") (written (fun _ => []) true (.arr [])))
      Sample.vaultId Sample.evidenceText none = .error .typeError := by decide +kernel
  rw [hraise] at hb
  cases hb

end Evidence

end AuditSwarm
