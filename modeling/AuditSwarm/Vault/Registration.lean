import AuditSwarm.Vault.Check
import AuditSwarm.Vault.Redaction

/-!
# What registration writes

`register_evidence` writes a record that reads back as the redacted payload, under a digest that
matches it, with or without encryption.
-/

namespace Python

theorem ofChar_of_toChar? {c : CodePoint} {d : Char} (h : toChar? c = some d) : ofChar d = c := by
  unfold toChar? at h
  split at h
  · obtain rfl := Option.some.inj h
    rfl
  · cases h

theorem map_ofChar_of_mapM {s : Str} {cs : List Char} (h : s.mapM toChar? = some cs) :
    cs.map ofChar = s := by
  induction s generalizing cs with
  | nil =>
      rw [List.mapM_nil] at h
      obtain rfl := Option.some.inj h
      rfl
  | cons c s ih =>
      simp only [List.mapM_cons, Option.bind_eq_bind, Option.bind_eq_some_iff] at h
      obtain ⟨d, hd, ds, hds, h⟩ := h
      obtain rfl := Option.some.inj h
      rw [List.map_cons, ih hds, ofChar_of_toChar? hd]

theorem decodeUtf8_encodeUtf8 {s : Str} {b : Bytes} (h : encodeUtf8 s = some b) :
    decodeUtf8 b = some s := by
  rw [encodeUtf8, Option.map_eq_some_iff] at h
  obtain ⟨cs, hcs, rfl⟩ := h
  have hbytes : (⟨(cs.flatMap String.utf8EncodeChar).toArray⟩ : ByteArray) = cs.utf8Encode := by
    apply ByteArray.ext
    simp [List.utf8Encode]
  rw [decodeUtf8, hbytes, List.utf8Decode?_utf8Encode, Option.map_some, map_ofChar_of_mapM hcs]

end Python

namespace AuditSwarm

open Python

namespace Evidence

variable {rt : Runtime} {lib : VaultLibrary} {environ : Environ}

/-! ## Keys -/

theorem getFernet_eq_some {key : Bytes} (h : getFernet environ = .ok (some key)) :
    ∃ keyB64, configuredKey environ = some keyB64 ∧ buildFernet keyB64 = .ok key := by
  unfold getFernet at h
  cases hkey : configuredKey environ with
  | none =>
      rw [hkey] at h
      cases h
  | some keyB64 =>
      rw [hkey] at h
      obtain ⟨raw, hraw, heq⟩ := Except.map_eq_ok_iff.mp h
      obtain rfl := Option.some.inj heq
      exact ⟨keyB64, rfl, hraw⟩

theorem deriveHmacKey_of_buildFernet {keyB64 : Str} {key : Bytes}
    (h : buildFernet keyB64 = .ok key) (label : Bytes) :
    Trail.deriveHmacKey rt keyB64 label = .ok (rt.hmacSha256 key label).val := by
  unfold buildFernet at h
  unfold Trail.deriveHmacKey
  cases hencoded : encodeUtf8 keyB64 with
  | none =>
      rw [hencoded] at h
      cases h
  | some encoded =>
      rw [hencoded] at h
      dsimp only at h ⊢
      cases hraw : urlsafeB64decode encoded with
      | error msg =>
          rw [hraw] at h
          cases h
      | ok raw =>
          rw [hraw] at h
          dsimp only at h ⊢
          split at h
          · rw [Except.ok.inj h]
          · cases h

theorem keyedDigest_of_buildFernet {keyB64 : Str} {key data : Bytes} {input : Str}
    (h : buildFernet keyB64 = .ok key) (hinput : encodeUtf8 input = some data) :
    keyedDigest rt (.str input) keyB64 =
      .ok (hexdigest (rt.digest (.keyed (rt.hmacSha256 key hmacKeyLabel).val data))) := by
  unfold keyedDigest
  rw [deriveHmacKey_of_buildFernet h, encodeText, hinput]
  rfl

theorem plainDigest_of_encode {data : Bytes} {input : Str}
    (hinput : encodeUtf8 input = some data) :
    plainDigest rt (.str input) = .ok (hexdigest (rt.digest (.plain data))) := by
  unfold plainDigest
  rw [encodeText, hinput]
  rfl

theorem compareDigest_self {a : Str} (h : isAscii a = true) : compareDigest a a = .ok true := by
  simp [compareDigest, Trail.compareDigest, h, Except.mapError]

/-! ## The record written -/

/-- A record that holds a text under a digest that matches. -/
structure Sealed (rt : Runtime) (lib : VaultLibrary) (environ : Environ)
    (record : Dict Str Json) (text : Str) : Prop where
  payload : PayloadOf lib environ record text
  digest : digestMatches rt environ record (recordInput record text) = .ok true

def DigestField (field : Str) : Prop := field = lit "sha256" ∨ field = lit "hmac_sha256"

theorem get?_metadata (reg : Registration) (source : Str) {stored : StoredPayload}
    (metadata : Option (Dict Str Json)) (hfield : DigestField stored.digestField) :
    (evidenceRecord reg source stored metadata).get? (lit "metadata") =
      metadata.map Json.obj := by
  unfold evidenceRecord
  rcases hfield with hfield | hfield
  · rw [hfield]
    cases metadata with
    | none => rfl
    | some m => rfl
  · rw [hfield]
    cases metadata with
    | none => rfl
    | some m => rfl

theorem recordInput_evidenceRecord (reg : Registration) (source text : Str)
    {stored : StoredPayload} (metadata : Option (Dict Str Json))
    (hfield : DigestField stored.digestField) :
    recordInput (evidenceRecord reg source stored metadata) text =
      .str (digestInput text (metadataJson metadata)) := by
  rw [recordInput, Dict.getD, get?_metadata reg source metadata hfield]
  cases metadata with
  | none => rfl
  | some m => rfl

theorem storePayload_plain (reg : Registration) (source payload : Str)
    (metadata : Option (Dict Str Json)) {data : Bytes}
    (hdata : encodeUtf8 (digestInput payload (metadataJson metadata)) = some data)
    (hkey : getFernet environ = .ok none) :
    ∃ stored : StoredPayload, DigestField stored.digestField ∧
      storePayload rt lib environ reg payload
        (.str (digestInput payload (metadataJson metadata))) = .ok stored ∧
      Sealed rt lib environ (evidenceRecord reg source stored metadata) payload := by
  have hfield : DigestField (lit "sha256") := .inl rfl
  refine ⟨⟨lit "sha256", hexdigest (rt.digest (.plain data)), payload, false⟩, hfield, ?_,
    ⟨.str payload, rfl, rfl⟩, ?_⟩
  · rw [storePayload, hkey, Except.ok_bind]
    simp only [plainDigest_of_encode hdata, Except.ok_bind]
    rfl
  · rw [recordInput_evidenceRecord _ _ _ _ hfield, digestMatches]
    have hkeyed : ∀ stored : StoredPayload, stored.digestField = lit "sha256" →
        (evidenceRecord reg source stored metadata).get? (lit "hmac_sha256") = none := by
      intro stored hstored
      unfold evidenceRecord
      rw [hstored]
      cases metadata with
      | none => rfl
      | some m => rfl
    rw [hkeyed _ rfl]
    dsimp only
    rw [plainDigest_of_encode hdata, Except.ok_bind]
    exact compareDigest_self (isAscii_hexdigest _)

/-- An encrypted vault stores a token of the payload under a keyed digest. -/
theorem storePayload_keyed (reg : Registration) (source payload : Str)
    (metadata : Option (Dict Str Json)) {data bytes : Bytes} {keyB64 : Str} {key : Bytes}
    (hbytes : encodeUtf8 payload = some bytes)
    (hdata : encodeUtf8 (digestInput payload (metadataJson metadata)) = some data)
    (hconfigured : configuredKey environ = some keyB64) (hbuild : buildFernet keyB64 = .ok key) :
    ∃ stored : StoredPayload, DigestField stored.digestField ∧
      storePayload rt lib environ reg payload
        (.str (digestInput payload (metadataJson metadata))) = .ok stored ∧
      Sealed rt lib environ (evidenceRecord reg source stored metadata) payload := by
  have hfield : DigestField (lit "hmac_sha256") := .inr rfl
  have hkey : getFernet environ = .ok (some key) := by
    rw [getFernet, hconfigured]
    simp only [hbuild]
    rfl
  have hdigest := @keyedDigest_of_buildFernet rt keyB64 key data _ hbuild hdata
  refine ⟨⟨lit "hmac_sha256", hexdigest (rt.digest (.keyed (rt.hmacSha256 key hmacKeyLabel).val data)),
    lib.encrypt key reg.tokenSeed bytes, true⟩, hfield, ?_, ⟨_, rfl, key, hkey, ?_⟩, ?_⟩
  · rw [storePayload, hkey, Except.ok_bind, hconfigured]
    simp only [Option.getD_some, hdigest, Except.ok_bind, encodeText, hbytes]
    rfl
  · rw [decryptPayload, if_pos (lib.isAscii_encrypt key reg.tokenSeed bytes),
      lib.decrypt_encrypt]
    dsimp only
    rw [decodeUtf8_encodeUtf8 hbytes]
    rfl
  · rw [recordInput_evidenceRecord _ _ _ _ hfield, digestMatches, hconfigured]
    have hget : ∀ stored : StoredPayload, stored.digestField = lit "hmac_sha256" →
        (evidenceRecord reg source stored metadata).get? (lit "hmac_sha256") =
          some (.str stored.digest) := by
      intro stored hstored
      unfold evidenceRecord
      rw [hstored]
      rfl
    rw [hget _ rfl]
    dsimp only
    rw [hdigest, Except.ok_bind]
    exact compareDigest_self (isAscii_hexdigest _)

/-- What `register_evidence` writes is sealed, with or without encryption. -/
theorem storePayload_sealed (reg : Registration) (source payload : Str)
    (metadata : Option (Dict Str Json)) (hpayload : Encodable payload)
    (hinput : Encodable (digestInput payload (metadataJson metadata)))
    (hkey : (getFernet environ).Returns) :
    ∃ stored : StoredPayload, DigestField stored.digestField ∧
      storePayload rt lib environ reg payload
        (.str (digestInput payload (metadataJson metadata))) = .ok stored ∧
      Sealed rt lib environ (evidenceRecord reg source stored metadata) payload := by
  obtain ⟨bytes, hbytes⟩ := Option.isSome_iff_exists.mp hpayload
  obtain ⟨data, hdata⟩ := Option.isSome_iff_exists.mp hinput
  obtain ⟨found, hfound⟩ := hkey
  cases found with
  | none => exact storePayload_plain reg source payload metadata hdata hfound
  | some key =>
      obtain ⟨keyB64, hconfigured, hbuild⟩ := getFernet_eq_some hfound
      exact storePayload_keyed reg source payload metadata hbytes hdata hconfigured hbuild

/-! ## Registration -/

theorem signable_storedMetadata {metadata : Option (Dict Str Json)} {sessionId : Option Str}
    (hmetadata : ∀ m ∈ metadata, (Json.obj m).Signable) (hsid : ∀ s ∈ sessionId, Encodable s) :
    ∀ m ∈ storedMetadata lib metadata sessionId, (Json.obj m).Signable := by
  have hsanitized : ∀ m ∈ (metadata.filter (· ≠ [])).map (sanitizeMembers lib),
      (Json.obj m).Signable := by
    intro m hm
    obtain ⟨m', hm', rfl⟩ := Option.map_eq_some_iff.mp hm
    have hsource := hmetadata m' (Option.filter_eq_some_iff.mp hm').1
    exact signable_sanitizeMetadata (.obj m') hsource
  intro m hm
  unfold storedMetadata at hm
  dsimp only at hm
  cases hfilter : sessionId.filter (· ≠ []) with
  | none =>
      rw [hfilter] at hm
      exact hsanitized m hm
  | some sid =>
      rw [hfilter] at hm
      obtain rfl := Option.some.inj hm
      rw [Json.signable_obj]
      intro kv hkv
      rcases Dict.mem_of_mem_set hkv with rfl | hkv
      · have hfield : Encodable (lit "session_id") := by decide
        exact ⟨hfield, Json.signable_str.mpr (hsid sid (Option.filter_eq_some_iff.mp hfilter).1)⟩
      · cases hm' : (metadata.filter (· ≠ [])).map (sanitizeMembers lib) with
        | none =>
            rw [hm'] at hkv
            cases hkv
        | some m =>
            rw [hm'] at hkv
            exact Json.signable_obj.mp (hsanitized m hm') kv hkv

theorem encodable_digestInput {payload : Str} {metadata : Option (Dict Str Json)}
    (hpayload : Encodable payload) (hmetadata : ∀ m ∈ metadata, (Json.obj m).Signable) :
    Encodable (digestInput payload (metadataJson metadata)) := by
  unfold digestInput
  split
  · cases metadata with
    | none => cases ‹(metadataJson none).truthy = true›
    | some m =>
        have hm : Encodable (Json.write (Json.sortKeys (.obj m))) := hmetadata m rfl
        rw [encodable_iff] at hpayload hm ⊢
        intro c hc
        rcases List.mem_append.mp hc with hc | hc
        · exact hpayload c hc
        · rcases List.mem_cons.mp hc with rfl | hc
          · decide
          · exact hm c hc
  · exact hpayload

/-- Registration writes a sealed record under the fresh vault ID, with its stored metadata. -/
theorem registerEvidence_sealed (reg : Registration) (vault : Vault) (rawPayload source : Str)
    (metadata : Option (Dict Str Json)) (sessionId : Option Str) (hpayload : Encodable rawPayload)
    (hmetadata : ∀ m ∈ metadata, (Json.obj m).Signable) (hsid : ∀ s ∈ sessionId, Encodable s)
    (hkey : (getFernet environ).Returns) :
    ∃ (vault' : Vault) (record : Dict Str Json),
      registerEvidence rt lib environ reg vault rawPayload source metadata sessionId =
        .ok vault' ∧
      Cites vault' reg.vaultId record ∧
      Sealed rt lib environ record (redactAccountIds lib rawPayload) ∧
      record.get? (lit "metadata") = (storedMetadata lib metadata sessionId).map Json.obj := by
  have hredacted : Encodable (redactAccountIds lib rawPayload) :=
    encodable_redactAccountIds hpayload
  have hstored : ∀ m ∈ storedMetadata lib metadata sessionId, (Json.obj m).Signable :=
    signable_storedMetadata hmetadata hsid
  obtain ⟨stored, hfield, hstore, hsealed⟩ := @storePayload_sealed rt lib environ reg source
    _ _ hredacted (encodable_digestInput hredacted hstored) hkey
  refine ⟨_, _, ?_, ⟨written reg.dump true (.obj (evidenceRecord reg source stored _)),
    Vault.get?_put_self vault _ _, rfl, rfl⟩, hsealed, get?_metadata reg source _ hfield⟩
  rw [registerEvidence, hstore]
  rfl

/-! ## Checking what was registered -/

theorem checkFields_of_sealed {record : Dict Str Json} {text : Str}
    (h : Sealed rt lib environ record text) (quote : Str) (sessionId : Option Str) :
    checkFields rt lib environ record quote sessionId =
      .ok (decide (boundElsewhere rt lib record sessionId = false ∧ quote <:+: text)) := by
  have hcheck : checkPayload rt lib environ record (.str text) quote sessionId =
      .ok (decide (boundElsewhere rt lib record sessionId = false ∧ quote <:+: text)) := by
    unfold checkPayload
    rw [digestInputOf, Except.ok_bind]
    have hdigest := h.digest
    unfold recordInput at hdigest
    rw [hdigest, Except.ok_bind]
    cases boundElsewhere rt lib record sessionId with
    | true => simp [pure, Except.pure]
    | false => simp [pure, Except.pure]
  obtain ⟨payload, hget, hpayload⟩ := h.payload
  unfold checkFields
  rw [hget, Except.orRaise, Except.ok_bind]
  by_cases hencrypted : (truthyField record (lit "encrypted")).isSome
  · rw [if_pos hencrypted] at hpayload ⊢
    obtain ⟨key, hkey, htext⟩ := hpayload
    simp only [hkey, Except.ok_bind, htext]
    exact hcheck
  · rw [if_neg hencrypted] at hpayload ⊢
    subst hpayload
    exact hcheck

/-- A quote of a sealed record verifies when it is admissible, the record is not bound to another
session, and its text contains the quote. -/
theorem verifyExactQuote_of_sealed {vault : Vault} {vaultId text : Str}
    {record : Dict Str Json} (huuid : isUuid vaultId = true) (hcites : Cites vault vaultId record)
    (h : Sealed rt lib environ record text) (quote : Str) (sessionId : Option Str) :
    verifyExactQuote rt lib environ vault vaultId quote sessionId =
      .ok (decide (quoteAdmissible quote = true ∧
        boundElsewhere rt lib record sessionId = false ∧ quote <:+: text)) := by
  obtain ⟨entry, hentry, hinside, hload⟩ := hcites
  unfold verifyExactQuote
  rw [huuid, hentry]
  by_cases hquote : quoteAdmissible quote = true
  · simp only [hquote, hinside, hload, Bool.not_true, Bool.false_eq_true, if_false,
      Except.ok_bind, checkRecord, checkFields_of_sealed h, failClosed, true_and]
  · simp [hquote]

/-! ## Sessions -/

theorem filter_ne_nil {s : Str} (h : s ≠ []) : (some s).filter (· ≠ []) = some s := by
  simpa using h

/-- The check against a session of a record bound to another one or the same. -/
theorem boundElsewhere_of_bound {record : Dict Str Json} {bound sid : Str}
    (hbound : recordSessionId rt record = some bound) (hne : bound ≠ []) (hsid : sid ≠ []) :
    boundElsewhere rt lib record (some sid) =
      decide (bound ≠ sid ∧ bound ≠ redactAccountIds lib sid) := by
  unfold boundElsewhere
  rw [hbound, filter_ne_nil hne, filter_ne_nil hsid]
  simp

theorem truthyField_str {fields : Dict Str Json} {field s : Str}
    (h : fields.get? field = some (.str s)) (hs : s ≠ []) :
    truthyField fields field = some (.str s) := by
  rw [truthyField, h]
  simpa [Json.truthy] using hs

theorem recordSessionId_argument {record : Dict Str Json} {metadata : Option (Dict Str Json)}
    {sid : Str} (hsid : sid ≠ [])
    (h : record.get? (lit "metadata") = (storedMetadata lib metadata (some sid)).map Json.obj) :
    recordSessionId rt record = some sid := by
  unfold storedMetadata at h
  rw [filter_ne_nil hsid] at h
  unfold recordSessionId
  rw [h, Option.map_some]
  dsimp only
  rw [truthyField_str (Dict.get?_set_self _ _ _) hsid]
  rfl

theorem recordSessionId_import {record : Dict Str Json}
    {appVersion sid sourceFilename uploadedBy identitySource : Str}
    (hsid : redactAccountIds lib sid ≠ [])
    (h : record.get? (lit "metadata") = (storedMetadata lib (some (importMetadata appVersion sid
      sourceFilename uploadedBy identitySource)) none).map Json.obj) :
    recordSessionId rt record = some (redactAccountIds lib sid) := by
  have hparams : ∃ params : Dict Str Json,
      Dict.get? (sanitizeMembers lib (importMetadata appVersion sid sourceFilename uploadedBy
        identitySource)) (lit "parameters") = some (.obj params) ∧
      params.get? (lit "session_id") = some (.str (redactAccountIds lib sid)) := ⟨_, rfl, rfl⟩
  obtain ⟨params, hparams, hget⟩ := hparams
  have hnone : truthyField (sanitizeMembers lib (importMetadata appVersion sid sourceFilename
      uploadedBy identitySource)) (lit "session_id") = none := rfl
  have hstored : storedMetadata lib (some (importMetadata appVersion sid sourceFilename
      uploadedBy identitySource)) none = some (sanitizeMembers lib (importMetadata appVersion sid
        sourceFilename uploadedBy identitySource)) := rfl
  unfold recordSessionId
  rw [h, hstored, Option.map_some]
  dsimp only
  rw [hnone]
  dsimp only
  rw [hparams]
  dsimp only
  rw [truthyField_str hget hsid]
  rfl

end Evidence

end AuditSwarm
