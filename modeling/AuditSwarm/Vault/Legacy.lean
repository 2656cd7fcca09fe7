import AuditSwarm.Vault.Exceptions
import AuditSwarm.Vault.Migration

/-!
# Legacy records

The records that the migration rewrites: encrypted ones that carry a matching plain digest and no
keyed one.  What is written in their place holds the same text and the same metadata.
-/

namespace AuditSwarm

open Python

namespace Evidence

variable {rt : Runtime} {lib : VaultLibrary} {environ : Environ} {keyB64 : Str} {key : Bytes}
  {d : Directory} {name other : Str} {record : Dict Str Json} {text : Str}

/-! ## Rewritten records -/

/-- An encrypted record whose text matches its plain digest, with no keyed digest. -/
structure PlainSealed (rt : Runtime) (lib : VaultLibrary) (key : Bytes) (record : Dict Str Json)
    (text : Str) : Prop where
  encrypted : (truthyField record (lit "encrypted")).isSome = true
  unkeyed : record.get? (lit "hmac_sha256") = none
  payload : ∃ payload, record.get? (lit "raw_payload") = some payload ∧
    decryptPayload lib key payload = .ok text
  digest : ∃ data stored, encodeUtf8 (digestInput text (record.getD (lit "metadata") .null)) =
    some data ∧ record.get? (lit "sha256") = some stored ∧
      rt.textOf stored = hexdigest (rt.digest (.plain data))

theorem PlainSealed.text_unique {text' : Str} (h : PlainSealed rt lib key record text)
    (h' : PlainSealed rt lib key record text') : text = text' := by
  obtain ⟨payload, hpayload, htext⟩ := h.payload
  obtain ⟨payload', hpayload', htext'⟩ := h'.payload
  obtain rfl := Option.some.inj (hpayload.symm.trans hpayload')
  exact Except.ok.inj (htext.symm.trans htext')

/-- The keyed digest of the text and metadata of a record. -/
def recordDigest (rt : Runtime) (key : Bytes) (record : Dict Str Json) (text : Str) : Str :=
  hexdigest (rt.digest (.keyed (rt.hmacSha256 key hmacKeyLabel).val
    ((encodeUtf8 (digestInput text (record.getD (lit "metadata") .null))).getD [])))

theorem keyedDigest_recordInput (hbuild : buildFernet keyB64 = .ok key)
    (h : PlainSealed rt lib key record text) :
    keyedDigest rt (.str (digestInput text (record.getD (lit "metadata") .null))) keyB64 =
      .ok (recordDigest rt key record text) := by
  obtain ⟨data, _, hdata, -, -⟩ := h.digest
  rw [keyedDigest_of_buildFernet hbuild hdata, recordDigest, hdata]
  rfl

theorem compareDigest_hexdigest_iff {digest : Bytes} {b : Str} :
    compareDigest (hexdigest digest) b = .ok true ↔ b = hexdigest digest := by
  have hascii := isAscii_hexdigest digest
  constructor
  · intro h
    unfold compareDigest Trail.compareDigest at h
    cases hb : isAscii b with
    | true =>
        simp only [hascii, hb, Bool.and_self, if_true, Except.mapError, Except.ok.injEq,
          decide_eq_true_eq] at h
        exact h.symm
    | false => simp [hascii, hb, Except.mapError] at h
  · rintro rfl
    exact compareDigest_self hascii

/-- Reading a record leads to a rewrite exactly for a record sealed with a plain digest. -/
theorem examineFields_rewritten_iff (hbuild : buildFernet keyB64 = .ok key)
    {r : Dict Str Json} :
    examineFields rt lib keyB64 key record = .ok (.rewritten r) ↔
      ∃ text, PlainSealed rt lib key record text ∧
        r = rekeyed record (recordDigest rt key record text) := by
  constructor
  · intro h
    unfold examineFields at h
    split at h
    · cases h
    split at h
    · cases h
    rename_i hencrypted hkeyed
    simp only [Except.bind_eq_ok_iff, Except.orRaise_eq_ok_iff] at h
    obtain ⟨payload, hpayload, text, htext, plain, hplain, stored, hstored, same, hsame, h⟩ := h
    cases same with
    | false => cases h
    | true =>
        rw [Bool.not_true, if_neg (by decide)] at h
        obtain ⟨digest, hdigest, h⟩ := Except.bind_eq_ok_iff.mp h
        have hr : rekeyed record digest = r := by simpa [pure, Except.pure] using h
        unfold plainDigest at hplain
        obtain ⟨data, hdata, hplain⟩ := Except.bind_eq_ok_iff.mp hplain
        obtain rfl := Except.pure_eq_ok_iff.mp hplain
        have hsealed : PlainSealed rt lib key record text := by
          refine ⟨?_, ?_, ⟨payload, hpayload, htext⟩, data, stored, ?_, hstored, ?_⟩
          · simpa [Option.isNone_iff_eq_none, ← Option.isSome_iff_ne_none] using hencrypted
          · simpa [Dict.contains] using hkeyed
          · exact Except.orRaise_eq_ok_iff.mp hdata
          · exact compareDigest_hexdigest_iff.mp hsame
        rw [keyedDigest_recordInput hbuild hsealed] at hdigest
        exact ⟨text, hsealed, by rw [← hr, Except.ok.inj hdigest]⟩
  · rintro ⟨text, h, rfl⟩
    obtain ⟨payload, hpayload, htext⟩ := h.payload
    obtain ⟨data, stored, hdata, hstored, hsame⟩ := h.digest
    have hencrypted : (truthyField record (lit "encrypted")).isNone = false := by
      rw [← Option.not_isSome, h.encrypted]
      rfl
    have hkeyed : record.contains (lit "hmac_sha256") = false := by
      rw [Dict.contains, h.unkeyed]
      rfl
    unfold examineFields
    rw [hencrypted, hkeyed]
    simp only [Bool.false_eq_true, if_false, hpayload, Except.orRaise, Except.ok_bind, htext,
      plainDigest_of_encode hdata, hstored, compareDigest_hexdigest_iff.mpr hsame, Bool.not_true,
      keyedDigest_recordInput hbuild h]
    rfl

/-! ## Legacy records of a directory -/

/-- The record a name of a directory stands for, wherever the name leads. -/
def Holds (d : Directory) (name : Str) (record : Dict Str Json) : Prop :=
  ∃ entry, d.read name = some entry ∧ Vault.load entry = .ok (.obj record)

theorem Holds.unique {record' : Dict Str Json} (h : Holds d name record)
    (h' : Holds d name record') : record = record' := by
  obtain ⟨entry, hentry, hload⟩ := h
  obtain ⟨entry', hentry', hload'⟩ := h'
  obtain rfl := Option.some.inj (hentry.symm.trans hentry')
  exact Json.obj.inj (Except.ok.inj (hload.symm.trans hload'))

theorem Holds.of_passes (h : Holds d name record) (hpasses : Links.Passes d.next name other) :
    Holds d other record := by
  rcases h with ⟨entry, hentry, hload⟩
  rw [Directory.read_eq_of_passes hpasses] at hentry
  exact ⟨entry, hentry, hload⟩

/-- A name that leads to a record sealed with a plain digest. -/
structure Legacy (rt : Runtime) (lib : VaultLibrary) (key : Bytes) (d : Directory) (name : Str)
    (record : Dict Str Json) (text : Str) : Prop where
  holds : Holds d name record
  sealedPlain : PlainSealed rt lib key record text

theorem Legacy.of_passes (h : Legacy rt lib key d name record text)
    (hpasses : Links.Passes d.next name other) : Legacy rt lib key d other record text :=
  ⟨h.holds.of_passes hpasses, h.sealedPlain⟩

theorem examinedAt_eq_ok_iff {examined : Examined} :
    examinedAt rt lib keyB64 key d name = .ok examined ↔
      ∃ record, Holds d name record ∧
        examineFields rt lib keyB64 key record = .ok examined := by
  unfold examinedAt
  simp only [Except.bind_eq_ok_iff, Except.orRaise_eq_ok_iff]
  constructor
  · rintro ⟨entry, hentry, loaded, hload, h⟩
    cases loaded with
    | obj record => exact ⟨record, ⟨entry, hentry, hload⟩, h⟩
    | _ => cases h
  · rintro ⟨record, ⟨entry, hentry, hload⟩, h⟩
    exact ⟨entry, hentry, .obj record, hload, h⟩

theorem counted_ne_migrated {c : Category}
    (h : examinedAt rt lib keyB64 key d name = .ok (.counted c)) : c ≠ .migrated := by
  rintro rfl
  rcases examinedAt_eq_ok_iff.mp h with ⟨record, -, h⟩
  unfold examineFields at h
  split at h
  · cases h
  split at h
  · cases h
  simp only [Except.bind_eq_ok_iff] at h
  obtain ⟨payload, -, text, -, plain, -, stored, -, same, -, h⟩ := h
  split at h
  · cases h
  · obtain ⟨digest, -, h⟩ := Except.bind_eq_ok_iff.mp h
    cases h

theorem examinedAt_rewritten_iff (hbuild : buildFernet keyB64 = .ok key) {r : Dict Str Json} :
    examinedAt rt lib keyB64 key d name = .ok (.rewritten r) ↔
      ∃ record text, Legacy rt lib key d name record text ∧
        r = rekeyed record (recordDigest rt key record text) := by
  rw [examinedAt_eq_ok_iff]
  constructor
  · rintro ⟨record, hholds, h⟩
    obtain ⟨text, hsealed, hr⟩ := (examineFields_rewritten_iff hbuild).mp h
    exact ⟨record, text, ⟨hholds, hsealed⟩, hr⟩
  · rintro ⟨record, text, hlegacy, hr⟩
    exact ⟨record, hlegacy.holds,
      (examineFields_rewritten_iff hbuild).mpr ⟨text, hlegacy.sealedPlain, hr⟩⟩

/-- A record the migration rewrites: a legacy record that is not blocked, and leads to no such
record that is visited before it. -/
structure Migratable (rt : Runtime) (lib : VaultLibrary) (key : Bytes) (d : Directory)
    (name : Str) : Prop where
  record : name ∈ recordNames d
  legacy : ∃ record text, Legacy rt lib key d name record text
  room : ¬ Blocked d name
  first : ∀ other ∈ recordNames d, other < name → Links.Passes d.next name other →
    Blocked d other

/-- Of the records that a legacy record leads to and that are not blocked, the first one is
rewritten. -/
theorem Legacy.exists_migratable (h : Legacy rt lib key d name record text)
    (hother : other ∈ recordNames d) (hpasses : Links.Passes d.next name other)
    (hroom : ¬ Blocked d other) :
    ∃ m, m ≤ other ∧ Links.Passes d.next name m ∧ Migratable rt lib key d m := by
  classical
  have hmem : ∀ m, m ∈ (recordNames d).toFinset.filter
      (fun m => Links.Passes d.next name m ∧ ¬ Blocked d m) ↔
      m ∈ recordNames d ∧ Links.Passes d.next name m ∧ ¬ Blocked d m := by
    intro m
    rw [Finset.mem_filter, List.mem_toFinset]
  rcases Finset.exists_min_image _ id ⟨other, (hmem other).mpr ⟨hother, hpasses, hroom⟩⟩ with
    ⟨m, hm, hmin⟩
  rcases (hmem m).mp hm with ⟨hrecord, hway, hfree⟩
  refine ⟨m, hmin other ((hmem other).mpr ⟨hother, hpasses, hroom⟩), hway, hrecord,
    ⟨record, text, h.of_passes hway⟩, hfree, ?_⟩
  intro n hn hlt hnext
  by_contra hblocked
  have hle := hmin n ((hmem n).mpr ⟨hn, hway.trans hnext, hblocked⟩)
  exact absurd hlt (not_lt.mpr hle)

/-! ## The text of a legacy record -/

theorem PlainSealed.sealed (hconfigured : configuredKey environ = some keyB64)
    (hbuild : buildFernet keyB64 = .ok key) (h : PlainSealed rt lib key record text) :
    Sealed rt lib environ record text := by
  obtain ⟨payload, hpayload, htext⟩ := h.payload
  obtain ⟨data, stored, hdata, hstored, hsame⟩ := h.digest
  have hfernet : getFernet environ = .ok (some key) := by
    rw [getFernet, hconfigured]
    simp only [hbuild]
    rfl
  constructor
  · refine ⟨payload, hpayload, ?_⟩
    rw [if_pos h.encrypted]
    exact ⟨key, hfernet, htext⟩
  · rw [recordInput, digestMatches, h.unkeyed]
    dsimp only
    rw [plainDigest_of_encode hdata, Except.ok_bind, hstored, Except.orRaise, Except.ok_bind]
    exact compareDigest_hexdigest_iff.mpr hsame

theorem get?_rekeyed_self (record : Dict Str Json) (digest : Str) :
    (rekeyed record digest).get? (lit "hmac_sha256") = some (.str digest) :=
  Dict.get?_set_self _ _ _

theorem get?_rekeyed_of_ne (record : Dict Str Json) (digest : Str) {field : Str}
    (hkeyed : field ≠ lit "hmac_sha256") (hplain : field ≠ lit "sha256") :
    (rekeyed record digest).get? field = record.get? field := by
  rw [rekeyed, Dict.get?_set_of_ne _ _ hkeyed]
  apply Dict.get?_filterKeys_of_pos
  simpa using hplain

theorem recordSessionId_rekeyed (record : Dict Str Json) (digest : Str) :
    recordSessionId rt (rekeyed record digest) = recordSessionId rt record := by
  unfold recordSessionId
  rw [get?_rekeyed_of_ne record digest (by decide) (by decide)]

theorem boundElsewhere_rekeyed (record : Dict Str Json) (digest : Str) (sessionId : Option Str) :
    boundElsewhere rt lib (rekeyed record digest) sessionId =
      boundElsewhere rt lib record sessionId := by
  unfold boundElsewhere
  rw [recordSessionId_rekeyed]

theorem PlainSealed.sealed_rekeyed (hconfigured : configuredKey environ = some keyB64)
    (hbuild : buildFernet keyB64 = .ok key) (h : PlainSealed rt lib key record text) :
    Sealed rt lib environ (rekeyed record (recordDigest rt key record text)) text := by
  obtain ⟨payload, hpayload, hdecrypt⟩ := (h.sealed hconfigured hbuild).payload
  have hencrypted : truthyField (rekeyed record (recordDigest rt key record text))
      (lit "encrypted") = truthyField record (lit "encrypted") := by
    unfold truthyField
    rw [get?_rekeyed_of_ne record _ (by decide) (by decide)]
  constructor
  · refine ⟨payload, ?_, ?_⟩
    · rw [get?_rekeyed_of_ne record _ (by decide) (by decide)]
      exact hpayload
    · rw [hencrypted]
      exact hdecrypt
  · have hmetadata : (rekeyed record (recordDigest rt key record text)).getD
        (lit "metadata") .null = record.getD (lit "metadata") .null := by
      unfold Dict.getD
      rw [get?_rekeyed_of_ne record _ (by decide) (by decide)]
    rw [recordInput, hmetadata, digestMatches, get?_rekeyed_self, hconfigured]
    dsimp only
    rw [keyedDigest_recordInput hbuild h, Except.ok_bind]
    exact compareDigest_self (isAscii_hexdigest _)

theorem examineFields_rekeyed (digest : Str)
    (h : (truthyField record (lit "encrypted")).isSome = true) :
    examineFields rt lib keyB64 key (rekeyed record digest) = .ok (.counted .alreadyKeyed) := by
  have hencrypted : (truthyField (rekeyed record digest) (lit "encrypted")).isNone = false := by
    unfold truthyField at h ⊢
    rw [get?_rekeyed_of_ne record _ (by decide) (by decide), ← Option.not_isSome, h]
    rfl
  have hkeyed : (rekeyed record digest).contains (lit "hmac_sha256") = true := by
    rw [Dict.contains, get?_rekeyed_self]
    rfl
  unfold examineFields
  rw [hencrypted, hkeyed]
  rfl

end Evidence

end AuditSwarm
