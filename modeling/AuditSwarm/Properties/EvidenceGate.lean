import AuditSwarm.Model.System
import AuditSwarm.Vault.Registration

/-!
# Soundness of the evidence check

When `unverified_findings` reports nothing, every tested finding of valid working papers quotes a
vault record that exists, matches its digest and is not bound to another session.
-/

namespace AuditSwarm

open Python

theorem AuditFindingSchema.Valid.quoted {f : AuditFindingSchema} (h : f.Valid)
    (htested : f.result ≠ some .notTested) :
    strip f.exactQuoteFromEvidence ≠ [] ∧ strip f.vaultIdReference ≠ [] := by
  unfold AuditFindingSchema.Valid AuditFindingSchema.consistent at h
  simp only [Except.bind_eq_ok_iff, Except.pure_eq_ok_iff, Except.ensure_eq_ok_iff] at h
  obtain ⟨_, -, result, -, deficiency, -, _, hquoted, hf⟩ := h
  refine hquoted.resolve_left fun hresult => htested ?_
  rw [← hf, hresult]

namespace Evidence

variable {rt : Runtime} {lib : VaultLibrary} {environ : Environ}

/-- An exception of the quote check as its callers see it. -/
def VaultError.toRaised (e : VaultError) : Raised := ⟨e.className, []⟩

/-- The quote check against a vault, as `unverified_findings` calls it. -/
def checkQuote (rt : Runtime) (lib : VaultLibrary) (environ : Environ) (vault : Vault)
    (vaultId quote : Str) (sessionId : Option Str) : Except Raised Bool :=
  (verifyExactQuote rt lib environ vault vaultId quote sessionId).mapError VaultError.toRaised

theorem checkQuote_eq_ok_iff {vault : Vault} {vaultId quote : Str} {sessionId : Option Str}
    {b : Bool} :
    checkQuote rt lib environ vault vaultId quote sessionId = .ok b ↔
      verifyExactQuote rt lib environ vault vaultId quote sessionId = .ok b := by
  unfold checkQuote
  cases verifyExactQuote rt lib environ vault vaultId quote sessionId with
  | ok c => simp [Except.mapError]
  | error e => simp [Except.mapError]

/-! ## What a matching digest says -/

/-- The stored digest of a record is the digest of its text and metadata: the keyed one, if there
is a keyed digest, else the plain one. -/
def DigestHolds (rt : Runtime) (environ : Environ) (record : Dict Str Json) (text : Str) : Prop :=
  ∃ data, encodeUtf8 (digestInput text (record.getD (lit "metadata") .null)) = some data ∧
    match record.get? (lit "hmac_sha256") with
    | some stored => ∃ keyB64 key, configuredKey environ = some keyB64 ∧
        Trail.deriveHmacKey rt keyB64 hmacKeyLabel = .ok key ∧
        rt.textOf stored = hexdigest (rt.digest (.keyed key data))
    | none => ∃ stored, record.get? (lit "sha256") = some stored ∧
        rt.textOf stored = hexdigest (rt.digest (.plain data))

theorem compareDigest_true {a b : Str} (h : compareDigest a b = .ok true) : a = b := by
  unfold compareDigest at h
  cases hc : Trail.compareDigest a b with
  | error e =>
      rw [hc] at h
      cases h
  | ok same =>
      rw [hc] at h
      obtain rfl := Except.ok.inj h
      unfold Trail.compareDigest at hc
      split at hc
      · exact of_decide_eq_true (Except.ok.inj hc)
      · cases hc

theorem digestHolds_of_digestMatches {record : Dict Str Json} {text : Str}
    (h : digestMatches rt environ record (recordInput record text) = .ok true) :
    DigestHolds rt environ record text := by
  unfold digestMatches at h
  unfold DigestHolds
  cases hkeyed : record.get? (lit "hmac_sha256") with
  | some stored =>
      rw [hkeyed] at h
      cases hkey : configuredKey environ with
      | none =>
          rw [hkey] at h
          cases h
      | some keyB64 =>
          rw [hkey] at h
          dsimp only at h
          obtain ⟨expected, hexpected, hsame⟩ := Except.bind_eq_ok_iff.mp h
          unfold keyedDigest at hexpected
          obtain ⟨key, hderive, hexpected⟩ := Except.bind_eq_ok_iff.mp hexpected
          obtain ⟨data, hdata, hexpected⟩ := Except.bind_eq_ok_iff.mp hexpected
          obtain rfl := Except.pure_eq_ok_iff.mp hexpected
          refine ⟨data, Except.orRaise_eq_ok_iff.mp hdata, keyB64, key, rfl, ?_,
            (compareDigest_true hsame).symm⟩
          cases hd : Trail.deriveHmacKey rt keyB64 hmacKeyLabel with
          | error e =>
              rw [hd] at hderive
              cases hderive
          | ok k =>
              rw [hd] at hderive
              exact congrArg Except.ok (Except.ok.inj hderive)
  | none =>
      rw [hkeyed] at h
      dsimp only at h
      obtain ⟨expected, hexpected, h⟩ := Except.bind_eq_ok_iff.mp h
      obtain ⟨stored, hstored, hsame⟩ := Except.bind_eq_ok_iff.mp h
      unfold plainDigest at hexpected
      obtain ⟨data, hdata, hexpected⟩ := Except.bind_eq_ok_iff.mp hexpected
      obtain rfl := Except.pure_eq_ok_iff.mp hexpected
      exact ⟨data, Except.orRaise_eq_ok_iff.mp hdata, stored,
        Except.orRaise_eq_ok_iff.mp hstored, (compareDigest_true hsame).symm⟩

/-! ## The loop -/

theorem verified_of_unverifiedFindings
    {verify : Str → Str → Option Str → Except Raised Bool} {sessionId : Option Str}
    {findings : List AuditFindingSchema} {index : Nat}
    (h : unverifiedFindings rt verify sessionId index findings = .ok []) :
    ∀ f ∈ findings, findingUnverified rt verify sessionId f = .ok false := by
  induction findings generalizing index with
  | nil => simp
  | cons f rest ih =>
      unfold unverifiedFindings at h
      simp only [Except.bind_eq_ok_iff, Except.pure_eq_ok_iff] at h
      obtain ⟨unverified, hf, others, hothers, hnil⟩ := h
      cases unverified with
      | true => simp at hnil
      | false =>
          have hempty : others = [] := by simpa using hnil
          subst hempty
          exact List.forall_mem_cons.mpr ⟨hf, ih hothers⟩

/-- What stands behind a tested finding that verifies. -/
structure Backed (rt : Runtime) (lib : VaultLibrary) (environ : Environ) (vault : Vault)
    (sessionId : Option Str) (f : AuditFindingSchema) : Prop where
  long : minQuoteLength ≤ f.exactQuoteFromEvidence.length
  record : ∃ (record : Dict Str Json) (text : Str), Cites vault f.vaultIdReference record ∧
    PayloadOf lib environ record text ∧ DigestHolds rt environ record text ∧
    f.exactQuoteFromEvidence <:+: text ∧
    ∀ s, sessionId = some s → s ≠ [] → ∀ bound, recordSessionId rt record = some bound →
      bound = s ∨ bound = redactAccountIds lib s

theorem textOf_ne_nil {j : Json} (h : j.truthy = true) : rt.textOf j ≠ [] := by
  cases j with
  | null => cases h
  | bool b =>
      cases b with
      | false => cases h
      | true => exact List.cons_ne_nil _ _
  | int n =>
      cases n with
      | ofNat m => exact decimal_ne_nil m
      | negSucc m => exact List.cons_ne_nil _ _
  | float r =>
      intro hnil
      have htext : r.text = [] := hnil
      have hstarts := r.starts
      simp [htext] at hstarts
  | str s => simpa [Json.truthy] using h
  | arr xs => exact List.cons_ne_nil _ _
  | obj kvs => exact List.cons_ne_nil _ _

theorem truthy_of_truthyField {fields : Dict Str Json} {field : Str} {j : Json}
    (h : truthyField fields field = some j) : j.truthy = true :=
  (Option.filter_eq_some_iff.mp h).2

theorem recordSessionId_ne_nil {record : Dict Str Json} {bound : Str}
    (h : recordSessionId rt record = some bound) : bound ≠ [] := by
  unfold recordSessionId at h
  split at h
  · split at h
    · rename_i sid hsid
      obtain rfl := Option.some.inj h
      exact textOf_ne_nil (truthy_of_truthyField hsid)
    · split at h
      · obtain ⟨sid, hsid, rfl⟩ := Option.map_eq_some_iff.mp h
        exact textOf_ne_nil (truthy_of_truthyField hsid)
      · cases h
  · cases h

theorem backed_of_verifies {vault : Vault} {sessionId : Option Str} {f : AuditFindingSchema}
    (h : verifyExactQuote rt lib environ vault f.vaultIdReference f.exactQuoteFromEvidence
      sessionId = .ok true) : Backed rt lib environ vault sessionId f := by
  obtain ⟨-, hquote, record, text, hcites, haccepted⟩ := verifyExactQuote_eq_true_iff.mp h
  have hlong : minQuoteLength ≤ f.exactQuoteFromEvidence.length := by
    simp only [quoteAdmissible, Bool.and_eq_true, decide_eq_true_eq] at hquote
    exact hquote.2
  refine ⟨hlong, record, text, hcites, haccepted.payload,
    digestHolds_of_digestMatches haccepted.digest, haccepted.quoted, ?_⟩
  intro s hs hne bound hbound
  have hsession := haccepted.session
  rw [hs, boundElsewhere_of_bound hbound (recordSessionId_ne_nil hbound) hne,
    decide_eq_false_iff_not, not_and_or, not_not, not_not] at hsession
  exact hsession

/-- When nothing is reported, every tested finding of valid papers is backed. -/
theorem unverifiedFindings_sound (vault : Vault) (sessionId : Option Str) (papers : ValidPapers)
    (h : unverifiedFindings rt (checkQuote rt lib environ vault) sessionId 0
      papers.val.findings = .ok []) :
    ∀ f ∈ papers.val.findings, f.result ≠ some .notTested →
      Backed rt lib environ vault sessionId f := by
  intro f hf htested
  have hverified := verified_of_unverifiedFindings h f hf
  have hquoted := (papers.property f hf).quoted htested
  unfold findingUnverified at hverified
  rw [if_neg hquoted.1] at hverified
  obtain ⟨b, hb, hnot⟩ := Except.map_eq_ok_iff.mp hverified
  have htrue : b = true := by simpa using hnot
  subst htrue
  exact backed_of_verifies (checkQuote_eq_ok_iff.mp hb)

namespace Sample

/-- A record written without encryption, and the vault that holds it. -/
def vaultId : Str := lit "0a1b2c3d-4e5f-4a6b-8c7d-9e8f7a6b5c4d"

def evidenceText : Str := lit "3 accounts were not disabled within 24 hours"

def vault : Vault :=
  Vault.empty.put (vaultId ++ lit ".json") (written (fun _ => []) true (.obj
    [(lit "sha256", .str (hexdigest ((Runtime.ascii Runtime.shortDigest).digest
        (.plain (evidenceText.map fun c => UInt8.ofNat c.val))))),
      (lit "raw_payload", .str evidenceText), (lit "encrypted", .bool false)]))

/-- A tested finding that quotes the record, and one that was not tested. -/
def evidencedPapers : WorkingPaperSchema :=
  AuditSwarm.Sample.papers
    [{ AuditSwarm.Sample.finding "C1" .effective .exceptionsNoted with
        vaultIdReference := vaultId },
      { AuditSwarm.Sample.finding "C2" .notTested .notTested with
        exactQuoteFromEvidence := [] }]

end Sample

theorem unverifiedFindings_sound_sample :
    Backed (.ascii Runtime.shortDigest) sampleLibrary (fun _ => none) Sample.vault
      (some (lit "s")) { AuditSwarm.Sample.finding "C1" .effective .exceptionsNoted with
        vaultIdReference := Sample.vaultId } :=
  @unverifiedFindings_sound (.ascii Runtime.shortDigest) sampleLibrary (fun _ => none)
    Sample.vault (some (lit "s")) ⟨Sample.evidencedPapers, by decide⟩ (by decide +kernel) _
    List.mem_cons_self (by decide)

end Evidence

end AuditSwarm
