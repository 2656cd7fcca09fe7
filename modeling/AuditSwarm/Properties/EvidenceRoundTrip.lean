import AuditSwarm.Vault.Registration

/-!
# Registered evidence and its session

Evidence registered for a session verifies for that session, quote by quote, and the record of the
session argument verifies for no other.  The import route binds a record to the redacted session
ID, which two sessions can share.
-/

namespace AuditSwarm

open Python

namespace Evidence

variable {rt : Runtime} {lib : VaultLibrary} {environ : Environ}

theorem encodable_of_isUuid {s : Str} (h : isUuid s = true) : Encodable s := by
  apply encodable_of_lt
  intro c hc
  rcases mem_of_afterTests (of_decide_eq_true h) hc with hnil | ⟨p, hp, hpc⟩
  · cases hnil
  rcases mem_grouped hp with rfl | rfl
  · simp only [isHexDigit, isDigit, Bool.or_eq_true, Bool.and_eq_true, decide_eq_true_eq] at hpc
    omega
  · rw [of_decide_eq_true hpc]
    decide

/-- A record bound to a session argument is bound elsewhere for every other session. -/
theorem boundElsewhere_argument {record : Dict Str Json} {s s' : Str} (hs : isUuid s = true)
    (hs' : isUuid s' = true) (hbound : recordSessionId rt record = some s) :
    boundElsewhere rt lib record (some s') = decide (s' ≠ s) := by
  rw [boundElsewhere_of_bound hbound (isUuid_ne_nil hs) (isUuid_ne_nil hs'),
    decide_eq_decide]
  constructor
  · exact fun h heq => h.1 heq.symm
  · intro h
    refine ⟨Ne.symm h, fun hredacted => h ?_⟩
    exact (eq_of_isUuid_redacted hs hredacted).symm

theorem redactAccountIds_ne_nil {s : Str} (hs : isUuid s = true) :
    redactAccountIds lib s ≠ [] := by
  intro hnil
  have hself : redactAccountIds lib s = s := redactAccountIds_eq_self (by simp [hnil])
  exact isUuid_ne_nil hs (hself.symm.trans hnil)

/-- A record bound to a redacted session is bound elsewhere for a session with another redaction. -/
theorem boundElsewhere_import {record : Dict Str Json} {s s' : Str} (hs : isUuid s = true)
    (hs' : isUuid s' = true)
    (hbound : recordSessionId rt record = some (redactAccountIds lib s)) :
    boundElsewhere rt lib record (some s') =
      decide (redactAccountIds lib s ≠ redactAccountIds lib s') := by
  rw [boundElsewhere_of_bound hbound (redactAccountIds_ne_nil hs) (isUuid_ne_nil hs'),
    decide_eq_decide]
  constructor
  · exact fun h => h.2
  · intro h
    refine ⟨fun heq => h ?_, h⟩
    rw [eq_of_isUuid_redacted hs' heq.symm]

/-- Evidence registered for a session: the agent is shown the stored payload, a quote verifies for
the session when it is admissible and stands in that payload, and none verifies for another. -/
theorem register_then_verify (reg : Registration) (vault : Vault) (rawPayload source : Str)
    (metadata : Option (Dict Str Json)) (s : Str) (hpayload : Encodable rawPayload)
    (hmetadata : ∀ m ∈ metadata, (Json.obj m).Signable) (hs : isUuid s = true)
    (hkey : (getFernet environ).Returns) :
    ∃ (vault' : Vault) (record : Dict Str Json),
      registerEvidence rt lib environ reg vault rawPayload source metadata (some s) =
        .ok vault' ∧
      Cites vault' reg.vaultId record ∧
      PayloadOf lib environ record (redactAccountIds lib rawPayload) ∧
      (∀ m, metadata = some m →
        registerAndFormat rt lib environ reg vault rawPayload source m (some s) =
          .ok (shownText reg.vaultId (redactAccountIds lib rawPayload), vault')) ∧
      (∀ quote, verifyExactQuote rt lib environ vault' reg.vaultId quote (some s) =
        .ok (decide (strip quote ≠ [] ∧ minQuoteLength ≤ quote.length ∧
          quote <:+: redactAccountIds lib rawPayload))) ∧
      ∀ s', isUuid s' = true → s' ≠ s → ∀ quote,
        verifyExactQuote rt lib environ vault' reg.vaultId quote (some s') = .ok false := by
  have hsid : ∀ sid ∈ some s, Encodable sid := by
    intro sid hsid
    obtain rfl := Option.some.inj hsid
    exact encodable_of_isUuid hs
  obtain ⟨vault', record, hregister, hcites, hsealed, hget⟩ := registerEvidence_sealed reg vault
    rawPayload source metadata (some s) hpayload hmetadata hsid hkey
  have hbound : recordSessionId rt record = some s :=
    recordSessionId_argument (isUuid_ne_nil hs) hget
  refine ⟨vault', record, hregister, hcites, hsealed.payload, ?_, fun quote => ?_,
    fun s' hs' hne quote => ?_⟩
  · rintro m rfl
    rw [registerAndFormat, hregister]
    rfl
  · rw [verifyExactQuote_of_sealed reg.isUuid_vaultId hcites hsealed,
      boundElsewhere_argument hs hs hbound]
    refine congrArg Except.ok (decide_eq_decide.mpr ?_)
    rw [quoteAdmissible_iff, and_assoc]
    simp
  · rw [verifyExactQuote_of_sealed reg.isUuid_vaultId hcites hsealed,
      boundElsewhere_argument hs hs' hbound]
    simp [hne]

namespace Sample

def registration : Registration where
  vaultId := lit "0a1b2c3d-4e5f-4a6b-8c7d-9e8f7a6b5c4d"
  isUuid_vaultId := by decide
  timestamp := lit "2026-01-01T00:00:00+00:00"
  tokenSeed := 0
  dump _ := []

def payload : Str := lit "Account 123456789012: 3 users have no MFA device."

def session : Str := lit "3f2b8a1c-5d6e-4f70-8a9b-000000000001"
def otherSession : Str := lit "3f2b8a1c-5d6e-4f70-8a9b-000000000002"

end Sample

theorem register_then_verify_unencrypted :
    ∃ vault' : Vault,
      registerEvidence (.ascii Runtime.shortDigest) sampleLibrary (fun _ => none)
        Sample.registration .empty Sample.payload (lit "aws.iam") none (some Sample.session) =
          .ok vault' ∧
      verifyExactQuote (.ascii Runtime.shortDigest) sampleLibrary (fun _ => none) vault'
        Sample.registration.vaultId (lit "3 users have no MFA device") (some Sample.session) =
          .ok true := by
  obtain ⟨vault', record, hregister, -, -, -, hown, -⟩ :=
    @register_then_verify (.ascii Runtime.shortDigest) sampleLibrary (fun _ => none)
      Sample.registration .empty Sample.payload (lit "aws.iam") none Sample.session (by decide)
      (by simp) (by decide) ⟨none, rfl⟩
  refine ⟨vault', hregister, ?_⟩
  rw [hown]
  exact congrArg Except.ok (by decide)

/-! ## Two paths -/

/-- The ways evidence is registered for a session. -/
inductive EvidencePath where
  | sessionArgument (source : Str) (metadata : Option (Dict Str Json))
  | importRoute (appVersion sourceFilename uploadedBy identitySource : Str)

namespace EvidencePath

def register (rt : Runtime) (lib : VaultLibrary) (environ : Environ) (path : EvidencePath)
    (reg : Registration) (vault : Vault) (payload s : Str) : Except VaultError Vault :=
  match path with
  | sessionArgument source metadata =>
      registerEvidence rt lib environ reg vault payload source metadata (some s)
  | importRoute appVersion sourceFilename uploadedBy identitySource =>
      importProwlerFindings rt lib environ reg vault payload appVersion s sourceFilename
        uploadedBy identitySource

/-- The texts a path adds to the record can be encoded. -/
def Encodes : EvidencePath → Prop
  | sessionArgument _ metadata => ∀ m ∈ metadata, (Json.obj m).Signable
  | importRoute appVersion sourceFilename uploadedBy identitySource =>
      Encodable appVersion ∧ Encodable sourceFilename ∧ Encodable uploadedBy ∧
        Encodable identitySource

/-- Whether a path stores the session where redaction reaches it. -/
def redactsSession : EvidencePath → Prop
  | sessionArgument _ _ => False
  | importRoute _ _ _ _ => True

end EvidencePath

/-- Evidence with the given text verifies for its own session, and for another one not at all. -/
structure Isolated (rt : Runtime) (lib : VaultLibrary) (environ : Environ) (vault : Vault)
    (vaultId text s s' : Str) : Prop where
  own : ∀ quote, quoteAdmissible quote = true → quote <:+: text →
    verifyExactQuote rt lib environ vault vaultId quote (some s) = .ok true
  other : ∀ quote, verifyExactQuote rt lib environ vault vaultId quote (some s') ≠ .ok true

/-- When a record verifies for its own session, isolation is about the other one. -/
theorem isolated_iff {vault : Vault} {vaultId text s s' : Str} {record : Dict Str Json}
    (huuid : isUuid vaultId = true) (hcites : Cites vault vaultId record)
    (hsealed : Sealed rt lib environ record text)
    (hown : boundElsewhere rt lib record (some s) = false) :
    Isolated rt lib environ vault vaultId text s s' ↔
      boundElsewhere rt lib record (some s') = true ∨ quoteAdmissible text = false := by
  have hverify := verifyExactQuote_of_sealed huuid hcites hsealed
  constructor
  · intro h
    by_contra hnot
    rw [not_or, Bool.not_eq_true, Bool.not_eq_false] at hnot
    apply h.other text
    rw [hverify, hnot.1, hnot.2]
    simp
  · intro h
    constructor
    · intro quote hquote hwithin
      rw [hverify, hown, hquote]
      simp [hwithin]
    · intro quote htrue
      rw [hverify] at htrue
      have hall := of_decide_eq_true (Except.ok.inj htrue)
      rcases h with hbound | hshort
      · rw [hall.2.1] at hbound
        cases hbound
      · rw [quoteAdmissible_of_within hall.1 hall.2.2] at hshort
        cases hshort

theorem signable_importMetadata {appVersion s sourceFilename uploadedBy identitySource : Str}
    (hversion : Encodable appVersion) (hs : Encodable s) (hfilename : Encodable sourceFilename)
    (hby : Encodable uploadedBy) (hidentity : Encodable identitySource) :
    (Json.obj (importMetadata appVersion s sourceFilename uploadedBy identitySource)).Signable := by
  have hkeys : ∀ k ∈ [lit "tool", lit "operation", lit "app_version", lit "parameters",
      lit "session_id", lit "source_filename", lit "uploaded_by", lit "uploaded_by_identity_source",
      lit "import_prowler_findings_file", lit "api_upload"], Encodable k := by decide
  simp only [List.forall_mem_cons] at hkeys
  obtain ⟨htool, hoperation, happ, hparams, hsid, hfile, huploaded, hsource, hfindings, hupload, -⟩ :=
    hkeys
  simp only [importMetadata, Json.signable_obj, Json.signable_str, List.forall_mem_cons,
    List.not_mem_nil, false_implies, implies_true, and_true]
  exact ⟨⟨htool, hfindings⟩, ⟨hoperation, hupload⟩, ⟨happ, hversion⟩, hparams, ⟨hsid, hs⟩,
    ⟨hfile, hfilename⟩, ⟨huploaded, hby⟩, hsource, hidentity⟩

/-- The record a path writes, and the session it is bound to. -/
theorem EvidencePath.register_sealed (path : EvidencePath) (reg : Registration) (vault : Vault)
    (payload s : Str) (hpayload : Encodable payload) (hpath : path.Encodes)
    (hs : isUuid s = true) (hkey : (getFernet environ).Returns) :
    ∃ (vault' : Vault) (record : Dict Str Json),
      path.register rt lib environ reg vault payload s = .ok vault' ∧
      Cites vault' reg.vaultId record ∧
      Sealed rt lib environ record (redactAccountIds lib payload) ∧
      ((¬ path.redactsSession ∧ recordSessionId rt record = some s) ∨
        (path.redactsSession ∧ recordSessionId rt record = some (redactAccountIds lib s))) := by
  have hencodes := encodable_of_isUuid hs
  cases path with
  | sessionArgument source metadata =>
      have hsid : ∀ sid ∈ some s, Encodable sid := by
        intro sid hsid
        obtain rfl := Option.some.inj hsid
        exact hencodes
      obtain ⟨vault', record, hregister, hcites, hsealed, hget⟩ := registerEvidence_sealed reg
        vault payload source metadata (some s) hpayload hpath hsid hkey
      exact ⟨vault', record, hregister, hcites, hsealed,
        .inl ⟨id, recordSessionId_argument (isUuid_ne_nil hs) hget⟩⟩
  | importRoute appVersion sourceFilename uploadedBy identitySource =>
      obtain ⟨hversion, hfilename, hby, hidentity⟩ := hpath
      have hmetadata : ∀ m ∈ some (importMetadata appVersion s sourceFilename uploadedBy
          identitySource), (Json.obj m).Signable := by
        intro m hm
        obtain rfl := Option.some.inj hm
        exact signable_importMetadata hversion hencodes hfilename hby hidentity
      obtain ⟨vault', record, hregister, hcites, hsealed, hget⟩ := registerEvidence_sealed reg
        vault payload (lit "prowler.findings_import.api_upload") _ none hpayload hmetadata
        (by simp) hkey
      exact ⟨vault', record, hregister, hcites, hsealed,
        .inr ⟨trivial, recordSessionId_import (redactAccountIds_ne_nil hs) hget⟩⟩

/-- Evidence registered for a session is isolated from another one exactly when it is bound to the
session itself, or the two sessions differ in their redactions, or there is nothing to quote. -/
theorem registered_isolated_iff (path : EvidencePath) (reg : Registration) (vault : Vault)
    (payload s s' : Str) (hpayload : Encodable payload) (hpath : path.Encodes)
    (hs : isUuid s = true) (hs' : isUuid s' = true) (hne : s ≠ s')
    (hkey : (getFernet environ).Returns) :
    ∃ vault' : Vault, path.register rt lib environ reg vault payload s = .ok vault' ∧
      (Isolated rt lib environ vault' reg.vaultId (redactAccountIds lib payload) s s' ↔
        (path.redactsSession → redactAccountIds lib s ≠ redactAccountIds lib s' ∨
          quoteAdmissible (redactAccountIds lib payload) = false)) := by
  obtain ⟨vault', record, hregister, hcites, hsealed, hbound⟩ :=
    path.register_sealed reg vault payload s hpayload hpath hs hkey
  refine ⟨vault', hregister, ?_⟩
  rcases hbound with ⟨hpath, hbound⟩ | ⟨hpath, hbound⟩
  · have hown : boundElsewhere rt lib record (some s) = false := by
      rw [boundElsewhere_argument hs hs hbound]
      simp
    rw [isolated_iff reg.isUuid_vaultId hcites hsealed hown,
      boundElsewhere_argument hs hs' hbound]
    simp [hpath, hne.symm]
  · have hown : boundElsewhere rt lib record (some s) = false := by
      rw [boundElsewhere_import hs hs hbound]
      simp
    rw [isolated_iff reg.isUuid_vaultId hcites hsealed hown,
      boundElsewhere_import hs hs' hbound]
    simp [hpath]

theorem registered_isolated_argument :
    ∃ vault' : Vault,
      (EvidencePath.sessionArgument (lit "aws.iam") none).register (.ascii Runtime.shortDigest)
        sampleLibrary (fun _ => none) Sample.registration .empty Sample.payload Sample.session =
          .ok vault' ∧
      Isolated (.ascii Runtime.shortDigest) sampleLibrary (fun _ => none) vault'
        Sample.registration.vaultId (redactAccountIds sampleLibrary Sample.payload)
        Sample.session Sample.otherSession := by
  obtain ⟨vault', hregister, hiff⟩ :=
    @registered_isolated_iff (.ascii Runtime.shortDigest) sampleLibrary (fun _ => none)
      (.sessionArgument (lit "aws.iam") none) Sample.registration .empty Sample.payload
      Sample.session Sample.otherSession (by decide) (by simp [EvidencePath.Encodes]) (by decide)
      (by decide) (by decide) ⟨none, rfl⟩
  exact ⟨vault', hregister, hiff.mpr fun h => h.elim⟩

/-- The record of an import for one session verifies for another one with the same redaction. -/
theorem import_verifies_for_other_session :
    ¬ ∀ s s' : Str, isUuid s = true → isUuid s' = true → s ≠ s' →
      ∃ vault' : Vault,
        (EvidencePath.importRoute (lit "1.0") (lit "prowler.json") (lit "Ana") (lit "typed")).register
          (.ascii Runtime.shortDigest) sampleLibrary (fun _ => none) Sample.registration .empty
          Sample.payload s = .ok vault' ∧
        Isolated (.ascii Runtime.shortDigest) sampleLibrary (fun _ => none) vault'
          Sample.registration.vaultId (redactAccountIds sampleLibrary Sample.payload) s s' := by
  intro h
  have hs : isUuid Sample.session = true := by decide
  have hs' : isUuid Sample.otherSession = true := by decide
  obtain ⟨vault', hregister, hisolated⟩ :=
    h Sample.session Sample.otherSession hs hs' (by decide)
  have hencodes : (EvidencePath.importRoute (lit "1.0") (lit "prowler.json") (lit "Ana")
      (lit "typed")).Encodes := by
    unfold EvidencePath.Encodes
    decide
  obtain ⟨vault'', record, hregister', hcites, hsealed, hbound⟩ :=
    @EvidencePath.register_sealed (.ascii Runtime.shortDigest) sampleLibrary (fun _ => none) _
      Sample.registration .empty Sample.payload Sample.session (by decide) hencodes hs ⟨none, rfl⟩
  obtain rfl := Except.ok.inj (hregister.symm.trans hregister')
  have hredacted := (hbound.resolve_left fun hnot => hnot.1 trivial).2
  have hown := boundElsewhere_import hs hs hredacted
  have hother := boundElsewhere_import hs hs' hredacted
  have hsame : redactAccountIds sampleLibrary Sample.session =
      redactAccountIds sampleLibrary Sample.otherSession := by decide
  rw [isolated_iff Sample.registration.isUuid_vaultId hcites hsealed (by rw [hown]; simp),
    hother] at hisolated
  rcases hisolated with hbound | hshort
  · simp [hsame] at hbound
  · exact absurd hshort (by decide)

end Evidence

end AuditSwarm
