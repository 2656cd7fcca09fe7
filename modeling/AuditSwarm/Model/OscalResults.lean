import AuditSwarm.Model.OscalRisks

/-!
# Assembly of the assessment results

Observations and findings of `build_assessment_results`, the assessment log, the roles and
parties, and the document.
-/

namespace AuditSwarm

open Python
open StrEnum (value)
open Decisions (DecisionRef FindingView FindingConclusions)

namespace Oscal

variable (rt : Runtime) (lib : OscalLibrary) (inp : Inputs)

/-! ## Observations -/

/-- `_llm_narratives`: the first text on each subject. -/
def llmNarratives (report : FinalReportSchema) : Dict Str Str :=
  let observations := ((report.oscalSar.map (·.results)).getD []).flatMap (·.observations)
  let pairs := observations.flatMap fun o => o.subjects.map fun s => (s, o.description)
  (pairs.filter fun p => oneLine p.2 ≠ []).foldl (fun out p => out.setDefault p.1 p.2) []

def methods (record : FindingConclusions) : List Str :=
  let tested :=
    (if record.todConclusion ≠ value DesignConclusion.notTested then [lit "EXAMINE"] else []) ++
      (if record.toeConclusion ≠ value OperatingConclusion.notTested then [lit "TEST"] else [])
  if tested = [] then [lit "EXAMINE"] else tested

def viewOf (f : AuditFindingSchema) : Option FindingView := inp.view.bind (·.finding f.controlId)

/-- The conclusions of record of a finding of the inputs. -/
def recordOf (f : AuditFindingSchema) : FindingConclusions := conclusionsOfRecord inp.view f

def countText (n : Option Nat) : Except LintError Str :=
  match n with
  | none => .ok []
  | some n => Linters.textOfNat n

def reviewProps (f : AuditFindingSchema) : Except LintError (List Property) :=
  match viewOf inp f with
  | none => .ok []
  | some fv => do
      let reviewedAt ← valueTime rt lib (fv.review.map (·.decidedAt))
      let status := fv.reviewStatus.map fun c => if c = 95 then 45 else c
      return props [(lit "reviewer-sign-off", status)] ++
        (match fv.review with
        | none => []
        | some r => props [(lit "reviewed-by", r.decidedBy),
            (lit "reviewed-at", timeText reviewedAt),
            (lit "reviewer-identity-source", r.identitySource)]) ++
        (if fv.scopeLimitation.isSome then props [(lit "scope-limitation", lit "true")] else [])

def draftProps (f : AuditFindingSchema) : List Property :=
  if (viewOf inp f).any (·.differsFromDraft) then
    let draft := Decisions.draftConclusions f
    props [(lit "ai-draft-tod-conclusion", draft.todConclusion),
      (lit "ai-draft-toe-conclusion", draft.toeConclusion),
      (lit "ai-draft-result", (f.result.map value).getD [])]
  else []

def observationProps (f : AuditFindingSchema) (isFallback : Bool) (review : List Property) :
    Except LintError (List Property) := do
  let record := recordOf inp f
  let items ← countText f.itemsTested
  let exceptions ← countText f.exceptionsNoted
  return props [(lit "control-id", f.controlId), (lit "tod-conclusion", record.todConclusion),
      (lit "toe-conclusion", record.toeConclusion), (lit "result", record.result),
      (lit "items-tested", items), (lit "exceptions-noted", exceptions),
      (lit "preliminary-deficiency", yesNo (preliminaryOfRecord inp.view f)),
      (lit "legacy-severity", f.legacySeverity.getD [])] ++
    (if isFallback then props [(lit "collected-is-fallback", lit "true")] else []) ++
    draftProps inp f ++ review

def reviewRemarks (f : AuditFindingSchema) : List Str :=
  match viewOf inp f with
  | none => []
  | some fv =>
      (fv.review.toList.filter (·.rationale ≠ [])).map (fun r =>
        (if fv.reviewStatus = lit "challenged" then lit "Reviewer challenge"
          else lit "Reviewer sign-off") ++ lit " by " ++ oneLine r.decidedBy ++ lit " (" ++
          r.identitySource ++ lit " identity): " ++ r.rationale) ++
      fv.scopeLimitation.toList.map fun r =>
        lit "Reported as a scope limitation by " ++ oneLine r.decidedBy ++ lit " (" ++
          r.identitySource ++ lit " identity): " ++ r.rationale

/-- The remarks of an observation before the narrative of the reporting crew. -/
def recordedRemarks (f : AuditFindingSchema) (isFallback : Bool) : List Str :=
  (if isFallback then
    [lit ("Notice: Evidence collection timestamp was not recorded in vault; " ++
      "observation 'collected' timestamp is a fallback to engagement " ++
      "gate/modification time.")] else []) ++
  reviewRemarks inp f ++
  (if oneLine (f.toeBasis.getD []) = [] then []
    else [lit "Basis for the ToE conclusion: " ++ f.toeBasis.getD []]) ++
  (if (recordOf inp f).result = value FindingResult.notTested then
    [lit ("Not tested: no evidence covered this control. OSCAL finding " ++
      "targets are only 'satisfied' or 'not-satisfied', so this " ++
      "observation has no finding; the result prop records it.")] else [])

def observationRemarks (f : AuditFindingSchema) (isFallback : Bool) : List Str :=
  recordedRemarks inp f isFallback ++
    ((llmNarratives inp.report).get? f.controlId).toList.map fun text =>
      lit "Reporting-crew narrative (model-drafted): " ++ text

/-- Whether the quote of a finding is in the vault, when that is checked. -/
def quoteVerified (f : AuditFindingSchema) (vid : Str) : Except LintError (Option Bool) :=
  match inp.verifyQuote with
  | none => .ok none
  | some verify =>
      if f.exactQuoteFromEvidence = [] then .ok none
      else (verify vid f.exactQuoteFromEvidence).map some

def relevantEvidence (found : Option EvidenceMeta) (f : AuditFindingSchema) :
    Except LintError (List RelevantEvidence) :=
  let vid := oneLine f.vaultIdReference
  if vid = [] then .ok []
  else do
    let verified ← quoteVerified inp f vid
    let source := (found.map EvidenceMeta.source).getD []
    let quote := oneLine f.exactQuoteFromEvidence
    return [{
      href := lit "#" ++ evidenceUuid lib inp vid
      description := inp.markup (lit "Evidence vault record " ++ vid ++
        (if source = [] then [] else lit " (" ++ source ++ lit ")") ++
        (if quote = [] then [] else lit ". Quoted in the working paper: “" ++ quote ++ lit "”"))
      props := props [(lit "vault-id", vid), (lit "quote-verified-in-vault", yesNo verified)] }]

/-- The times an observation falls back on. -/
structure Times where
  lastModified : Timestamp
  gate2 : Option Timestamp
  evidence : List Timestamp

/-- `collected`, when the vault does not say. -/
def Times.fallback (t : Times) : Timestamp :=
  firstTime [t.gate2, Timestamp.latest t.evidence] t.lastModified

def observation (times : Times) (found : Dict Str (Option EvidenceMeta)) (f : AuditFindingSchema)
    (key : Str) : Except LintError Observation := do
  let cited := (found.get? (oneLine f.vaultIdReference)).getD none
  let collected := cited.bind (·.collected)
  let record := recordOf inp f
  let review ← reviewProps rt lib inp f
  let ofFinding ← observationProps inp f collected.isNone review
  let evidence ← relevantEvidence lib inp cited f
  let remarks := observationRemarks inp f collected.isNone
  return {
    uuid := observationUuid lib inp key
    title := inp.markup (oneLine f.controlId ++ lit " — ToD " ++ record.todConclusion ++
      lit "; ToE " ++ record.toeConclusion)
    description := inp.markup f.testConclusion
    props := ofFinding
    methods := methods record
    types := [lit "control-objective"]
    origins := [platformOrigin lib inp]
    subjects := [(componentUuid lib inp, lit "component")]
    collected := collected.getD times.fallback
    relevantEvidence := evidence
    remarks := if remarks = [] then none else some (inp.markup (join (lit "\n\n") remarks)) }

def keyedFindings : List (AuditFindingSchema × Str) := inp.papers.findings.zip (findingKeys inp)

def observations (times : Times) (found : Dict Str (Option EvidenceMeta)) :
    Except LintError (List Observation) :=
  (keyedFindings inp).mapM fun fk => observation rt lib inp times found fk.1 fk.2

/-- The names the observations add to the reviewers, in order. -/
def findingReviewers (f : AuditFindingSchema) : List Str :=
  ((viewOf inp f).toList.flatMap fun fv => fv.review.toList ++ fv.scopeLimitation.toList).map
    fun r => oneLine r.decidedBy

/-! ## Findings -/

def documentFinding (f : AuditFindingSchema) (a : AssessedFinding) (review : List Property) :
    Finding where
  uuid := findingUuid lib inp a.key
  title := inp.markup (oneLine f.controlId ++ lit ": " ++ a.result)
  description := inp.markup f.testConclusion
  props := props [(lit "result", a.result),
    (lit "preliminary-deficiency", a.preliminaryDeficiency)] ++ review
  target := {
    type := lit "objective-id"
    targetId := token a.controlId
    title := inp.markup (lit "RACM control " ++ oneLine f.controlId)
    status := { a.status with remarks := a.status.remarks.map inp.markup } }
  relatedObservations := [observationUuid lib inp a.key]
  relatedRisks := relatedRisks lib inp f.controlId

/-- The finding of one finding of the working papers, if it was tested. -/
def findingOf (f : AuditFindingSchema) (key : Str) : Except LintError (Option Finding) :=
  match assessedFinding inp.view f key with
  | none => .ok none
  | some a => (reviewProps rt lib inp f).map fun review => some (documentFinding lib inp f a review)

def documentFindings : Except LintError (List Finding) := do
  let found ← (keyedFindings inp).mapM fun fk => findingOf rt lib inp fk.1 fk.2
  return found.reduceOption

/-! ## Assessment log, roles and parties -/

def entryLine (e : Entry) (field : String) : Str := Linters.line rt (e.get? (lit field))

def preparer : Str :=
  if oneLine inp.preparedBy ≠ [] then oneLine inp.preparedBy
  else ((inp.trail.find? fun e => Trail.fieldIs e (lit "action") (lit "audit_created")).map
    fun e => entryLine rt e "human").getD []

def entryDetails (e : Entry) : List Str :=
  ([("notes", "Review notes"), ("reason", "Reason"),
      ("qa_rejection_reason", "QA rejection overridden"),
      ("previous_status", "Previous status"),
      ("unverified_controls", "Unverified controls accepted")].filter fun kl =>
        entryLine rt e kl.1 ≠ []).map fun kl =>
    lit kl.2 ++ lit ": " ++ ((e.get? (lit kl.1)).map rt.textOf).getD []

def logEntry (modified : Timestamp) (i : Nat) (e : Entry) (time : Option Timestamp) :
    AssessmentLogEntry :=
  let human := entryLine rt e "human"
  let action := entryLine rt e "action"
  { uuid := elementUuid lib inp [lit "log", decimal i]
    title := inp.markup (if entryLine rt e "gate" ≠ [] then entryLine rt e "gate"
      else if action ≠ [] then action else lit "Trail entry")
    start := time.getD modified
    props := props ([("trail-action", "action"), ("artifact", "artifact"),
      ("artifact-digest", "artifact_digest"), ("trail-hash-alg", "hash_alg"),
      ("trail-entry-hash", "entry_hash"), ("trail-prev-hash", "prev_hash"),
      ("decision-id", "decision_id"), ("decision-digest", "decision_digest"),
      ("decision-type", "decision_type"), ("decision-subject", "subject"),
      ("supersedes-decision", "supersedes"), ("decisions-digest", "decisions_digest"),
      ("identity-source", "identity_source")].map fun nf => (lit nf.1, entryLine rt e nf.2))
    description := inp.markup (join (lit "\n\n")
      (((if action = [] then lit "action" else action) ++ lit " by " ++
        (if human = [] then lit "unknown" else human)) :: entryDetails rt e))
    loggedBy := if human = [] then none else some (partyUuid lib inp human) }

def logEntriesFrom (modified : Timestamp) :
    Nat → List (Entry × Option Timestamp) → List AssessmentLogEntry
  | _, [] => []
  | i, et :: rest => logEntry rt lib inp modified i et.1 et.2 :: logEntriesFrom modified (i + 1) rest

def humans (trail : List Entry) : List Str :=
  (trail.map fun e => entryLine rt e "human").filter (· ≠ [])

def gateApprovers : List Str :=
  humans rt (inp.trail.filter fun e => entryLine rt e "action" = lit "gate_approval")

def reportApprovers : List Str :=
  humans rt (inp.trail.filter fun e => entryLine rt e "action" = lit "gate_approval" &&
    Trail.fieldIs e (lit "artifact") (lit "final_report"))

def conclusionOf : Option DecisionRef := inp.view.bind (·.engagementConclusion)

/-- `reviewers`, once the engagement conclusion has been added. -/
def reviewers : List Str :=
  inp.report.deficiencyEvaluations.flatMap (riskReviewers inp) ++
    inp.papers.findings.flatMap (findingReviewers inp) ++
    (conclusionOf inp).toList.map fun c => oneLine c.decidedBy

/-- The roles with their titles and the names they are given to. -/
def roleNames : List (Role × List Str) :=
  ([(⟨lit "prepared-by", lit "Preparer (created the audit)"⟩, [preparer rt inp]),
    (⟨lit "gate-approver", lit "Gate approver (Planning, Fieldwork or Reporting)"⟩,
      gateApprovers rt inp),
    (⟨lit "content-approver", lit "Report approver (Gate 3)"⟩, reportApprovers rt inp),
    (⟨lit "reviewer", lit "Recorded reviewer decisions (or transcribed a management response)"⟩,
      reviewers inp)].map fun rn => (rn.1, fromKeys (rn.2.filter (· ≠ [])))).filter fun rn =>
    rn.2 ≠ []

/-- The names `uuid_for` is called with, in order. -/
def partyCalls : List Str :=
  inp.report.deficiencyEvaluations.flatMap (riskParties inp) ++
    [preparer rt inp].filter (· ≠ []) ++ humans rt inp.trail ++
    (roleNames rt inp).flatMap (·.2) ++ (conclusionOf inp).toList.map (·.decidedBy)

def partyNames : List Str := (partyCalls rt inp).foldl registerParty []

def identitySources (name : Str) : List Str :=
  (inp.trail.filter fun e => entryLine rt e "human" = name && entryLine rt e "human" ≠ []).map
    fun e => if entryLine rt e "identity_source" = [] then lit "declared"
      else entryLine rt e "identity_source"

def partyRemarks (sources : List Str) : Str :=
  let log := lit " See the hash-chained assessment log for what this party did."
  if sources ≠ [] ∧ ∀ s ∈ sources, s = lit "authenticated" then
    lit ("Identity authenticated by a per-reviewer token issued for this " ++
      "application (not single sign-on, no MFA).") ++ log
  else if lit "authenticated" ∈ sources then
    lit ("Some of this party's actions were authenticated by a per-reviewer " ++
      "token (not single sign-on, no MFA), others used a declared name; " ++
      "each assessment-log entry says which.") ++ log
  else
    lit ("Declared identity as entered in the application. The API did not " ++
      "authenticate this reviewer.") ++ log

/-- `as_oscal` -/
def parties : List Party :=
  (partyNames rt inp).map fun name => {
    uuid := elementUuid lib inp [lit "party", name]
    type := lit "person"
    name := name
    remarks := partyRemarks (identitySources rt inp name) }

def responsibleParty (rn : Role × List Str) : ResponsibleParty :=
  ⟨rn.1.id, rn.2.map (partyUuid lib inp)⟩

/-! ## Document -/

def projectNs : Str := lit "https://github.com/tvobrachini/grc-audit-swarm/ns/oscal"

/-- `conclusion.values.get("conclusion")`, as a f-string writes it. -/
def conclusionText (c : DecisionRef) : Str := valueText c.values "conclusion"

def attestations : Except LintError (List Attestation) :=
  match conclusionOf inp with
  | none => .ok []
  | some c => do
      let decided ← decidedProps rt lib (some c) []
      return [{
        responsibleParties := [⟨lit "reviewer", [partyUuid lib inp c.decidedBy]⟩]
        parts := [{
          uuid := elementUuid lib inp [lit "engagement-conclusion"]
          name := lit "engagement-conclusion"
          title := inp.markup (lit "Engagement conclusion: " ++ valueLine c.values "conclusion")
          props := decided
          prose := inp.markup (conclusionText c ++
            lit " — the reviewer's conclusion on the engagement, recorded by " ++
            oneLine c.decidedBy ++ lit " (" ++ c.identitySource ++ lit " identity) on " ++
            (oneLine c.decidedAt).take 10 ++ lit ".\n\n" ++ c.rationale) }] }]

def resultProps : Except LintError (List Property) :=
  match conclusionOf inp with
  | none => .ok (props [(lit "deficiency-scale", scaleText inp)])
  | some c => do
      let decided ← decidedProps rt lib (some c) (lit "engagement-conclusion-")
      return props [(lit "deficiency-scale", scaleText inp)] ++
        props [(lit "engagement-conclusion", c.values.getD (lit "conclusion") [])] ++ decided

def resultRemarks : Str :=
  lit ("Observations: one per working-paper finding. Findings: one per " ++
    "tested control; a control concluded 'Not tested' has an observation " ++
    "but no finding. Test-of-design / operating-effectiveness conclusions " ++
    "and deficiency classifications are props in the namespace ") ++ projectNs ++
  lit (". Methods: EXAMINE marks a design and implementation conclusion, TEST an " ++
    "operating-effectiveness conclusion over the period.") ++
  (if inp.view.isSome then
    lit (" Reviewer decisions: each risk's classification prop is the " ++
      "conclusion of record (classification-source says whether it is the " ++
      "reviewer's decision or the AI draft; ai-draft-classification keeps " ++
      "the draft); observations and findings carry reviewer-sign-off.") else [])

def version : Str :=
  lit "sha256-" ++ (lib.digest inp.report inp.papers inp.racm inp.decisions).take 16

/-- The title of the document: that of the report, else one made from the session's name. -/
def documentTitle : Str :=
  inp.markup (lineOr ((inp.report.oscalSar.map (·.metadata.title)).getD [])
    (lit "Audit results — " ++ oneLine inp.sessionName))

def metadata (modified : Timestamp) : Metadata where
  title := documentTitle inp
  lastModified := modified
  version := version lib inp
  oscalVersion := lit "1.2.1"
  props := props [(lit "session-id", inp.sessionId), (lit "session-status", inp.sessionStatus),
    (lit "report-state", inp.reportState)]
  roles := (roleNames rt inp).map (·.1)
  parties := parties rt lib inp
  responsibleParties := (roleNames rt inp).map (responsibleParty lib inp)
  remarks := inp.markup (lit "Report state: " ++ inp.reportState ++
    lit (". Generated by GRC Audit Swarm from the " ++
      "gate-reviewed RACM, working papers and report of this session. The " ++
      "content was drafted by LLM agents and reviewed by the people recorded " ++
      "in the assessment log. last-modified is the time of the latest " ++
      "approval-trail entry, not the export time; version is a digest of the " ++
      "source artifacts."))

/-- The parts of the document that reading the recorded times can fail on. -/
structure Parts where
  times : Times
  trailTimes : List (Option Timestamp)
  evidence : Dict Str (Option EvidenceMeta)
  risks : List DocumentRisk
  observations : List Observation
  findings : List Finding
  resultProps : List Property
  attestations : List Attestation

def parts : Except LintError Parts := do
  let trailTimes ← trailTimes rt lib inp
  let modified ← lastModified rt lib inp trailTimes.reduceOption
  let gate2 ← gate2Time rt lib inp
  let evidence ← evidenceMeta inp
  let times : Times := ⟨modified, gate2, evidenceTimes evidence⟩
  let risks ← documentRisks rt lib inp modified
  let observations ← observations rt lib inp times evidence
  let findings ← documentFindings rt lib inp
  let ofResult ← resultProps rt lib inp
  let attestations ← attestations rt lib inp
  return ⟨times, trailTimes, evidence, risks, observations, findings, ofResult, attestations⟩

def assessmentResult (p : Parts) (controls : ReviewedControls) : AssessmentResult where
  uuid := elementUuid lib inp [lit "result"]
  title := inp.markup (lit "Audit results — " ++ lineOr inp.theme (oneLine inp.sessionName))
  description := inp.markup inp.report.executiveSummary
  start := firstTime [Timestamp.earliest p.times.evidence, p.trailTimes.reduceOption.head?]
    p.times.lastModified
  stop := Timestamp.latest p.times.evidence
  props := p.resultProps
  localDefinitions := localDefinitions lib inp
  reviewedControls := controls
  attestations := p.attestations
  assessmentLog := logEntriesFrom rt lib inp p.times.lastModified 0 (inp.trail.zip p.trailTimes)
  observations := p.observations
  risks := p.risks
  findings := p.findings
  remarks := inp.markup (resultRemarks inp)

def documentOf (p : Parts) (controls : ReviewedControls) : Document where
  uuid := elementUuid lib inp [lit "assessment-results"]
  metadata := metadata rt lib inp p.times.lastModified
  importAp := {
    href := lit "#" ++ planUuid lib inp
    remarks := inp.markup (lit ("No OSCAL assessment plan document exists. This reference " ++
      "resolves to a back-matter resource describing the RACM, " ++
      "which served as the assessment plan.")) }
  localDefinitions := objectivesAndMethods inp
  results := [assessmentResult rt lib inp p controls]
  resources := resources lib inp p.evidence

def buildAssessmentResults : Except OscalError Document := do
  let p ← (parts rt lib inp).mapError OscalError.other
  let controls ← reviewedControls rt lib inp
  return documentOf rt lib inp p controls

end Oscal

end AuditSwarm
