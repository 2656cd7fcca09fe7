import AuditSwarm.Model.OscalBuilder

/-!
# Risks of the assessment results

The risk of `build_assessment_results` for each deficiency evaluation of the report.
-/

namespace AuditSwarm

open Python
open StrEnum (value)
open Decisions (DecisionRef DeficiencyView Classification)

namespace Oscal

variable (rt : Runtime) (lib : OscalLibrary) (inp : Inputs)

def obsOfControl (controlId : Str) : List Str :=
  ((inp.papers.findings.zip (findingKeys inp)).filter fun fk => fk.1.controlId = controlId).map
    fun fk => observationUuid lib inp fk.2

/-- `related_obs`, each once. -/
def relatedObservations (e : DeficiencyEvaluationSchema) : List Str :=
  fromKeys (e.relatedFindings.flatMap (obsOfControl lib inp))

def draftOf (e : DeficiencyEvaluationSchema) : Classification :=
  ⟨value e.classification, value e.likelihood, value e.magnitude⟩

/-- The classification of record: that of the view of the deficiency, if there is one. -/
def classificationOfRecord (dv : Option DeficiencyView) (e : DeficiencyEvaluationSchema) :
    Classification :=
  match dv with
  | some v => v.effective
  | none => draftOf e

def scaleText : Str := oneLine ((inp.report.deficiencyScale.map value).getD [])

def scaleOrUnstated : Str :=
  if scaleText inp = [] then lit "scale not stated" else scaleText inp

/-- `state`, `statement` and `classification_state` of a risk. -/
structure RiskTexts where
  state : Str
  statement : Str
  classificationState : Str

/-- The texts of a risk whose classification a reviewer decided. -/
def decidedTexts (dv : DeficiencyView) (ref : DecisionRef) (e : DeficiencyEvaluationSchema) :
    RiskTexts where
  state := lit "Classification of record: decided by " ++ oneLine ref.decidedBy ++ lit " (" ++
    ref.identitySource ++ lit " identity) on " ++ (oneLine ref.decidedAt).take 10 ++
    (if inp.approved then lit "; the report was approved at Gate 3."
      else lit "; the report awaits Gate 3 approval.") ++
    (if dv.differsFromDraft then lit " AI draft: " ++ value e.classification ++
      lit " (likelihood " ++ value e.likelihood ++ lit ", magnitude " ++ value e.magnitude ++ lit ")."
      else [])
  statement := lit "Likelihood " ++ dv.effective.likelihood ++ lit ", magnitude " ++
    dv.effective.magnitude ++ lit ". Classification of record: " ++ dv.effective.classification ++
    lit " (" ++ scaleOrUnstated inp ++ lit "), reviewer decision. Reviewer rationale: " ++
    (if ref.rationale = [] then lit "agrees with the AI draft." else ref.rationale) ++
    lit " AI draft (" ++ value e.classification ++ lit ") rationale: " ++ e.rationale
  classificationState := lit "reviewer-decision"

/-- The texts of a risk whose classification is the draft's. -/
def draftedTexts (e : DeficiencyEvaluationSchema) : RiskTexts where
  state := if inp.approved then
      lit ("Proposed by the reporting crew and approved with the report at " ++
        "Gate 3; see the assessment log.")
    else lit ("DRAFT proposed by the reporting crew for the auditor's " ++
      "judgement at Gate 3 — not a final conclusion.")
  statement := lit "Likelihood " ++ value e.likelihood ++ lit ", magnitude " ++ value e.magnitude ++
    lit ". Proposed classification: " ++ value e.classification ++ lit " (" ++
    scaleOrUnstated inp ++ lit "). Rationale: " ++ e.rationale
  classificationState := if inp.approved then lit "approved-with-report" else lit "draft"

def riskTexts (dv : Option DeficiencyView) (e : DeficiencyEvaluationSchema) : RiskTexts :=
  match dv with
  | none => draftedTexts inp e
  | some v =>
      match v.classificationDecision with
      | none => draftedTexts inp e
      | some ref => decidedTexts inp v ref e

def valueLine (values : Dict Str Str) (k : String) : Str := oneLine (values.getD (lit k) [])

/-- A value of a decision as a f-string writes it. -/
def valueText (values : Dict Str Str) (k : String) : Str :=
  (values.get? (lit k)).getD (lit "None")

/-- The write-up of a reviewer, under the description of the risk. -/
def writeupText (w : DecisionRef) : Str :=
  lit "\n\nFinding write-up by " ++ oneLine w.decidedBy ++ lit " (" ++ w.identitySource ++
    lit " identity):\n\n" ++ join (lit "\n")
      ([("Criteria", "criteria"), ("Condition", "condition"), ("Cause", "cause"),
          ("Effect", "effect")].map fun p =>
        lit "- " ++ lit p.1 ++ lit ": " ++ valueLine w.values p.2)

def riskDescription (dv : Option DeficiencyView) (e : DeficiencyEvaluationSchema) : Str :=
  (riskTexts inp dv e).state ++ lit "\n\nFindings evaluated together: " ++
    join (lit ", ") e.relatedFindings ++ lit ". RACM risks affected: " ++
    (if join (lit ", ") e.relatedRisks = [] then lit "none listed"
      else join (lit ", ") e.relatedRisks) ++
    lit ".\n\nCompensating controls considered: " ++ e.compensatingControls ++
    ((dv.bind DeficiencyView.writeup).map writeupText).getD []

def viewProps (dv : DeficiencyView) (e : DeficiencyEvaluationSchema) :
    Except LintError (List Property) := do
  let decided ← decidedProps rt lib dv.classificationDecision []
  return props [(lit "classification-source",
      if dv.classificationDecision.isSome then lit "reviewer" else lit "ai-draft"),
      (lit "ai-draft-classification", value e.classification)] ++
    (if dv.differsFromDraft then props [(lit "ai-draft-likelihood", value e.likelihood),
      (lit "ai-draft-magnitude", value e.magnitude)] else []) ++ decided

/-- The props of a risk, up to its RACM risks. -/
def classificationProps (dv : Option DeficiencyView) (e : DeficiencyEvaluationSchema) :
    List Property :=
  let record := classificationOfRecord dv e
  props [(lit "deficiency-id", e.deficiencyId), (lit "classification", record.classification),
    (lit "deficiency-scale", scaleText inp),
    (lit "classification-state", (riskTexts inp dv e).classificationState),
    (lit "likelihood", record.likelihood), (lit "magnitude", record.magnitude)]

def racmRiskProps (e : DeficiencyEvaluationSchema) : List Property :=
  (e.relatedRisks.filter fun r => oneLine r ≠ []).map fun r => prop (lit "racm-risk-id") r

/-- `deadline`: the target date of management's response. -/
def riskDeadline (response : Option DecisionRef) : Except LintError (Option Timestamp) :=
  match response.bind fun r => r.values.get? (lit "target_date") with
  | none => .ok none
  | some d => if d = [] then .ok none else textTime rt lib d

def recommendation (key : Str) (writeup : Option DecisionRef) :
    Except LintError (List Remediation) :=
  match writeup with
  | none => .ok []
  | some w =>
      if valueLine w.values "recommendation" = [] then .ok []
      else do
        let decided ← decidedProps rt lib (some w) []
        return [{
          uuid := ofRiskUuid lib inp "recommendation" key
          lifecycle := lit "recommendation"
          title := inp.markup (lit "Auditor's recommendation")
          description := inp.markup (valueText w.values "recommendation")
          props := decided
          origins := reviewerOrigin lib inp (some w) }]

def responseProps (response : DecisionRef) : Except LintError (List Property) := do
  let v := response.values
  let transcribed ← textTime rt lib response.decidedAt
  return props [(lit "management-agreement", v.getD (lit "agreement") []),
      (lit "action-owner-role", v.getD (lit "action_owner_role") []),
      (lit "target-date", v.getD (lit "target_date") []),
      (lit "received-from", v.getD (lit "received_from") []),
      (lit "received-on", v.getD (lit "received_on") [])] ++
    props [(lit "transcribed-by", response.decidedBy),
      (lit "transcribed-at", timeText transcribed),
      (lit "identity-source", response.identitySource),
      (lit "decision-id", response.decisionId)]

def actionPlan (key : Str) (response : Option DecisionRef) : Except LintError (List Remediation) :=
  match response with
  | none => .ok []
  | some r => do
      let ofResponse ← responseProps rt lib r
      return if valueText r.values "agreement" = lit "agree" ∨
          valueText r.values "agreement" = lit "partial" then
        [{
          uuid := ofRiskUuid lib inp "action-plan" key
          lifecycle := lit "planned"
          title := inp.markup (lit "Management action plan")
          description := inp.markup (r.values.getD (lit "text") [])
          props := ofResponse
          origins := [] }]
      else []

def firstTime (times : List (Option Timestamp)) (fallback : Timestamp) : Timestamp :=
  (times.findSome? id).getD fallback

def responseLog (modified : Timestamp) (key : Str) (response : Option DecisionRef) :
    Except LintError (List RiskLogEntry) :=
  match response with
  | none => .ok []
  | some r => do
      let v := r.values
      let ofResponse ← responseProps rt lib r
      let received ← valueTime rt lib (v.get? (lit "received_on"))
      let decided ← textTime rt lib r.decidedAt
      return [{
        uuid := ofRiskUuid lib inp "management-response" key
        title := inp.markup (lit "Management response")
        description := inp.markup (lit "Management response (" ++ valueText v "agreement" ++
          lit "), received from " ++ valueLine v "received_from" ++ lit " on " ++
          valueLine v "received_on" ++ lit " and transcribed by " ++ oneLine r.decidedBy ++
          lit " (" ++ r.identitySource ++ lit " identity):\n\n" ++ v.getD (lit "text") [] ++
          (if r.rationale = [] then []
            else lit "\n\nAuditor's " ++
              (if valueText v "agreement" = lit "disagree" then lit "rebuttal" else lit "note") ++
              lit ": " ++ r.rationale))
        start := firstTime [received, decided] modified
        props := ofResponse }]

def verificationLog (modified : Timestamp) (key : Str) (verification : Option DecisionRef) :
    Except LintError (List RiskLogEntry) :=
  match verification with
  | none => .ok []
  | some r => do
      let v := r.values
      let byReviewer ← decidedProps rt lib (some r) (lit "remediation-")
      let verified ← valueTime rt lib (v.get? (lit "verified_on"))
      let decided ← textTime rt lib r.decidedAt
      return [{
        uuid := ofRiskUuid lib inp "remediation-verification" key
        title := inp.markup (lit "Remediation verification")
        description := inp.markup (lit "Remediation verification (" ++ valueLine v "status" ++
          lit "), verified on " ++ valueLine v "verified_on" ++ lit " by " ++ oneLine r.decidedBy ++
          lit " (" ++ r.identitySource ++ lit " identity): " ++ r.rationale)
        start := firstTime [verified, decided] modified
        props := props [(lit "remediation-status", valueLine v "status"),
          (lit "remediation-verified-on", v.getD (lit "verified_on") []),
          (lit "remediation-evidence-vault-id", v.getD (lit "evidence_vault_id") [])] ++
          byReviewer }]

/-- The status of a risk: closed once it is verified as remediated. -/
def riskStatus (verification : Option DecisionRef) : Str :=
  match verification with
  | none => lit "open"
  | some r =>
      if valueLine r.values "status" = lit "remediated" then lit "closed" else lit "open"

def documentRisk (modified : Timestamp) (e : DeficiencyEvaluationSchema) (key : Str) :
    Except LintError DocumentRisk := do
  let dv := inp.view.bind (·.deficiency e.deficiencyId)
  let writeup := dv.bind (·.writeup)
  let response := dv.bind (·.managementResponse)
  let verification := dv.bind (·.remediationVerification)
  let ofView ← (match dv with
    | none => Except.ok []
    | some v => viewProps rt lib v e)
  let deadline ← riskDeadline rt lib response
  let recommended ← recommendation rt lib inp key writeup
  let planned ← actionPlan rt lib inp key response
  let responded ← responseLog rt lib inp modified key response
  let verified ← verificationLog rt lib inp modified key verification
  return {
    uuid := riskUuid lib inp key
    title := inp.markup (lineOr e.title e.deficiencyId)
    description := inp.markup (riskDescription inp dv e)
    statement := inp.markup (riskTexts inp dv e).statement
    props := classificationProps inp dv e ++ ofView ++ racmRiskProps e ++
      verified.flatMap RiskLogEntry.props
    status := riskStatus verification
    origins := match dv with
      | none => []
      | some v => platformOrigin lib inp :: reviewerOrigin lib inp v.classificationDecision
    deadline := deadline
    riskLog := responded ++ verified
    remediations := recommended ++ planned
    relatedObservations := relatedObservations lib inp e }

def documentRisks (modified : Timestamp) : Except LintError (List DocumentRisk) :=
  (inp.report.deficiencyEvaluations.zip (riskKeys inp)).mapM fun ek =>
    documentRisk rt lib inp modified ek.1 ek.2

/-- The names `_reviewer_origin` registers for a risk, in order. -/
def riskParties (e : DeficiencyEvaluationSchema) : List Str :=
  let dv := inp.view.bind (·.deficiency e.deficiencyId)
  ((dv.bind (·.classificationDecision)).toList ++
    ((dv.bind (·.writeup)).toList.filter fun w => valueLine w.values "recommendation" ≠ [])).map
      (·.decidedBy)

/-- The names `_decided_props` adds to the reviewers for a risk, in order. -/
def riskReviewers (e : DeficiencyEvaluationSchema) : List Str :=
  let dv := inp.view.bind (·.deficiency e.deficiencyId)
  (riskParties inp e ++ (dv.bind (·.remediationVerification)).toList.map (·.decidedBy)).map oneLine

/-- `risks_by_control` of one control, each risk once. -/
def relatedRisks (controlId : Str) : List Str :=
  fromKeys ((inp.report.deficiencyEvaluations.zip (riskKeys inp)).flatMap fun ek =>
    (ek.1.relatedFindings.filter (· = controlId)).map fun _ => riskUuid lib inp ek.2)

end Oscal

end AuditSwarm
