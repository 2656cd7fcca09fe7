import AuditSwarm.Model.Evidence

/-!
# Flow actions

The actions of `AuditFlow` a person takes: recording the preparer and the reviewer decisions,
approving a gate, retrying, returning and overriding a phase.  Each is written as the checks the
source makes before it changes anything, followed by the changes in the source's order.
-/

namespace AuditSwarm

open Python StrEnum

namespace AuditFlow

variable (rt : Runtime) (env : Env)

/-! ## Helpers -/

def requireText (value : Str) (what : String) : Except Exn Str := do
  Except.ensure (strip value ≠ []) (.valueError (lit what ++ lit " is required"))
  return strip value

def identitySource (source : Str) : Except Exn Str := do
  let s ← Except.orRaise (ofValue? (α := IdentitySource) source)
    (.valueError Decisions.identitySourceError)
  return value s

def commitStatus : FlowM Unit :=
  modify fun f => { f with state := { f.state with status := f.machine.status.value } }

def transition (t : AuditStateMachine → Except Exn AuditStateMachine) : FlowM Unit := do
  let f ← get
  let m ← Proc.ofExcept (t f.machine)
  set { f with machine := m }
  commitStatus

/-- `state.current_human_dossier = text` -/
def setDossier (text : Str) : FlowM Unit :=
  modify fun f => { f with state := { f.state with currentHumanDossier := text } }

/-- `state.qa_rejection_reason = reason` -/
def setQaRejectionReason (reason : Option Str) : FlowM Unit :=
  modify fun f => { f with state := { f.state with qaRejectionReason := reason } }

/-- The entry `_stamp_trail` appends, chained onto the trail of the flow. -/
def stampEntry (f : AuditFlow) (gate human action source : Str) (timestamp : Str)
    (extra : StrEntry) : Except Exn StrEntry := do
  let source ← identitySource source
  let entry : StrEntry :=
    [(lit "gate", gate), (lit "human", human), (lit "timestamp", timestamp),
      (lit "action", action), (lit "identity_source", source)]
  Trail.appendEntry rt env.environ f.state.approvalTrail (entry.update extra)

def pushEntry (e : StrEntry) (f : AuditFlow) : AuditFlow :=
  { f with state := { f.state with approvalTrail := f.state.approvalTrail ++ [e] } }

def stampTrail (gate human action source timestamp : Str) (extra : StrEntry) : FlowM Unit := do
  let f ← get
  let e ← Proc.ofExcept (f.stampEntry rt env gate human action source timestamp extra)
  modify (pushEntry e)

section
variable (f : AuditFlow)

def latestRunForPhase (phase : Phase) : Option GenerationRun :=
  f.state.generationRuns.reverse.find? fun r => r.phase = phase

def runProvenanceExtra (phase : Phase) : StrEntry :=
  match f.latestRunForPhase phase with
  | none => []
  | some run =>
      [(lit "generation_run_id", run.runId),
        (lit "generation_prompt_fingerprint", run.promptFingerprint),
        (lit "generation_model", run.provider ++ lit "/" ++ run.model)]

def reviewDecisionsRequired : Bool :=
  f.state.reviewDecisionsRequired || f.state.approvalTrail.any fun e =>
    e.get? (lit "action") = some (lit "audit_created") &&
      e.get? (lit "review_decisions_required") = some (lit "true")

def decisionContext : Decisions.Context where
  racm := f.state.racmPlan
  papers := f.state.workingPapers.map (·.val)
  report := f.state.finalReport.map (·.val)

def effectiveView : Except Exn Decisions.EffectiveView :=
  Decisions.effectiveView rt f.decisionContext f.state.reviewDecisions f.reviewDecisionsRequired

def phaseDecisions (phase : Phase) : List ReviewDecision :=
  f.state.reviewDecisions.filter fun d => d.phase = phase.number

def preparers : List Str :=
  let names := (f.state.preparedBy :: (f.state.approvalTrail.filter fun e =>
    e.get? (lit "action") = some (lit "audit_created")).map fun e =>
      e.getD (lit "human") []).filter (· ≠ [])
  if names = [] then [[]] else names

def checkSod (action humanId : Str) (gate : Option Phase) : Except Exn Unit :=
  Except.raiseSome ((f.preparers.findSome? fun p =>
    Policy.sodViolation rt action humanId (some p) f.state.approvalTrail gate).map
      Exn.segregationOfDuties)

def requireTransition (target source : AuditStatus) : Except Exn Unit :=
  Except.ensure (f.machine.can target [source]) (.invalidTransition f.machine.status target)

def unverifiedEvidence : Except Exn (List Str) :=
  match f.state.workingPapers with
  | none => .ok []
  | some papers =>
      match Evidence.unverifiedFindings rt (env.verifyExactQuote 0) f.sessionId 0
          papers.val.findings with
      | .ok ids => .ok ids
      | .error r => .error r.toExn

/-- The `unverified_controls` a `qa_override` entry accepted for the given digest, if it is one. -/
def acceptedBy (digest : Str) (e : StrEntry) : Option (List Str) :=
  if e.get? (lit "action") = some (lit "qa_override") ∧
      e.get? (lit "gate") = some (lit "QA Override (" ++ Phase.fieldwork.label ++ lit ")") ∧
      e.get? (lit "artifact_digest") = some digest then
    some (((e.getD (lit "unverified_controls") []).splitOn 44).filter (· ≠ []))
  else none

def acceptedUnverified : Except Exn (List Str) :=
  match f.state.workingPapers with
  | none => .ok []
  | some papers => do
      let digest ← Trail.artifactDigest rt papers.val.toJson
      return (f.state.approvalTrail.reverse.findSome? (acceptedBy digest)).getD []

def checkEvidenceForGate2 : Except Exn Unit := do
  let unverified ← f.unverifiedEvidence rt env
  let accepted ← (if unverified = [] then .ok [] else f.acceptedUnverified rt)
  let notAccepted := unverified.filter fun c => !accepted.contains c
  Except.ensure (notAccepted = [])
    (.unverifiedEvidence (lit "Gate 2 cannot be approved: evidence quotes for " ++
      join (lit ", ") notAccepted ++
      lit (" do not verify against the evidence vault. Return the " ++
        "fieldwork for rework, or have the evidence restored.")))

def checkEvidenceForGate (gate : Phase) : Except Exn Unit :=
  if gate = .fieldwork then f.checkEvidenceForGate2 rt env else .ok ()

def checkReviewDecisions (gate : Phase) : Except Exn Unit :=
  if gate = .planning ∨ f.reviewDecisionsRequired = false then .ok ()
  else do
    let view ← f.effectiveView rt
    let missing := view.missingForGate.getD gate.digits []
    let listed := join (lit "; ") (missing.map fun m =>
      m.subjectType ++ lit " " ++ m.subjectId ++ lit ": " ++ join (lit " or ") m.required)
    Except.ensure (missing = [])
      (.missingReviewDecisions (gate.gateLabel ++ lit " needs reviewer decisions first: " ++
        listed ++ lit ".") missing)

end

/-! ## Recording the preparer -/

structure PreparerPlan where
  preparedBy : Str
  source : Str

def checkPreparer (preparedBy source : Str) (f : AuditFlow) : Except Exn PreparerPlan := do
  let preparedBy ← requireText preparedBy "prepared_by"
  let source ← identitySource source
  Except.ensure (f.state.preparedBy = [])
    (.valueError (lit "prepared_by is already set for this audit"))
  return ⟨preparedBy, source⟩

def recordPreparer (preparedBy : Str) (requireReviewDecisions : Bool) (source : Str) :
    FlowM Unit := do
  let plan ← Proc.ofExcept (checkPreparer preparedBy source (← get))
  modify fun f => { f with state := { f.state with
    preparedBy := plan.preparedBy
    reviewDecisionsRequired := requireReviewDecisions } }
  stampTrail rt env (lit "Audit created") plan.preparedBy (lit "audit_created") plan.source
    (env.now 0)
    (if requireReviewDecisions then [(lit "review_decisions_required", lit "true")] else [])

/-! ## Recording a decision -/

/-- The trail fields of a decision, besides those every entry has. -/
def decisionExtra (d : ReviewDecision) (digest : Str) : StrEntry :=
  [(lit "phase", decimal d.phase), (lit "decision_id", d.decisionId),
    (lit "decision_digest", digest), (lit "decision_type", value d.decisionType),
    (lit "subject", value d.subjectType ++ lit ":" ++ d.subjectId), (lit "artifact", d.artifact)] ++
    match d.supersedes with
    | some s => if s = [] then [] else [(lit "supersedes", s)]
    | none => []

def recordDecision (req : Decisions.Request) : FlowM ReviewDecision := do
  let f ← get
  let d ← Proc.ofExcept (Decisions.buildDecision rt f.decisionContext f.machine.status.value
    f.preparers f.state.reviewDecisions req (env.now 0) (env.now 1) env.uuid)
  modify fun f => { f with state := { f.state with
    reviewDecisions := f.state.reviewDecisions ++ [d] } }
  let digest ← Proc.ofExcept (Trail.artifactDigest rt d.toJson)
  let label := ((Phase.ofNumber? d.phase).map Phase.label).getD []
  stampTrail rt env (lit "Review decision (" ++ label ++ lit ")") d.decidedBy
    (lit "review_decision") (value d.identitySource) (env.now 2) (decisionExtra d digest)
  return d

/-! ## Gate approvals -/

/-- What `_approve_gate` has validated: the artifact, dumped, and the seal of the decisions. -/
structure ApprovalPlan where
  humanId : Str
  source : Str
  artifact : Json
  sealedFields : StrEntry

/-- `decisions_digest` and `decisions_count` of Gates 2 and 3. -/
def sealedFields (f : AuditFlow) (gate : Phase) : Except Exn StrEntry :=
  if gate = .planning then .ok []
  else do
    let decisions := f.phaseDecisions gate
    let digest ← Trail.decisionsDigest rt (decisions.map ReviewDecision.toJson)
    return [(lit "decisions_digest", digest), (lit "decisions_count", decimal decisions.length)]

def checkApproval (gate : Phase) (humanId source : Str) (f : AuditFlow) :
    Except Exn ApprovalPlan := do
  let humanId ← requireText humanId "human_id"
  let source ← identitySource source
  f.requireTransition (AuditStateMachine.approvalTarget gate) (.waitingHumanGate gate)
  f.checkSod rt (lit "gate_approval") humanId (some gate)
  f.checkEvidenceForGate rt env gate
  let artifact ← Except.orRaise (f.state.artifact gate)
    (.phaseArtifactMissing (gate.gateLabel ++ lit " has no " ++ gate.artifactField ++
      lit " to approve."))
  f.checkReviewDecisions rt gate
  let sealedFields ← f.sealedFields rt gate
  return ⟨humanId, source, artifact, sealedFields⟩

def approvalDossier (humanId : Str) : Phase → Str
  | .planning => Phase.planning.gateLabel ++ lit " approved by " ++ humanId ++ lit ". " ++
      Phase.fieldwork.label ++ lit " is running."
  | .fieldwork => Phase.fieldwork.gateLabel ++ lit " approved by " ++ humanId ++ lit ". " ++
      Phase.reporting.label ++ lit " is running."
  | .reporting => lit "Audit completed: the final report was approved at " ++
      Phase.reporting.gateLabel ++ lit " by " ++ humanId ++ lit "."

/-- `_approve_gate`: `begin_phase_2`, `begin_phase_3` and `finalize_audit`. -/
def approveGate (gate : Phase) (humanId source : Str) : FlowM Unit := do
  let plan ← Proc.ofExcept (checkApproval rt env gate humanId source (← get))
  transition (·.approveGate gate)
  let f ← get
  let digest ← Proc.ofExcept (Trail.artifactDigest rt plan.artifact)
  stampTrail rt env gate.gateLabel plan.humanId (lit "gate_approval") plan.source (env.now 0)
    ([(lit "artifact", gate.artifactField), (lit "artifact_digest", digest)] ++
      plan.sealedFields ++ f.runProvenanceExtra gate)
  setDossier (approvalDossier plan.humanId gate)

def beginPhase2 (humanId source : Str) : FlowM Unit :=
  approveGate rt env .planning humanId source

def beginPhase3 (humanId source : Str) : FlowM Unit :=
  approveGate rt env .fieldwork humanId source

def finalizeAudit (humanId source : Str) : FlowM Unit :=
  approveGate rt env .reporting humanId source

def beginPhase1 : FlowM Unit := do
  transition (·.startPhase1)
  setDossier (lit "Planning is running.")

/-! ## Retry, rework and override -/

/-- `phase not in _PHASE_LABELS` -/
def requirePhase (phase : Int) : Except Exn Phase :=
  Except.orRaise (Phase.ofNumber? phase) (.valueError (lit "phase must be 1, 2, or 3"))

structure RetryPlan where
  phase : Phase
  humanId : Str
  source : Str
  previous : Str

def checkRetry (phase : Int) (humanId source : Str) (f : AuditFlow) : Except Exn RetryPlan := do
  let phase ← requirePhase phase
  let humanId ← requireText humanId "human_id"
  let source ← identitySource source
  return ⟨phase, humanId, source, f.machine.status.value⟩

def retryPhase (phase : Int) (humanId source : Str) : FlowM Unit := do
  let plan ← Proc.ofExcept (checkRetry phase humanId source (← get))
  transition (·.retryPhase plan.phase)
  let f ← get
  stampTrail rt env (lit "Retry (" ++ plan.phase.label ++ lit ")") plan.humanId (lit "retry")
    plan.source (env.now 0)
    ([(lit "previous_status", plan.previous),
      (lit "previous_reason", f.state.qaRejectionReason.getD [])] ++
      f.runProvenanceExtra plan.phase)
  setDossier (plan.phase.label ++ lit " retry requested by " ++ plan.humanId ++
    lit "; the phase is running again.")

structure ReworkPlan where
  phase : Phase
  humanId : Str
  notes : Str
  source : Str

def checkRework (phase : Int) (humanId notes source : Str) (f : AuditFlow) :
    Except Exn ReworkPlan := do
  let phase ← requirePhase phase
  let humanId ← requireText humanId "human_id"
  let notes ← requireText notes "notes"
  let source ← identitySource source
  f.requireTransition (.running phase) (.waitingHumanGate phase)
  f.checkSod rt (lit "return_for_rework") humanId none
  return ⟨phase, humanId, notes, source⟩

/-- The `artifact_digest` field of an artifact, if there is one. -/
def digestField (artifact : Option Json) : Except Exn StrEntry :=
  match artifact with
  | none => .ok []
  | some a => do
      let digest ← Trail.artifactDigest rt a
      return [(lit "artifact_digest", digest)]

def reworkExtra (f : AuditFlow) (plan : ReworkPlan) : Except Exn StrEntry := do
  let digest ← digestField rt (f.state.artifact plan.phase)
  return [(lit "notes", plan.notes), (lit "artifact", plan.phase.artifactField)] ++ digest ++
    f.runProvenanceExtra plan.phase

def returnForRework (phase : Int) (humanId notes source : Str) : FlowM Unit := do
  let plan ← Proc.ofExcept (checkRework rt phase humanId notes source (← get))
  transition (·.returnForRework plan.phase)
  let extra ← Proc.ofExcept (reworkExtra rt (← get) plan)
  stampTrail rt env (lit "Return for rework (" ++ plan.phase.label ++ lit ")") plan.humanId
    (lit "return_for_rework") plan.source (env.now 0) extra
  setQaRejectionReason none
  setDossier (plan.phase.label ++ lit " returned for rework by " ++ plan.humanId ++ lit ": " ++
    plan.notes ++ lit " The phase is re-running with these review notes.")

structure OverridePlan where
  phase : Phase
  humanId : Str
  reason : Str
  source : Str
  digest : Str
  unverified : List Str

def checkOverride (phase : Int) (humanId reason source : Str) (f : AuditFlow) :
    Except Exn OverridePlan := do
  let phase ← requirePhase phase
  let humanId ← requireText humanId "human_id"
  let reason ← requireText reason "reason"
  let source ← identitySource source
  f.requireTransition (.waitingHumanGate phase) (.qaRejected phase)
  f.checkSod rt (lit "qa_override") humanId none
  let artifact ← Except.orRaise (f.state.artifact phase)
    (.phaseArtifactMissing (lit "Phase " ++ phase.digits ++ lit " has no " ++
      phase.artifactField ++ lit " to accept — retry the phase instead."))
  let digest ← Trail.artifactDigest rt artifact
  let unverified ← (if phase = .fieldwork then f.unverifiedEvidence rt env else .ok [])
  return ⟨phase, humanId, reason, source, digest, unverified⟩

def overrideExtra (f : AuditFlow) (plan : OverridePlan) : StrEntry :=
  [(lit "reason", plan.reason), (lit "qa_rejection_reason", f.state.qaRejectionReason.getD []),
    (lit "artifact", plan.phase.artifactField), (lit "artifact_digest", plan.digest)] ++
    (if plan.unverified = [] then []
      else [(lit "unverified_controls", join (lit ",") plan.unverified)]) ++
    f.runProvenanceExtra plan.phase

def overrideQaRejection (phase : Int) (humanId reason source : Str) : FlowM Unit := do
  let plan ← Proc.ofExcept (checkOverride rt env phase humanId reason source (← get))
  transition (·.overrideQa plan.phase)
  let f ← get
  stampTrail rt env (lit "QA Override (" ++ plan.phase.label ++ lit ")") plan.humanId
    (lit "qa_override") plan.source (env.now 0) (f.overrideExtra plan)
  setQaRejectionReason none
  let note := if plan.unverified = [] then [] else
    lit " Accepted with unverified evidence for: " ++ join (lit ", ") plan.unverified ++ lit "."
  setDossier (plan.phase.label ++ lit " QA rejection overridden by " ++ plan.humanId ++ lit ": " ++
    plan.reason ++ lit "." ++ note ++ lit " Review the artifact before approving the gate.")

end AuditFlow

end AuditSwarm
