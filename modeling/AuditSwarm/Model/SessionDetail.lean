import AuditSwarm.Model.SessionService
import AuditSwarm.Model.Verification

/-!
# What is shown of a session

`_build_detail` and `_build_summary` of `routers/sessions.py`: a session as the API returns it, from
its flow in memory, or from the snapshot that is stored of it.
-/

namespace AuditSwarm

open Python Json StrEnum

def needsInput (status : Str) : Bool := (lit "WAITING_HUMAN_GATE").isPrefixOf status

structure ReviewDecisionRecord where
  decisionId : Str
  phase : Nat
  artifact : Str
  draftDigest : Str
  subjectType : Str
  subjectId : Str
  decisionType : Str
  values : Dict Str Str
  rationale : Str
  decidedBy : Str
  identitySource : Str
  decidedAt : Str
  supersedes : Option Str
  state : Str
  deriving DecidableEq

/-- `ReviewDecisionRecord(**d.model_dump(mode="json"), state=state)` -/
def ReviewDecisionRecord.of (d : ReviewDecision) (state : Str) : ReviewDecisionRecord where
  decisionId := d.decisionId
  phase := d.phase
  artifact := d.artifact
  draftDigest := d.draftDigest
  subjectType := value d.subjectType
  subjectId := d.subjectId
  decisionType := value d.decisionType
  values := d.values
  rationale := d.rationale
  decidedBy := d.decidedBy
  identitySource := value d.identitySource
  decidedAt := d.decidedAt
  supersedes := d.supersedes
  state := state

abbrev GenerationRunSummary := GenerationRun

structure SessionSummary where
  sessionId : Str
  name : Str
  status : Str
  phase : Nat
  needsInput : Bool
  createdAt : Str
  preparedBy : Str

structure SessionDetail extends SessionSummary where
  theme : Str
  businessContext : Str
  frameworks : List Str
  currentHumanDossier : Str
  racmPlan : Option Json
  workingPapers : Option Json
  finalReport : Option Json
  approvalTrail : List StrEntry
  qaRejectionReason : Option Str
  trailVerification : Trail.Verification
  generationRuns : List GenerationRunSummary
  reviewDecisions : List ReviewDecisionRecord
  effective : Option Decisions.EffectiveView
  reviewDecisionsRequired : Bool

/-! ## The flow in memory -/

def AuditFlow.flowDecisionStates (rt : Runtime) (f : AuditFlow) :
    Except Exn (Dict Str Decisions.DecisionState) :=
  Decisions.decisionStates rt f.decisionContext f.state.reviewDecisions

namespace SessionRoutes

variable (rt : Runtime) (co : Coercions)

def decisionRecords (decisions : List ReviewDecision) (states : Dict Str Decisions.DecisionState) :
    List ReviewDecisionRecord :=
  decisions.map fun d => .of d
    (((states.get? d.decisionId).map Decisions.DecisionState.text).getD (lit "active"))

def flowReview (f : AuditFlow) :
    Except Exn (List ReviewDecisionRecord × Decisions.EffectiveView) := do
  let states ← f.flowDecisionStates rt
  let view ← f.effectiveView rt
  return (decisionRecords f.state.reviewDecisions states, view)

/-! ## The stored snapshot -/

/-- A value of which `get` is called. -/
def getting : Json → Except Exn (Dict Str Json)
  | .obj o => .ok o
  | _ => .error (.other (lit "AttributeError") (lit "object has no attribute 'get'"))

/-- `for x in value or []` -/
def eachOf (j : Json) : Except Exn (List Json) :=
  if j.truthy then
    Except.orRaise (SkillLoader.iterate j)
      (.other (lit "TypeError") (lit "object is not iterable"))
  else .ok []

/-- The entries of `snapshot.get("approval_trail") or []`. -/
def trailEntries (snapshot : Dict Str Json) : Except Exn (List Entry) := do
  (← eachOf (snapshot.getD (lit "approval_trail") .null)).mapM getting

def validated (p : Phase) (raw : Json) : Option Json :=
  match p with
  | .planning => (RiskControlMatrixSchema.ofJson rt co raw).map RiskControlMatrixSchema.toJson
  | .fieldwork => (storedPapers rt co raw).map fun m => m.val.toJson
  | .reporting => (storedReport rt co raw).map fun m => m.val.toJson

def migratedSnapshotArtifact (p : Phase) : Json → Json
  | .null => .null
  | raw => (validated rt co p raw).getD raw

def typed {α : Type} (validate : Json → Option α) : Json → Option α
  | .null => none
  | raw => validate raw

def snapshotContext (snapshot : Dict Str Json) : Decisions.Context where
  racm := typed (RiskControlMatrixSchema.ofJson rt co) (snapshot.getD (lit "racm_plan") .null)
  papers := typed (fun j => (storedPapers rt co j).map (·.val))
    (snapshot.getD (lit "working_papers") .null)
  report := typed (fun j => (storedReport rt co j).map (·.val))
    (snapshot.getD (lit "final_report") .null)

/-- Whether gate approvals on the audit need decisions.  An entry that is no dict fails the detail
here, or when the response is validated. -/
def decisionsRequired (snapshot : Dict Str Json) : Except Exn Bool := do
  if (snapshot.getD (lit "review_decisions_required") .null).truthy then return true
  return (← trailEntries snapshot).any fun e =>
    Trail.fieldIs e (lit "action") (lit "audit_created") &&
      Trail.fieldIs e (lit "review_decisions_required") (lit "true")

def snapshotReview (snapshot : Dict Str Json) :
    Except Exn (List ReviewDecisionRecord × Option Decisions.EffectiveView × Bool) := do
  let raws ← eachOf (snapshot.getD (lit "review_decisions") .null)
  let decisions := raws.filterMap (ReviewDecision.ofJson co)
  let required ← decisionsRequired snapshot
  let ctx := snapshotContext rt co snapshot
  let review := do
    let states ← Decisions.decisionStates rt ctx decisions
    let view ← Decisions.effectiveView rt ctx decisions required
    return (states, view)
  match review with
  | .ok (states, view) => return (decisionRecords decisions states, some view, required)
  | .error _ => return (decisionRecords decisions [], none, required)

def snapshotVerification (environ : Environ) (anchor : Trail.Anchor) (snapshot : Dict Str Json) :
    Except Exn Trail.Verification := do
  let entries ← trailEntries snapshot
  let decisions ← eachOf (snapshot.getD (lit "review_decisions") .null)
  Trail.verifyTrail rt environ entries anchor
    (some ([Phase.planning, .fieldwork, .reporting].map fun p =>
      (p.artifactField, snapshot.getD p.artifactField .null))) (some decisions)

def snapshotGenerationRuns (snapshot : Dict Str Json) : Except Exn (List GenerationRunSummary) := do
  return (← eachOf (snapshot.getD (lit "generation_runs") .null)).filterMap
    (GenerationRun.ofJson co)

def preparedBy (data : Dict Str Json) (flow : Option AuditFlow) : Except Exn Str :=
  let stored := do
    let state := data.getD (lit "state_snapshot") .null
    let snapshot ← (if state.truthy then getting state else return [])
    let first := snapshot.getD (lit "prepared_by") .null
    let second := data.getD (lit "prepared_by") .null
    return if first.truthy then rt.textOf first else if second.truthy then rt.textOf second else []
  match flow with
  | some f => if f.state.preparedBy ≠ [] then .ok f.state.preparedBy else stored
  | none => stored

/-! ## The response -/

def responseField {α : Type} (read : Reader α) (j : Json) : Except Exn α :=
  Except.orRaise (read j) (.validation (rt.assignmentError (lit "SessionDetail")))

/-- `dict[str, Any]` -/
def readDict : Reader Json
  | .obj o => some (.obj o)
  | _ => none

def summary (id : Str) (data : Dict Str Json) (status preparedBy : Str) :
    Except Exn SessionSummary := do
  let name ← responseField rt readStr (data.getD (lit "name") (.str id))
  let createdAt ← responseField rt readStr (data.getD (lit "created_at") (.str []))
  return {
    sessionId := id
    name := name
    status := status
    phase := SessionService.phaseFromStatus status
    needsInput := needsInput status
    createdAt := createdAt
    preparedBy := preparedBy }

/-- `_build_summary`, with the flow `get_flow` returns. -/
def buildSummary (id : Str) (data : Dict Str Json) (flow : Option AuditFlow) :
    Except Exn SessionSummary := do
  let status ← match flow with
    | some f => pure f.state.status
    | none => responseField rt readStr (data.getD (lit "status") (.str (lit "WAITING_FOR_SCOPE")))
  let preparedBy ← preparedBy rt data flow
  summary rt id data status preparedBy

/-- `_build_detail` of a flow in memory -/
def ofFlow (environ : Environ) (anchor : Trail.Anchor) (id : Str) (data : Dict Str Json)
    (f : AuditFlow) : Except Exn SessionDetail := do
  let (records, view) ← flowReview rt f
  let preparedBy ← preparedBy rt data (some f)
  let verification ← f.verifyTrail rt environ anchor
  let summary ← summary rt id data f.state.status preparedBy
  return { summary with
    theme := f.state.theme
    businessContext := f.state.businessContext
    frameworks := f.state.frameworks
    currentHumanDossier := f.state.currentHumanDossier
    racmPlan := f.state.artifact .planning
    workingPapers := f.state.artifact .fieldwork
    finalReport := f.state.artifact .reporting
    approvalTrail := f.state.approvalTrail
    qaRejectionReason := f.state.qaRejectionReason
    trailVerification := verification
    generationRuns := f.state.generationRuns
    reviewDecisions := records
    effective := some view
    reviewDecisionsRequired := f.reviewDecisionsRequired }

/-- `_build_detail` of a session that is not in memory -/
def ofSnapshot (environ : Environ) (anchor : Trail.Anchor) (id : Str) (data : Dict Str Json) :
    Except Exn SessionDetail := do
  let snapshot ← getting (data.getD (lit "state_snapshot") (.obj []))
  let (records, view, required) ← snapshotReview rt co snapshot
  let preparedBy ← preparedBy rt data none
  let verification ← snapshotVerification rt environ anchor snapshot
  let runs ← snapshotGenerationRuns co snapshot
  let status ← responseField rt readStr
    (snapshot.getD (lit "status") (.str (lit "WAITING_FOR_SCOPE")))
  let summary ← summary rt id data status preparedBy
  let theme ← responseField rt readStr (snapshot.getD (lit "theme") (.str []))
  let businessContext ← responseField rt readStr (snapshot.getD (lit "business_context") (.str []))
  let frameworks ← responseField rt readStrs (snapshot.getD (lit "frameworks") (.arr []))
  let dossier ← responseField rt readStr (snapshot.getD (lit "current_human_dossier") (.str []))
  let artifact (p : Phase) : Except Exn (Option Json) := responseField rt (readOption readDict)
    (migratedSnapshotArtifact rt co p (snapshot.getD p.artifactField .null))
  let racmPlan ← artifact .planning
  let workingPapers ← artifact .fieldwork
  let finalReport ← artifact .reporting
  let trail ← responseField rt readTrail (snapshot.getD (lit "approval_trail") (.arr []))
  let reason ← responseField rt readOptStr (snapshot.getD (lit "qa_rejection_reason") .null)
  return { summary with
    theme := theme
    businessContext := businessContext
    frameworks := frameworks
    currentHumanDossier := dossier
    racmPlan := racmPlan
    workingPapers := workingPapers
    finalReport := finalReport
    approvalTrail := trail
    qaRejectionReason := reason
    trailVerification := verification
    generationRuns := runs
    reviewDecisions := records
    effective := view
    reviewDecisionsRequired := required }

/-- `_build_detail`, with the flow `get_flow` returns. -/
def buildDetail (environ : Environ) (anchor : Trail.Anchor) (id : Str) (data : Dict Str Json) :
    Option AuditFlow → Except Exn SessionDetail
  | some f => ofFlow rt environ anchor id data f
  | none => ofSnapshot rt co environ anchor id data

end SessionRoutes

end AuditSwarm
