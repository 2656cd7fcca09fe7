import AuditSwarm.Lib.Proc
import AuditSwarm.Model.Decisions

/-!
# Audit state and environment

`AuditState` and `GenerationRun` of `state/schema.py`, the flow object around them, and the
environment one call of the flow runs in: process variables, clock, vault, crew, linter.
-/

namespace AuditSwarm

open Python StrEnum

abbrev ValidPapers := { p : WorkingPaperSchema // p.Valid }

abbrev ValidReport := { r : FinalReportSchema // r.Valid }

structure GenerationRun where
  runId : Str
  phase : Phase
  provider : Str
  model : Str
  qaProvider : Str
  qaModel : Str
  temperature : Rat
  qaTemperature : Rat
  crewaiVersion : Str
  appVersion : Str
  promptFingerprint : Str
  startedAt : Str
  endedAt : Option Str
  attempts : Nat
  demoMode : Bool
  outcome : Str
  drafterFamily : Str
  qaFamily : Str
  crossFamilyVerified : Bool
  linterPassed : Bool
  linterViolations : List Str
  cascadeTier : Str

structure AuditState where
  theme : Str
  businessContext : Str
  frameworks : List Str
  racmPlan : Option RiskControlMatrixSchema
  workingPapers : Option ValidPapers
  finalReport : Option ValidReport
  currentHumanDossier : Str
  status : Str
  qaRejectionReason : Option Str
  activeSkillIds : List Str
  preparedBy : Str
  approvalTrail : List StrEntry
  generationRuns : List GenerationRun
  reviewDecisions : List ReviewDecision
  reviewDecisionsRequired : Bool

namespace AuditState

/-- `AuditState()` for a given scope. -/
def fresh (theme businessContext : Str) (frameworks : List Str) : AuditState where
  theme := theme
  businessContext := businessContext
  frameworks := frameworks
  racmPlan := none
  workingPapers := none
  finalReport := none
  currentHumanDossier := []
  status := AuditStatus.waitingForScope.value
  qaRejectionReason := none
  activeSkillIds := []
  preparedBy := []
  approvalTrail := []
  generationRuns := []
  reviewDecisions := []
  reviewDecisionsRequired := false

/-- `getattr(state, _ARTIFACT_FIELDS[phase])`, dumped. -/
def artifact (s : AuditState) : Phase → Option Json
  | .planning => s.racmPlan.map RiskControlMatrixSchema.toJson
  | .fieldwork => s.workingPapers.map fun p => p.val.toJson
  | .reporting => s.finalReport.map fun r => r.val.toJson

end AuditState

/-! ## What a crew hands back -/

structure QaPushback where
  approved : Bool
  rejectionReason : Option Str
  deriving DecidableEq

/-- A pydantic object in a task output: one of the declared output schemas, or a model of another
class with some attributes. -/
inductive PyModel where
  | racm (m : RiskControlMatrixSchema)
  | papers (p : ValidPapers)
  | report (r : ValidReport)
  | qa (q : QaPushback)
  | other (className : Str) (attrs : Dict Str Json)

/-- `getattr(obj, name, None)` for the attributes of a QA verdict. -/
def PyModel.attr : PyModel → String → Option Json
  | .qa q, "approved" => some (.bool q.approved)
  | .qa q, "rejection_reason" => some (Json.ofOption .str q.rejectionReason)
  | .other _ attrs, name => attrs.get? (lit name)
  | _, _ => none

structure TaskOutput where
  name : Str
  pydantic : Option PyModel

/-- An exception of code outside the flow: its class and its text. -/
structure Raised where
  className : Str
  text : Str
  deriving DecidableEq

def Raised.toExn (r : Raised) : Exn := .other r.className r.text

/-- A violation of a linter rule. -/
structure LintViolation where
  ruleId : Str
  subjectId : Str
  message : Str
  severity : Str
  deriving DecidableEq

structure LintReport where
  violations : List LintViolation
  deriving DecidableEq

namespace LintReport

def errors (r : LintReport) : List LintViolation :=
  r.violations.filter fun v => v.severity = lit "error"

def passed (r : LintReport) : Bool := r.errors = []

def toFeedback (r : LintReport) : Str :=
  if r.errors = [] then []
  else lit "Deterministic Audit Linter Violations:\n" ++ join (lit "\n") (r.errors.map fun v =>
    lit "[" ++ v.ruleId ++ lit "] (" ++ v.subjectId ++ lit "): " ++ v.message)

end LintReport

/-- The inputs of a crew, before they are rendered into prompt text. -/
structure CrewInputs where
  theme : Str
  businessContext : Str
  frameworks : List Str
  racm : Option RiskControlMatrixSchema
  papers : Option WorkingPaperSchema
  feedback : Str

abbrev Skill := Dict Str Json

/-! ## Environment -/

/-- What one call of the flow finds outside it.  Clock readings and checks made at different
moments of one call are numbered. -/
structure Env where
  environ : Environ
  /-- `datetime.now(UTC).isoformat()` -/
  now : Nat → Str
  /-- `str(uuid.uuid4())` -/
  uuid : Str
  /-- `verify_exact_quote(vault_id, quote, session_id)` -/
  verifyExactQuote : Nat → Str → Str → Option Str → Except Raised Bool
  /-- `build_crew().kickoff(inputs)` for an attempt of a phase run -/
  kickoff : Phase → Nat → CrewInputs → Except Raised (List TaskOutput)
  /-- The linter of a phase on an artifact -/
  linter : Phase → Nat → PyModel → Except Raised LintReport
  /-- `describe_crew_llm()` and `describe_qa_llm()`: provider and model -/
  describeCrewLlm : Except Raised (Str × Str)
  describeQaLlm : Except Raised (Str × Str)
  /-- `list_available_skills()` -/
  availableSkills : Except Raised (List Skill)
  /-- `_keyword_matches(keyword, text)` -/
  keywordMatches : Str → Str → Bool
  /-- `(_CONFIG_DIR / name).read_bytes()` -/
  readConfig : Str → Except Raised Bytes
  crewaiVersion : Str
  appVersion : Str

/-! ## The flow object -/

/-- One crew kickoff: its phase and what came of it. -/
structure Kickoff where
  phase : Phase
  outcome : Except Raised (List TaskOutput)

/-- `AuditFlow`.  `kickoffs` is a history variable: every crew kickoff so far, which the source
does not keep. -/
structure AuditFlow where
  state : AuditState
  machine : AuditStateMachine
  skillContext : List Skill
  sessionId : Option Str
  kickoffs : List Kickoff

def AuditFlow.fresh (theme businessContext : Str) (frameworks : List Str)
    (sessionId : Option Str) : AuditFlow where
  state := AuditState.fresh theme businessContext frameworks
  machine := ⟨.waitingForScope⟩
  skillContext := []
  sessionId := sessionId
  kickoffs := []

abbrev FlowM (α : Type) := Proc AuditFlow Exn α

end AuditSwarm
