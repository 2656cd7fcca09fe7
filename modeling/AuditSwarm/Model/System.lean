import AuditSwarm.Lib.Run
import AuditSwarm.Model.Generation

/-!
# Runs of the flow

The calls a flow can receive, each in an environment of its own, and the runs they make up.  A
refused call is a call like any other: it raises and leaves the flow as it is.
-/

namespace AuditSwarm

open Python

/-- The calls that write the approval trail.  `approveGate` is `begin_phase_2`, `begin_phase_3`
or `finalize_audit`, by its gate. -/
inductive RecordedAction where
  | recordPreparer (preparedBy : Str) (requireReviewDecisions : Bool) (source : Str)
  | recordDecision (req : Decisions.Request)
  | approveGate (gate : Phase) (humanId source : Str)
  | retryPhase (phase : Int) (humanId source : Str)
  | returnForRework (phase : Int) (humanId notes source : Str)
  | overrideQaRejection (phase : Int) (humanId reason source : Str)

/-- A call of the flow. -/
inductive Op where
  | record (a : RecordedAction)
  | beginPhase1
  | generate (phase : Phase)

/-- A call together with the environment it runs in. -/
structure Call where
  env : Env
  op : Op

namespace AuditFlow

variable (rt : Runtime) (env : Env)

/-- What a call reports: that it returned, or what it raised. -/
def reported {α : Type} (x : Except Exn α × AuditFlow) : Except Exn Unit × AuditFlow :=
  (x.1.map fun _ => (), x.2)

def act (a : RecordedAction) (f : AuditFlow) : Except Exn Unit × AuditFlow :=
  match a with
  | .recordPreparer preparedBy required source =>
      (recordPreparer rt env preparedBy required source).exec f
  | .recordDecision req => reported ((recordDecision rt env req).exec f)
  | .approveGate gate humanId source => (approveGate rt env gate humanId source).exec f
  | .retryPhase phase humanId source => (retryPhase rt env phase humanId source).exec f
  | .returnForRework phase humanId notes source =>
      (returnForRework rt env phase humanId notes source).exec f
  | .overrideQaRejection phase humanId reason source =>
      (overrideQaRejection rt env phase humanId reason source).exec f

/-- The `generate_*` method of a phase. -/
def generate : Phase → FlowM Unit
  | .planning => generatePlanning rt env
  | .fieldwork => generateFieldwork rt env
  | .reporting => generateReporting rt env

def step (f : AuditFlow) (c : Call) : Except Exn Unit × AuditFlow :=
  match c.op with
  | .record a => act rt c.env a f
  | .beginPhase1 => beginPhase1.exec f
  | .generate phase => (generate rt c.env phase).exec f

abbrev trace (f : AuditFlow) (calls : List Call) :
    List (Transition AuditFlow Call (Except Exn Unit)) :=
  LabelledRun.trace (step rt) f calls

abbrev after (f : AuditFlow) (calls : List Call) : AuditFlow :=
  LabelledRun.final (step rt) f calls

/-- The flows some run of a fresh flow leads to. -/
def Reachable (f : AuditFlow) : Prop :=
  ∃ theme businessContext frameworks sessionId calls,
    f = after rt (.fresh theme businessContext frameworks sessionId) calls

end AuditFlow

/-! ## A small audit to compute with -/

namespace Sample

/-- A control with nothing filled in but its id and whether it is a key control. -/
def control (id : String) (key : Option Bool) : Control where
  controlId := lit id
  description := lit "Access is reviewed every quarter."
  controlOwner := none
  frequency := none
  nature := none
  controlType := none
  keyControl := key
  assertions := []
  ipe := []
  testingProcedures := ⟨[], [], none, none, none, none, none⟩

def racm (controls : List Control) : RiskControlMatrixSchema where
  theme := lit "Access"
  risks := [⟨lit "R1", lit "Access is not revoked.", none, none, none, [], controls⟩]

def finding (id : String) (tod : DesignConclusion) (toe : OperatingConclusion) :
    AuditFindingSchema where
  controlId := lit id
  vaultIdReference := lit "V1"
  exactQuoteFromEvidence := lit "3 accounts were not disabled"
  todConclusion := tod
  toeConclusion := toe
  toeBasis := none
  itemsTested := none
  exceptionsNoted := none
  result := some (deriveResult tod toe none)
  preliminaryDeficiency := some (deriveResult tod toe none = .exception)
  testConclusion := lit "Tested."
  legacySeverity := none

def papers (findings : List AuditFindingSchema) : WorkingPaperSchema where
  theme := lit "Access"
  findings := findings

def evaluation (id : String) (classification : DeficiencyClassification) :
    DeficiencyEvaluationSchema where
  deficiencyId := lit id
  title := lit "Late revocation"
  relatedFindings := [lit "C1"]
  relatedRisks := []
  compensatingControls := []
  likelihood := .medium
  magnitude := .medium
  classification := classification
  rationale := []

def report (scale : Option DeficiencyScale) (evaluations : List DeficiencyEvaluationSchema) :
    FinalReportSchema where
  executiveSummary := lit "Summary."
  detailedReport := lit "Report."
  complianceToneApproved := true
  deficiencyEvaluations := evaluations
  deficiencyScale := scale
  oscalSar := none

/-- The outputs of a crew that drafts an artifact with the given QA verdict. -/
def outputs (phase : Phase) (artifact : PyModel) (approved : Bool) : List TaskOutput :=
  [⟨AuditFlow.artifactTask phase, some artifact⟩,
    ⟨AuditFlow.qaTask phase, some (.qa ⟨approved, none⟩)⟩]

/-- A crew that drafts the same artifacts in every run, which QA approves. -/
def crew (racm : RiskControlMatrixSchema) (papers : ValidPapers) (report : ValidReport) :
    Phase → Nat → CrewInputs → Except Raised (List TaskOutput)
  | .planning, _, _ => .ok (outputs .planning (.racm racm) true)
  | .fieldwork, _, _ => .ok (outputs .fieldwork (.papers papers) true)
  | .reporting, _, _ => .ok (outputs .reporting (.report report) true)

/-- An environment with no variable set, in which every evidence quote verifies. -/
def env (uuid : String)
    (kickoff : Phase → Nat → CrewInputs → Except Raised (List TaskOutput)) : Env where
  environ _ := none
  now _ := lit "2026-01-01T00:00:00+00:00"
  uuid := lit uuid
  verifyExactQuote _ _ _ _ := .ok true
  kickoff := kickoff
  linter _ _ _ := .ok ⟨[]⟩
  describeCrewLlm := .ok (lit "anthropic", lit "claude")
  describeQaLlm := .ok (lit "google", lit "gemini")
  availableSkills := .ok []
  keywordMatches _ _ := false
  readConfig _ := .ok []
  crewaiVersion := lit "1"
  appVersion := lit "1"

abbrev fresh : AuditFlow := .fresh (lit "Access") (lit "A bank") [] none

/-- A request for a decision with nothing optional filled in. -/
def request (decisionType subjectId decidedBy : String) (values : Dict Str Json) :
    Decisions.Request where
  decisionType := lit decisionType
  subjectId := lit subjectId
  decidedBy := lit decidedBy
  values := some values
  rationale := lit "Reviewed."
  subjectType := none
  supersedes := none
  identitySource := lit "declared"

def rt : Runtime := .ascii Runtime.shortDigest

def smallRacm : RiskControlMatrixSchema := racm [control "C1" (some true)]

def smallPapers : ValidPapers := ⟨papers [finding "C1" .ineffective .effective], by decide +kernel⟩

def effectivePapers : ValidPapers :=
  ⟨papers [finding "C1" .effective .effective], by decide +kernel⟩

def smallReport : ValidReport :=
  ⟨report (some .icfr) [evaluation "D1" .controlDeficiency], by decide +kernel⟩

def smallEnv (uuid : String) : Env := env uuid (crew smallRacm smallPapers smallReport)

/-- An audit up to the approval of its first gate. -/
def planned : List Call :=
  [⟨smallEnv "u1", .record (.recordPreparer (lit "Ann") true (lit "declared"))⟩,
    ⟨smallEnv "u2", .generate .planning⟩,
    ⟨smallEnv "u3", .record (.approveGate .planning (lit "Bob") (lit "declared"))⟩]

/-- The small audit, with a sign-off that a challenge supersedes. -/
def challenged : List Call :=
  planned ++
    [⟨smallEnv "u4", .generate .fieldwork⟩,
      ⟨smallEnv "u5", .record (.recordDecision (request "sign_off" "C1" "Cho" []))⟩,
      ⟨smallEnv "u6", .record (.recordDecision { request "challenge" "C1" "Cho"
        [(lit "toe_conclusion", .str (lit "Not tested"))] with supersedes := some (lit "u5") })⟩]

/-- An audit that requires no reviewer decisions, up to its completion. -/
def completed : List Call :=
  [⟨smallEnv "u1", .record (.recordPreparer (lit "Ann") false (lit "declared"))⟩,
    ⟨smallEnv "u2", .generate .planning⟩,
    ⟨smallEnv "u3", .record (.approveGate .planning (lit "Bob") (lit "declared"))⟩,
    ⟨smallEnv "u4", .generate .fieldwork⟩,
    ⟨smallEnv "u5", .record (.approveGate .fieldwork (lit "Bob") (lit "declared"))⟩,
    ⟨smallEnv "u6", .generate .reporting⟩,
    ⟨smallEnv "u7", .record (.approveGate .reporting (lit "Cho") (lit "declared"))⟩]

def verification : Call :=
  ⟨smallEnv "u8", .record (.recordDecision (request "remediation_verification" "D1" "Cho"
    [(lit "status", .str (lit "open")), (lit "verified_on", .str (lit "2026-01-01"))]))⟩

def created : AuditFlow :=
  (AuditFlow.act rt (smallEnv "u1") (.recordPreparer (lit "Ann") true (lit "declared"))
    (.fresh (lit "Access") (lit "A bank") [] none)).2

end Sample

end AuditSwarm
