import AuditSwarm.Model.NativeCrew

/-!
# The crews of the phases

`PlanningCrew`, `FieldworkCrew` and `ReportingCrew`: the agents and tasks of each phase, from the
texts of its configuration files.
-/

namespace AuditSwarm

open Python StrEnum

namespace NativeCrew

/-! ## What a crew is made of -/

/-- An entry of an agents file. -/
structure AgentConfig where
  role : Str
  goal : Str
  backstory : Str

/-- An entry of a tasks file. -/
structure TaskConfig where
  description : Str
  expectedOutput : Str

/-- The configuration files of a phase. -/
structure CrewConfig where
  agents : String → AgentConfig
  tasks : String → TaskConfig

/-- The classes the tasks ask for.  An instance of the class of an artifact, or of a QA verdict, is
one. -/
structure OutputSchemas where
  riskControlMatrix : ResponseModel
  workingPaper : ResponseModel
  finalReport : ResponseModel
  qaPushback : ResponseModel
  deficiencyEvaluationSet : ResponseModel
  oscalSar : ResponseModel
  isRacm : ∀ m, riskControlMatrix.isInstance m = true → ∃ racm, m = .racm racm
  isPapers : ∀ m, workingPaper.isInstance m = true → ∃ papers, m = .papers papers
  isReport : ∀ m, finalReport.isInstance m = true → ∃ report, m = .report report
  isQa : ∀ m, qaPushback.isInstance m = true → ∃ qa, m = .qa qa

structure CrewParts (ω : Type) where
  config : CrewConfig
  schemas : OutputSchemas
  /-- `get_crew_llm(temperature=0.1)` -/
  baseLlm : Except Raised LLM
  /-- `get_qa_llm(temperature=0.0)` -/
  qaLlm : Except Raised LLM
  skillContext : List Skill
  /-- `run` of a tool with this name, bound to the session -/
  runTool : String → ω → Except Str Str × ω

/-- An exception of the skill loader, which only calls methods of what the files hold. -/
def raised (rt : Runtime) : Exn → Raised
  | .other className text => ⟨className, text⟩
  | e => ⟨lit "Exception", e.text rt⟩

def skillExtra (rt : Runtime) (skills : List Skill) : Except Raised (Option Str) :=
  if skills = [] then .ok none
  else ((SkillLoader.specialistPrompt rt skills).mapError (raised rt)).map some

section
variable {ω : Type} (rt : Runtime) (parts : CrewParts ω)

/-- `Agent(**config, llm=llm)` -/
def agent (name : String) (llm : LLM) : NativeAgent ω :=
  let config := parts.config.agents name
  ⟨strip config.role, strip config.goal, strip config.backstory, some llm, []⟩

def augmented (name : String) (llm : LLM) : Option Str → NativeAgent ω
  | none => agent parts name llm
  | some extra =>
      { agent parts name llm with
        backstory := strip (strip ((parts.config.agents name).backstory ++ lit "\n\n" ++ extra)) }

/-- `Task(**config, name=name, agent=agent, …)` -/
def task (name : String) (agent : NativeAgent ω) (outputPydantic : Option ResponseModel)
    (context : List String) : NativeTask ω where
  name := lit name
  description := (parts.config.tasks name).description
  expectedOutput := (parts.config.tasks name).expectedOutput
  agent := some agent
  outputPydantic := outputPydantic
  context := context.map lit

def makeTools : List (NativeTool ω) :=
  ["Get IAM Password Policy", "List AWS IAM Users with MFA", "List Public S3 Buckets",
    "Import Prowler Findings", "Get Security Hub Findings"].map fun name =>
      ⟨lit name, parts.runTool name⟩

def planningTasks (base : LLM) (extra : Option Str) (qa : LLM) : List (NativeTask ω) := [
  task parts "context_task" (agent parts "orchestrator" base) none [],
  task parts "crosswalk_task" (agent parts "analyst" base) none [],
  task parts "weighting_task" (augmented parts "specialist" base extra) none [],
  task parts "racm_drafting_task" (augmented parts "auditor" base extra)
    (some parts.schemas.riskControlMatrix) ["weighting_task"],
  task parts "qa_gate_task" (agent parts "qa_reviewer" qa) (some parts.schemas.qaPushback)
    ["racm_drafting_task"]]

def fieldworkTasks (base : LLM) (extra : Option Str) (qa : LLM) : List (NativeTask ω) := [
  task parts "evidence_collection_task"
    { agent parts "evidence_collector" base with tools := makeTools parts } none [],
  task parts "execution_evaluation_task" (augmented parts "field_auditor" base extra)
    (some parts.schemas.workingPaper) ["evidence_collection_task"],
  task parts "eval_qa_gate_task" (agent parts "qa_field_reviewer" qa)
    (some parts.schemas.qaPushback) ["evidence_collection_task", "execution_evaluation_task"]]

def reportingTasks (base : LLM) (extra : Option Str) (qa : LLM) : List (NativeTask ω) := [
  task parts "deficiency_evaluation_task" (agent parts "deficiency_evaluator" base)
    (some parts.schemas.deficiencyEvaluationSet) [],
  task parts "drafting_task" (augmented parts "lead_writer" base extra) none
    ["deficiency_evaluation_task"],
  task parts "executive_summary_task" (agent parts "concluder" base) none ["drafting_task"],
  task parts "tone_qa_task" (agent parts "qa_tone_reviewer" qa) (some parts.schemas.qaPushback)
    ["drafting_task", "executive_summary_task", "deficiency_evaluation_task"],
  task parts "generate_oscal_sar_task" (agent parts "oscal_engineer" base)
    (some parts.schemas.oscalSar) ["drafting_task"],
  task parts "final_report_assembly_task" (augmented parts "lead_writer" base extra)
    (some parts.schemas.finalReport) ["drafting_task", "executive_summary_task",
      "generate_oscal_sar_task", "deficiency_evaluation_task"]]

def tasksOf : Phase → LLM → Option Str → LLM → List (NativeTask ω)
  | .planning => planningTasks parts
  | .fieldwork => fieldworkTasks parts
  | .reporting => reportingTasks parts

def crewOf (phase : Phase) : Except Raised (List (NativeTask ω)) := do
  let base ← parts.baseLlm
  let extra ← skillExtra rt parts.skillContext
  let qa ← parts.qaLlm
  return tasksOf parts phase base extra qa

/-- `build_crew().kickoff(inputs)`, with a new gateway. -/
def buildAndKickoff (out : Outside ω) (phase : Phase) (inputs : Inputs) :
    CrewM ω NativeCrewOutput := do
  let tasks ← Proc.ofExcept (crewOf rt parts phase)
  kickoff rt out inputs tasks

def NativeTaskOutput.toTaskOutput (o : NativeTaskOutput) : TaskOutput := ⟨o.name, o.pydantic⟩

end

end NativeCrew

end AuditSwarm
