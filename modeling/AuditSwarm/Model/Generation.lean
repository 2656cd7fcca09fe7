import AuditSwarm.Model.Flow

/-!
# Phase runs

The `generate_*` methods of `AuditFlow`: skill detection, the generation record and its model
routing checks, the crew loop with one automatic QA-driven retry, and the ways a run ends.
-/

namespace AuditSwarm

open Python StrEnum

/-! ## Model routing -/

namespace ModelRouting

variable (rt : Runtime)

inductive ModelFamily where
  | anthropic | google | openai | llama | deepseek | qwen | mistral | other
  deriving DecidableEq, Repr

instance : StrEnum ModelFamily where
  value
    | .anthropic => lit "anthropic"
    | .google => lit "google"
    | .openai => lit "openai"
    | .llama => lit "meta"
    | .deepseek => lit "deepseek"
    | .qwen => lit "qwen"
    | .mistral => lit "mistral"
    | .other => lit "other"
  members := [.anthropic, .google, .openai, .llama, .deepseek, .qwen, .mistral, .other]
  mem_members a := by cases a <;> decide
  nodup := by decide +kernel

def detectModelFamily (modelId : Str) : ModelFamily :=
  let m := rt.lower (strip modelId)
  let has (ks : List String) : Bool := ks.any fun k => decide (lit k <:+: m)
  if has ["claude", "anthropic"] then .anthropic
  else if has ["gemini", "google", "vertex"] then .google
  else if has ["gpt-", "openai", "o1", "o3", "o4"] then .openai
  else if has ["llama", "meta"] then .llama
  else if has ["deepseek"] then .deepseek
  else if has ["qwen"] then .qwen
  else if has ["mistral", "mixtral"] then .mistral
  else .other

def assertDisjointFamily (drafterModel criticModel : Str) : Except Exn Unit :=
  let d := detectModelFamily rt drafterModel
  let c := detectModelFamily rt criticModel
  if d ≠ .other ∧ d = c then
    .error (.sameFamilyBias (lit "Self-preference bias violation (Panickssery et al., NeurIPS 2024): " ++
      lit "Drafter ('" ++ drafterModel ++ lit "', family=" ++ value d ++ lit ") and Critic ('" ++
      criticModel ++ lit "', family=" ++ value c ++ lit ") belong to the same model family."))
  else .ok ()

end ModelRouting

/-! ## Skills -/

namespace SkillLoader

/-- The elements `for x in value` yields; `none` is a `TypeError`. -/
def iterate : Json → Option (List Json)
  | .arr xs => some xs
  | .str s => some (s.map fun c => .str [c])
  | .obj kvs => some (kvs.map fun kv => .str kv.1)
  | _ => none

def score (keywordMatches : Str → Str → Bool) (scope : Str) (skill : Skill) : Except Exn Nat :=
  match iterate (skill.getD (lit "scope_keywords") (.arr [])) with
  | none => .error (.typeError (lit "object is not iterable"))
  | some keywords => .ok (keywords.countP fun
      | .str kw => keywordMatches kw scope
      | _ => false)

def detectSkillsFromScope (keywordMatches : Str → Str → Bool) (skills : List Skill) (scope : Str)
    (frameworks : List Str) : Except Exn (List Skill) := do
  let combined :=
    if frameworks = [] then scope else scope ++ lit " " ++ join (lit " ") frameworks
  let scored ← skills.mapM fun skill => do
    let n ← score keywordMatches combined skill
    return (n, skill)
  let ranked := (scored.filter fun p => 0 < p.1).insertionSort fun a b => b.1 ≤ a.1
  if ranked = [] then
    return ((skills.find? fun s => Trail.fieldIs s (lit "id") (lit "itgc_general")).toList)
  return ranked.map (·.2)

/-- `get_specialist_prompt` of a non-empty list of skills. -/
def specialistPrompt (rt : Runtime) (skills : List Skill) : Except Exn Str := do
  let parts ← skills.mapM fun skill => do
    let name := rt.textOf (skill.getD (lit "name") (.str (lit "Unknown Skill")))
    let prompt := skill.getD (lit "specialist_system_prompt") (.str [])
    if !prompt.truthy then return none
    match prompt with
    | .str s => return some (lit "=== " ++ name ++ lit " ===\n" ++ strip s)
    | _ => throw (.other (lit "AttributeError") (lit "object has no attribute 'strip'"))
  return join (lit "\n\n") (parts.filterMap id)

end SkillLoader

namespace AuditFlow

variable (rt : Runtime) (env : Env)

def raising {α : Type} : Except Raised α → Except Exn α
  | .ok a => .ok a
  | .error r => .error r.toExn

def detectSkills : FlowM Unit := do
  let f ← get
  let skills ← Proc.ofExcept (do
    let available ← raising env.availableSkills
    SkillLoader.detectSkillsFromScope env.keywordMatches available
      (f.state.theme ++ lit " " ++ f.state.businessContext) f.state.frameworks)
  let ids := skills.filterMap fun s =>
    match s.get? (lit "id") with
    | some (.str id) => some id
    | _ => none
  set { f with skillContext := skills, state := { f.state with activeSkillIds := ids } }

def restoreSkillContext : FlowM Unit := do
  let f ← get
  let resolved ← Proc.ofExcept (f.state.activeSkillIds.mapM fun id => do
    let available ← raising env.availableSkills
    return available.find? fun s => Trail.fieldIs s (lit "id") id)
  let resolved := resolved.filterMap id
  if resolved ≠ [] then
    set { f with skillContext := resolved }
  else if f.state.theme ≠ [] ∨ f.state.businessContext ≠ [] then
    detectSkills env

def ensureSkillContext : FlowM Unit := do
  if (← get).skillContext = [] then restoreSkillContext env

/-! ## The generation record -/

def demoModeRequested : Bool :=
  [lit "1", lit "true", lit "yes", lit "on"].contains
    (rt.lower (strip ((env.environ (lit "DEMO_MODE")).getD (lit "0"))))

/-- `os.environ.get(name, "").strip() == "1"` -/
def flagSet (name : String) : Bool := strip ((env.environ (lit name)).getD []) = lit "1"

def phaseConfigFiles : Phase → List Str
  | .planning => [lit "planning_agents.yaml", lit "planning_tasks.yaml"]
  | .fieldwork => [lit "fieldwork_agents.yaml", lit "fieldwork_tasks.yaml"]
  | .reporting => [lit "reporting_agents.yaml", lit "reporting_tasks.yaml"]

/-- `n.to_bytes(8, "big")` -/
def toBytes8 (n : Nat) : Bytes :=
  (List.range 8).reverse.map fun i => UInt8.ofNat (n / 256 ^ i)

def encodedPrompts (skills : List Skill) : Except Exn (List Bytes) :=
  if skills = [] then .ok []
  else do
    let prompt ← SkillLoader.specialistPrompt rt skills
    let encoded ← Except.orRaise (encodeUtf8 prompt)
      (.other (lit "UnicodeEncodeError") (lit "surrogates not allowed"))
    return [encoded]

def promptFingerprint (phase : Phase) (skills : List Skill) : Except Exn Str := do
  let configs ← (phaseConfigFiles phase).mapM fun name => raising (env.readConfig name)
  let prompts ← encodedPrompts rt skills
  let framed := (configs ++ prompts).flatMap fun part => toBytes8 part.length ++ part
  return hexdigest (rt.digest (.plain framed))

def modelIdOf (info : Str × Str) : Str :=
  if info.1 = lit "unknown" ∨ info.1 = lit "custom" then info.2
  else info.1 ++ lit "/" ++ info.2

def newGenerationRun (phase : Phase) (f : AuditFlow) : Except Exn GenerationRun := do
  let demo := demoModeRequested rt env
  let unknown := (lit "unknown", lit "unknown")
  let crewInfo := if demo then (lit "demo", lit "fixed-content")
    else (env.describeCrewLlm.toOption).getD unknown
  let qaInfo := if demo then (lit "demo", lit "fixed-content")
    else (env.describeQaLlm.toOption).getD unknown
  let drafter := ModelRouting.detectModelFamily rt (modelIdOf crewInfo)
  let critic := ModelRouting.detectModelFamily rt (modelIdOf qaInfo)
  let crossFamily : Bool := !demo && drafter ≠ .other && critic ≠ .other && drafter ≠ critic
  if !demo && flagSet env "AUDIT_ENFORCE_CROSS_FAMILY" then
    ModelRouting.assertDisjointFamily rt (crewInfo.1 ++ lit "/" ++ crewInfo.2)
      (qaInfo.1 ++ lit "/" ++ qaInfo.2)
  let fingerprint ← promptFingerprint rt env phase f.skillContext
  return {
    runId := env.uuid
    phase := phase
    provider := crewInfo.1
    model := crewInfo.2
    qaProvider := qaInfo.1
    qaModel := qaInfo.2
    temperature := if demo then 0 else 1 / 10
    qaTemperature := 0
    crewaiVersion := env.crewaiVersion
    appVersion := env.appVersion
    promptFingerprint := fingerprint
    startedAt := env.now 0
    endedAt := none
    attempts := 0
    demoMode := demo
    outcome := lit "running"
    drafterFamily := if demo then lit "demo" else value drafter
    qaFamily := if demo then lit "demo" else value critic
    crossFamilyVerified := crossFamily
    linterPassed := true
    linterViolations := []
    cascadeTier := if demo then lit "tier_0_deterministic"
      else if crossFamily then lit "tier_2_cross_family" else lit "tier_1_system1" }

def startGenerationRun (phase : Phase) : FlowM Unit := do
  let run ← Proc.ofExcept (newGenerationRun rt env phase (← get))
  modify fun f => { f with state := { f.state with
    generationRuns := f.state.generationRuns ++ [run] } }

/-- A change of the record of the run in progress, the last one. -/
def updateRun (g : GenerationRun → GenerationRun) : FlowM Unit :=
  modify fun f => { f with state := { f.state with
    generationRuns := f.state.generationRuns.modifyLast g } }

/-! ## Effective working papers -/

/-- A finding with its conclusions overlaid, as `model_copy` leaves it (unvalidated). -/
def overlay (f : AuditFindingSchema) (eff : Decisions.FindingConclusions) :
    Except Exn AuditFindingSchema :=
  match ofValue? (α := DesignConclusion) eff.todConclusion,
    ofValue? (α := OperatingConclusion) eff.toeConclusion,
    ofValue? (α := FindingResult) eff.result with
  | some tod, some toe, some result =>
      .ok { f with
        todConclusion := tod
        toeConclusion := toe
        result := some result
        preliminaryDeficiency := some eff.preliminaryDeficiency }
  | _, _, _ => .error (.valueError (lit "not a valid conclusion"))

/-- `changed.get(control_id)`: the last view of a control that differs from its draft. -/
def changedView (view : Decisions.EffectiveView) (controlId : Str) :
    Option Decisions.FindingView :=
  (view.findings.filter fun fv => fv.differsFromDraft && fv.controlId = controlId).getLast?

def effectiveWorkingPapers (f : AuditFlow) : Except Exn (Option WorkingPaperSchema) :=
  match f.state.workingPapers with
  | none => .ok none
  | some papers =>
      if f.state.reviewDecisions = [] then .ok (some papers.val)
      else do
        let view ← f.effectiveView rt
        if !view.findings.any (·.differsFromDraft) then return some papers.val
        let findings ← papers.val.findings.mapM fun finding =>
          match changedView view finding.controlId with
          | none => pure finding
          | some fv => overlay finding fv.effective
        return some { papers.val with findings := findings }

/-! ## Crew inputs -/

/-- The text that carries QA feedback into the drafting prompt (`_QA_FEEDBACK`). -/
def qaFeedback (phase : Phase) (reason : Str) : Str :=
  (match phase with
  | .planning => lit (" IMPORTANT: A previous draft was rejected for the following " ++
      "reason — fix all issues before re-drafting: ")
  | .fieldwork => lit (" IMPORTANT: A previous evaluation was rejected — fix the ToD/ToE " ++
      "conclusions and evidence issues: ")
  | .reporting => lit (" IMPORTANT: A previous draft was rejected for tone — fix all issues: ")) ++
    reason

def reworkFeedback (notes : Str) : Str :=
  lit (" IMPORTANT: The human reviewer returned the previous draft for rework. " ++
    "Address every review note before re-drafting: ") ++ notes

def carriedFeedback (f : AuditFlow) (phase : Phase) : Option Str :=
  match f.state.approvalTrail.getLast? with
  | none => none
  | some last =>
      if last.get? (lit "action") = some (lit "return_for_rework") ∧
          last.get? (lit "gate") = some (lit "Return for rework (" ++ phase.label ++ lit ")") then
        let notes := strip (last.getD (lit "notes") [])
        if notes = [] then none else some (reworkFeedback notes)
      else if last.get? (lit "action") ≠ some (lit "retry") ∨
          last.get? (lit "gate") ≠ some (lit "Retry (" ++ phase.label ++ lit ")") ∨
          last.get? (lit "previous_status") ≠ some (AuditStatus.qaRejected phase).value then none
      else
        let reason := strip (last.getD (lit "previous_reason") [])
        if reason = [] then none else some (qaFeedback phase reason)

/-- The crew inputs that come from the scope, with no feedback. -/
def scopeInputs (f : AuditFlow) : CrewInputs where
  theme := f.state.theme
  businessContext := f.state.businessContext
  frameworks := f.state.frameworks
  racm := none
  papers := none
  feedback := []

def planningInputs (f : AuditFlow) : Except Exn CrewInputs := .ok f.scopeInputs

def fieldworkInputs (f : AuditFlow) : Except Exn CrewInputs :=
  .ok { f.scopeInputs with racm := f.state.racmPlan }

/-- `_reporting_inputs`; `model_dump_json` fails on text without a UTF-8 encoding. -/
def reportingInputs (f : AuditFlow) : Except Exn CrewInputs := do
  let papers ← f.effectiveWorkingPapers rt
  if papers.any fun p => ¬ p.toJson.Signable then
    throw (.other (lit "PydanticSerializationError") (lit "surrogates not allowed"))
  return { f.scopeInputs with racm := f.state.racmPlan, papers := papers }

def seedFeedback (f : AuditFlow) (phase : Phase) (inputs : CrewInputs) : CrewInputs :=
  match f.carriedFeedback phase with
  | some feedback => if feedback = [] then inputs else { inputs with feedback := feedback }
  | none => inputs

/-! ## Judging an attempt -/

def qaUnparseableReason : Str :=
  lit ("QA output could not be parsed into the QA schema — treated as a rejection " ++
    "(QA gates fail closed).")

def qaNoReason : Str := lit "QA rejected the artifact without giving a reason."

def qaRejection (qaOutput : Option PyModel) : Option Str :=
  match qaOutput with
  | none => some qaUnparseableReason
  | some qa =>
      match qa.attr "approved" with
      | some (.bool true) => none
      | some (.bool false) =>
          match qa.attr "rejection_reason" with
          | some (.str reason) => if strip reason = [] then some qaNoReason else some reason
          | _ => some qaNoReason
      | _ => some qaUnparseableReason

def qaTask : Phase → Str
  | .planning => lit "qa_gate_task"
  | .fieldwork => lit "eval_qa_gate_task"
  | .reporting => lit "tone_qa_task"

def artifactTask : Phase → Str
  | .planning => lit "racm_drafting_task"
  | .fieldwork => lit "execution_evaluation_task"
  | .reporting => lit "final_report_assembly_task"

/-- `CrewResultAdapter.get` -/
def adapterGet (outputs : List TaskOutput) (taskName : Str) : Except Exn TaskOutput :=
  let byName : Dict Str TaskOutput :=
    (outputs.filter fun t => t.name ≠ []).foldl (fun acc t => acc.set t.name t) []
  match byName.get? taskName with
  | some t => .ok t
  | none => .error (.keyError (lit "Task '" ++ taskName ++
      lit "' not found in crew output. Available: [" ++
      join (lit ", ") (byName.map fun kv => rt.reprStr kv.1) ++
      lit "]. Ensure Task(..., name='{task_name}') is set in the crew definition."))

/-- The QA verdict and the artifact of a crew result. -/
def readOutputs (phase : Phase) (outcome : Except Raised (List TaskOutput)) :
    Except Exn (Option PyModel × Option PyModel) := do
  let outputs ← raising outcome
  let qa ← adapterGet rt outputs (qaTask phase)
  let artifact ← adapterGet rt outputs (artifactTask phase)
  return (qa.pydantic, artifact.pydantic)

/-- `unverified_findings(getattr(artifact, "findings", None) or [])`: the elements of a foreign
`findings` attribute carry no quote. -/
def unverifiedOf (attempt : Nat) (sessionId : Option Str) : PyModel → Except Raised (List Str)
  | .papers p => Evidence.unverifiedFindings rt (env.verifyExactQuote attempt) sessionId 0
      p.val.findings
  | .other _ attrs =>
      let findings := attrs.getD (lit "findings") .null
      if !findings.truthy then .ok []
      else
        match SkillLoader.iterate findings with
        | some xs => .ok ((List.range xs.length).map fun i => Evidence.reportedId i [])
        | none => .error ⟨lit "TypeError", lit "object is not iterable"⟩
  | _ => .ok []

def evidenceRejection (attempt : Nat) (phase : Phase) (sessionId : Option Str)
    (artifact : Option PyModel) : Option Str :=
  match phase, artifact with
  | .fieldwork, some a =>
      match unverifiedOf rt env attempt sessionId a with
      | .error exc => some (lit "Deterministic evidence check could not run (" ++ exc.text ++
          lit "); fails closed.")
      | .ok [] => none
      | .ok unverified => some (lit "Deterministic evidence check failed for " ++
          join (lit ", ") unverified ++
          lit (": the quoted evidence was " ++
            "not found verbatim in the evidence vault record it cites (or that record " ++
            "failed its integrity check). Every tested finding needs a verifiable quote; " ++
            "a finding without a quote must be concluded 'Not tested'."))
  | _, _ => none

/-- The stored artifact of a phase, as the linter gets it. -/
def storedModel (s : AuditState) : Phase → Option PyModel
  | .planning => s.racmPlan.map .racm
  | .fieldwork => s.workingPapers.map .papers
  | .reporting => s.finalReport.map .report

/-- `lint_phase_artifact`: a linter that raises counts as an empty report. -/
def lintPhaseArtifact (attempt : Nat) (phase : Phase) (f : AuditFlow)
    (artifact : Option PyModel) : LintReport :=
  let run (target : PyModel) : LintReport :=
    ((env.linter phase attempt target).toOption).getD ⟨[]⟩
  match artifact.or (storedModel f.state phase) with
  | none => ⟨[]⟩
  | some target =>
      match phase with
      | .planning => run target
      | .fieldwork => if f.state.racmPlan.isSome then run target else ⟨[]⟩
      | .reporting =>
          match f.effectiveWorkingPapers rt with
          | .ok (some _) => if f.state.racmPlan.isSome then run target else ⟨[]⟩
          | _ => ⟨[]⟩

/-- What one attempt that did not crash leaves for the end of the loop. -/
structure Judged where
  artifact : Option PyModel
  rejection : Option Str
  qaRejected : Bool

/-- How an attempt ends: the text of the exception it raised, or a judgement. -/
abbrev AttemptEnd := Except Str Judged

def runAttempt (phase : Phase) (attempt : Nat) (inputs : CrewInputs) : FlowM AttemptEnd := do
  updateRun fun run => { run with attempts := attempt }
  let outcome := env.kickoff phase attempt inputs
  modify fun f => { f with kickoffs := f.kickoffs ++ [⟨phase, outcome⟩] }
  match readOutputs rt phase outcome with
  | .error exc => return .error (exc.text rt)
  | .ok (qaOutput, artifact) =>
      let f ← get
      let qaReason := qaRejection qaOutput
      let evidenceReason := evidenceRejection rt env attempt phase f.sessionId artifact
      let lint := lintPhaseArtifact rt env attempt phase f artifact
      updateRun fun run => { run with
        linterPassed := lint.passed
        linterViolations := lint.errors.map (·.ruleId) }
      let linterReason :=
        if !lint.passed && flagSet env "AUDIT_STRICT_LINTER" then some lint.toFeedback else none
      let reasons := ([qaReason, evidenceReason, linterReason].filterMap id).filter (· ≠ [])
      return .ok ⟨artifact, if reasons = [] then none else some (join (lit " ") reasons),
        qaReason.isSome⟩

/-! ## Ending a run -/

/-- `gen_run.ended_at = _now(); gen_run.outcome = outcome` -/
def endRun (outcome : String) : FlowM Unit :=
  updateRun fun run => { run with endedAt := some (env.now 1), outcome := lit outcome }

def failPhase (phase : Phase) (reason : Str) : FlowM Unit := do
  transition (·.errorPhase phase)
  setQaRejectionReason (some reason)
  setDossier (phase.label ++ lit " stopped with an error: " ++ reason ++
    lit " Retry the phase once the cause is fixed.")

/-- `setattr(state, field, artifact)`: assignment validates the class of the artifact. -/
def storeArtifact (phase : Phase) (artifact : Option PyModel) (s : AuditState) :
    Except Exn AuditState :=
  match phase, artifact with
  | .planning, none => .ok { s with racmPlan := none }
  | .planning, some (.racm m) => .ok { s with racmPlan := some m }
  | .fieldwork, none => .ok { s with workingPapers := none }
  | .fieldwork, some (.papers p) => .ok { s with workingPapers := some p }
  | .reporting, none => .ok { s with finalReport := none }
  | .reporting, some (.report r) => .ok { s with finalReport := some r }
  | _, _ => .error (.validation (rt.assignmentError phase.artifactField))

/-- `setattr(state, field, None)` -/
def clearArtifact (phase : Phase) (s : AuditState) : AuditState :=
  match phase with
  | .planning => { s with racmPlan := none }
  | .fieldwork => { s with workingPapers := none }
  | .reporting => { s with finalReport := none }

/-- The end of a run whose last attempt was rejected. -/
def rejectRun (phase : Phase) (last : Judged) : FlowM Unit := do
  modify fun f => { f with state := match storeArtifact rt phase last.artifact f.state with
    | .ok s => s
    | .error _ => clearArtifact phase f.state }
  endRun env "qa_rejected"
  transition (·.rejectPhase phase)
  setQaRejectionReason last.rejection
  let by_ := if last.qaRejected then lit "rejected by the QA reviewer"
    else lit "failed the deterministic evidence check"
  setDossier (phase.label ++ lit " draft " ++ by_ ++ lit " after one automatic retry: " ++
    last.rejection.getD (lit "None") ++
    lit (" Review the draft, then retry the phase or approve it with a " ++
      "written justification."))

/-- The end of a run whose last attempt was approved: whether the artifact was stored. -/
def approveRun (phase : Phase) (artifact : Option PyModel) : FlowM Bool := do
  if artifact.isNone then
    endRun env "error"
    failPhase phase (phase.label ++ lit " crew produced no " ++ phase.artifactField ++
      lit ": the output could not be parsed into the required schema.")
    return false
  let f ← get
  match storeArtifact rt phase artifact f.state with
  | .error exc =>
      endRun env "error"
      failPhase phase (phase.label ++ lit " crew produced an invalid " ++ phase.artifactField ++
        lit ": " ++ exc.text rt)
      return false
  | .ok s =>
      set { f with state := s }
      endRun env "qa_approved"
      return true

def maxQaAttempts : Nat := 2

/-- The attempt loop with what follows it; `last` is the judgement of the attempt before. -/
def crewLoop (phase : Phase) (seeded : Str) : Nat → Nat → CrewInputs → Judged → FlowM Bool
  | 0, _, _, last => do
      rejectRun rt env phase last
      return false
  | remaining + 1, attempt, inputs, _ => do
      match ← runAttempt rt env phase attempt inputs with
      | .error text =>
          endRun env "error"
          failPhase phase (phase.label ++
            (if attempt = 1 then lit " crew" else lit " crew retry") ++ lit " error: " ++ text)
          return false
      | .ok judged =>
          match judged.rejection with
          | none => approveRun rt env phase judged.artifact
          | some rejection =>
              let inputs := if attempt < maxQaAttempts then
                { inputs with feedback := seeded ++ qaFeedback phase rejection } else inputs
              crewLoop phase seeded remaining (attempt + 1) inputs judged

def runCrewWithQa (phase : Phase) (inputs : CrewInputs) : FlowM Bool := do
  startGenerationRun rt env phase
  crewLoop rt env phase inputs.feedback maxQaAttempts 1 inputs ⟨none, none, false⟩

/-! ## Phase runners -/

/-- What a phase runner is made of, besides what all three share. -/
structure PhaseRunner where
  phase : Phase
  /-- The text of the `RuntimeError` before the status. -/
  refusal : Str
  prepareSkills : FlowM Unit
  /-- Why the phase cannot run on this state, if it cannot. -/
  missingInput : AuditFlow → Option Str
  inputs : AuditFlow → Except Exn CrewInputs
  dossier : AuditFlow → Str

/-- The body shared by the three `generate_*` methods. -/
def PhaseRunner.run (p : PhaseRunner) : FlowM Unit := do
  let f ← get
  if f.machine.status ≠ .running p.phase then
    throw (.runtimeError (p.refusal ++ f.machine.status.value ++ lit ")"))
  p.prepareSkills
  setQaRejectionReason none
  let f ← get
  match p.missingInput f with
  | some reason => failPhase p.phase reason
  | none =>
      let inputs ← Proc.ofExcept (p.inputs f)
      let ok ← runCrewWithQa rt env p.phase (f.seedFeedback p.phase inputs)
      if ok then
        transition (·.completePhase p.phase)
        setDossier (p.dossier (← get))

def planningRunner : PhaseRunner where
  phase := .planning
  refusal := lit "Cannot start Planning (status="
  prepareSkills := detectSkills env
  missingInput _ := none
  inputs := planningInputs
  dossier _ := lit ("Planning QA Loop complete. No major structural flaws found. " ++
    "Please review the RACM below for final Standard 12.3 (formerly IIA 2340) approval.")

def fieldworkRunner : PhaseRunner where
  phase := .fieldwork
  refusal := lit "Cannot start Fieldwork: Gate 1 not approved (status="
  prepareSkills := ensureSkillContext env
  missingInput f :=
    if f.state.racmPlan.isNone then some (lit "Cannot run Fieldwork: no Phase 1 RACM in state.")
    else none
  inputs := fieldworkInputs
  dossier f :=
    lit "Fieldwork complete: ToD/ToE conclusions recorded for " ++
      decimal ((f.state.workingPapers.map fun p => p.val.findings.length).getD 0) ++
      lit (" finding(s), and every cited evidence quote was verified against the " ++
        "evidence vault. Review the working papers before approving Gate 2 " ++
        "(supervision step inspired by IIA Standard 12.3, formerly 2340).") ++
      if f.reviewDecisionsRequired then
        lit (" Record a sign-off or a challenge for every exception and every " ++
          "key-control finding before approving.")
      else []

def reportingRunner : PhaseRunner where
  phase := .reporting
  refusal := lit "Cannot start Reporting: Gate 2 not approved (status="
  prepareSkills := ensureSkillContext env
  missingInput f :=
    if f.state.workingPapers.isNone then
      some (lit "Cannot run Reporting: no Phase 2 working papers in state.")
    else none
  inputs := reportingInputs rt
  dossier f :=
    lit ("Reporting complete: the final report passed the tone QA review. " ++
      "Review the report and the proposed deficiency classifications (a " ++
      "draft for your judgement), then approve Gate 3 to complete the " ++
      "audit. Gate 3 must be approved by someone other than the Gate 2 approver.") ++
      if f.reviewDecisionsRequired then
        lit (" Before approving, record your classification of each " ++
          "deficiency, a scope limitation for each untested key control, " ++
          "and the engagement conclusion.")
      else []

def generatePlanning : FlowM Unit := do
  if (← get).machine.status = .waitingForScope then transition (·.startPhase1)
  (planningRunner env).run rt env

def generateFieldwork : FlowM Unit := (fieldworkRunner env).run rt env

def generateReporting : FlowM Unit := (reportingRunner rt env).run rt env

end AuditFlow

end AuditSwarm
