import AuditSwarm.Model.Generation
import AuditSwarm.Model.Stored

/-!
# Sessions on disk

`FlowRepository` of `state/repository.py` over the session map of `session_manager.py`: the
snapshot a flow is saved as, and the flow loaded from a snapshot.
-/

namespace AuditSwarm

open Python Json StrEnum

/-! ## Snapshots -/

section
variable (co : Coercions)

def dumpTrail (trail : List StrEntry) : Json :=
  ofList (fun e : StrEntry => .obj (e.mapValues .str)) trail

def GenerationRun.toJson (r : GenerationRun) : Json := .obj
  [(lit "run_id", .str r.runId),
   (lit "phase", dumpNat r.phase.number),
   (lit "provider", .str r.provider),
   (lit "model", .str r.model),
   (lit "qa_provider", .str r.qaProvider),
   (lit "qa_model", .str r.qaModel),
   (lit "temperature", .float (co.floatText r.temperature)),
   (lit "qa_temperature", .float (co.floatText r.qaTemperature)),
   (lit "crewai_version", .str r.crewaiVersion),
   (lit "app_version", .str r.appVersion),
   (lit "prompt_fingerprint", .str r.promptFingerprint),
   (lit "started_at", .str r.startedAt),
   (lit "ended_at", dumpOptStr r.endedAt),
   (lit "attempts", dumpNat r.attempts),
   (lit "demo_mode", .bool r.demoMode),
   (lit "outcome", .str r.outcome),
   (lit "drafter_family", .str r.drafterFamily),
   (lit "qa_family", .str r.qaFamily),
   (lit "cross_family_verified", .bool r.crossFamilyVerified),
   (lit "linter_passed", .bool r.linterPassed),
   (lit "linter_violations", dumpStrs r.linterViolations),
   (lit "cascade_tier", .str r.cascadeTier)]

/-- `flow.state.model_dump(mode="json")` -/
def AuditState.snapshot (s : AuditState) : Dict Str Json :=
  [(lit "theme", .str s.theme),
   (lit "business_context", .str s.businessContext),
   (lit "frameworks", dumpStrs s.frameworks),
   (lit "racm_plan", ofOption RiskControlMatrixSchema.toJson s.racmPlan),
   (lit "working_papers", ofOption (fun p : ValidPapers => p.val.toJson) s.workingPapers),
   (lit "final_report", ofOption (fun r : ValidReport => r.val.toJson) s.finalReport),
   (lit "current_human_dossier", .str s.currentHumanDossier),
   (lit "status", .str s.status),
   (lit "qa_rejection_reason", dumpOptStr s.qaRejectionReason),
   (lit "active_skill_ids", dumpStrs s.activeSkillIds),
   (lit "prepared_by", .str s.preparedBy),
   (lit "approval_trail", dumpTrail s.approvalTrail),
   (lit "generation_runs", ofList (GenerationRun.toJson co) s.generationRuns),
   (lit "review_decisions", ofList ReviewDecision.toJson s.reviewDecisions),
   (lit "review_decisions_required", .bool s.reviewDecisionsRequired)]

end

/-! ## Reading a snapshot -/

section
variable (rt : Runtime) (co : Coercions)

/-- `phase: int`; a run of another phase is never written. -/
def readRunPhase (j : Json) : Option Phase := (co.intOf j).bind Phase.ofNumber?

/-- `attempts: int`; a negative number is never written. -/
def readAttempts (j : Json) : Option Nat := do
  let n ← co.intOf j
  if 0 ≤ n then return n.toNat else none

def GenerationRun.ofJson (j : Json) : Option GenerationRun := do
  let o ← readObject j
  return {
    runId := ← readField o "run_id" readStr
    phase := ← readField o "phase" (readRunPhase co)
    provider := ← readField o "provider" readStr
    model := ← readField o "model" readStr
    qaProvider := ← readField o "qa_provider" readStr
    qaModel := ← readField o "qa_model" readStr
    temperature := ← readField o "temperature" co.floatOf
    qaTemperature := ← readField o "qa_temperature" co.floatOf
    crewaiVersion := ← readField o "crewai_version" readStr
    appVersion := ← readField o "app_version" readStr
    promptFingerprint := ← readField o "prompt_fingerprint" readStr
    startedAt := ← readField o "started_at" readStr
    endedAt := ← readFieldOr none o "ended_at" readOptStr
    attempts := ← readFieldOr 0 o "attempts" (readAttempts co)
    demoMode := ← readFieldOr false o "demo_mode" co.boolOf
    outcome := ← readFieldOr (lit "running") o "outcome" readStr
    drafterFamily := ← readFieldOr [] o "drafter_family" readStr
    qaFamily := ← readFieldOr [] o "qa_family" readStr
    crossFamilyVerified := ← readFieldOr false o "cross_family_verified" co.boolOf
    linterPassed := ← readFieldOr true o "linter_passed" co.boolOf
    linterViolations := ← readFieldOr [] o "linter_violations" readStrs
    cascadeTier := ← readFieldOr (lit "tier_0_deterministic") o "cascade_tier" readStr }

def readTrail : Reader (List StrEntry) := readList (readMembers readStr)

def artifactFields : List Str := [Phase.planning, .fieldwork, .reporting].map Phase.artifactField

/-- `setattr(flow.state, field_name, schema_cls.model_validate(raw))` -/
def setArtifact (p : Phase) (raw : Json) (s : AuditState) : Option AuditState :=
  match p with
  | .planning =>
      (RiskControlMatrixSchema.ofJson rt co raw).map fun m => { s with racmPlan := some m }
  | .fieldwork => (storedPapers rt co raw).map fun m => { s with workingPapers := some m }
  | .reporting => (storedReport rt co raw).map fun m => { s with finalReport := some m }

/-- The scalar fields of the state and how an assignment to each validates its value. -/
def scalarSetters : Dict Str (Json → AuditState → Option AuditState) :=
  [(lit "theme", fun j s => (readStr j).map fun x => { s with theme := x }),
   (lit "business_context", fun j s => (readStr j).map fun x => { s with businessContext := x }),
   (lit "frameworks", fun j s => (readStrs j).map fun x => { s with frameworks := x }),
   (lit "current_human_dossier",
      fun j s => (readStr j).map fun x => { s with currentHumanDossier := x }),
   (lit "qa_rejection_reason",
      fun j s => (readOptStr j).map fun x => { s with qaRejectionReason := x }),
   (lit "active_skill_ids", fun j s => (readStrs j).map fun x => { s with activeSkillIds := x }),
   (lit "prepared_by", fun j s => (readStr j).map fun x => { s with preparedBy := x }),
   (lit "approval_trail", fun j s => (readTrail j).map fun x => { s with approvalTrail := x }),
   (lit "generation_runs", fun j s =>
      (readList (GenerationRun.ofJson co) j).map fun x => { s with generationRuns := x }),
   (lit "review_decisions", fun j s =>
      (readList (ReviewDecision.ofJson co) j).map fun x => { s with reviewDecisions := x }),
   (lit "review_decisions_required", fun j s =>
      (co.boolOf j).map fun x => { s with reviewDecisionsRequired := x })]

/-- `setattr(flow.state, k, snapshot[k])`; the state has no other field. -/
def setScalar (k : Str) (raw : Json) (s : AuditState) : Option AuditState :=
  ((scalarSetters co).get? k).bind fun assign => assign raw s

/-- What loading has come to: the state so far and the fields it skipped. -/
structure Loading where
  state : AuditState
  skippedFields : List Str

/-- One assignment of the load: a value that does not validate is skipped. -/
def Loading.assign (l : Loading) (field : Str) (result : Option AuditState) : Loading :=
  match result with
  | some s => { l with state := s }
  | none => { l with skippedFields := l.skippedFields ++ [field] }

/-- The artifact fields of a snapshot: an absent or null one is left alone. -/
def Loading.artifact (snapshot : Dict Str Json) (l : Loading) (p : Phase) : Loading :=
  match snapshot.get? p.artifactField with
  | none => l
  | some .null => l
  | some raw => l.assign p.artifactField (setArtifact rt co p raw l.state)

/-- The other fields of a snapshot but its status, in its order. -/
def Loading.scalar (snapshot : Dict Str Json) (l : Loading) (k : Str) : Loading :=
  match snapshot.get? k with
  | none => l
  | some raw => l.assign k (setScalar co k raw l.state)

def scalarFields (snapshot : Dict Str Json) : List Str :=
  (snapshot.map (·.1)).filter fun k => !artifactFields.contains k && k ≠ lit "status"

def readSnapshot (snapshot : Dict Str Json) (initial : AuditStatus) : Loading :=
  let start : Loading :=
    ⟨{ AuditState.fresh [] [] [] with status := initial.value }, []⟩
  let artifacts := [Phase.planning, .fieldwork, .reporting].foldl
    (Loading.artifact rt co snapshot) start
  (scalarFields snapshot).foldl (Loading.scalar co snapshot) artifacts

/-- `AuditStatus(snapshot.get("status", AuditStatus.WAITING_FOR_SCOPE))` -/
def initialStatus (snapshot : Dict Str Json) : Except Exn AuditStatus :=
  match snapshot.get? (lit "status") with
  | none => .ok .waitingForScope
  | some (.str s) =>
      Except.orRaise (AuditStatus.members.find? fun a => a.value = s)
        (.valueError (rt.reprStr s ++ lit " is not a valid AuditStatus"))
  | some j => .error (.valueError (rt.textOf j ++ lit " is not a valid AuditStatus"))

end

/-! ## The repository -/

/-- The session map: the fields of each session by its id. -/
abbrev Sessions := Dict Str (Dict Str Json)

structure LoadResult where
  flow : AuditFlow
  skippedFields : List Str

namespace FlowRepository

variable (rt : Runtime) (co : Coercions) (env : Env)

/-- The fields `save` writes. -/
def sessionFields (s : AuditState) : Dict Str Json :=
  [(lit "scope_text", .str s.businessContext),
   (lit "scope_preview", .str (s.businessContext.take 200)),
   (lit "status", .str s.status),
   (lit "state_snapshot", .obj (s.snapshot co))]

def updateSession (sessions : Sessions) (id : Str) (fields : Dict Str Json) : Option Sessions :=
  (sessions.get? id).map fun entry => sessions.set id (entry.update fields)

/-- `save`, without the trail anchor. -/
def save (sessions : Sessions) (id : Str) (flow : AuditFlow) : Option Sessions :=
  updateSession sessions id (sessionFields co flow.state)

def loadSnapshot (id : Str) (snapshot : Dict Str Json) : Except Exn LoadResult := do
  let initial ← initialStatus rt snapshot
  let loading := readSnapshot rt co snapshot initial
  let flow : AuditFlow := {
    state := loading.state
    machine := ⟨initial⟩
    skillContext := []
    sessionId := some id
    kickoffs := [] }
  return ⟨((AuditFlow.restoreSkillContext env).exec flow).2, loading.skippedFields⟩

def load (sessions : Sessions) (id : Str) : Except Exn (Option LoadResult) :=
  match (sessions.get? id).bind fun entry => entry.get? (lit "state_snapshot") with
  | none => .ok none
  | some (.obj snapshot) =>
      if snapshot = [] then .ok none else (loadSnapshot rt co env id snapshot).map some
  | some j =>
      if j.truthy then .error (.other (lit "AttributeError") (lit "object has no attribute 'get'"))
      else .ok none

end FlowRepository

end AuditSwarm
