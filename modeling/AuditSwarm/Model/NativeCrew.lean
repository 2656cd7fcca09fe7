import AuditSwarm.Model.Generation

/-!
# The crew runtime

`crews/_compat.py` and the gateway of `llm_gateway.py`: templates, a structured call of a model with
its receipt, and the tasks of a crew one after the other.
-/

namespace AuditSwarm

open Python StrEnum

namespace NativeCrew

/-! ## Templates -/

/-- `[A-Za-z_]` -/
def keyStart (c : CodePoint) : Bool :=
  (65 ≤ c.val && c.val ≤ 90) || (97 ≤ c.val && c.val ≤ 122) || c.val = 95

/-- `[A-Za-z0-9_\-]` -/
def keyChar (c : CodePoint) : Bool :=
  keyStart c || (48 ≤ c.val && c.val ≤ 57) || c.val = 45

def openBrace : CodePoint := 123
def closeBrace : CodePoint := 125

/-- A match of `_PLACEHOLDER_RE` that begins with an opening brace, given the text after that: the
key and what follows the closing brace. -/
def placeholder (s : Str) : Option (Str × Str) :=
  match s.takeWhile keyChar, s.dropWhile keyChar with
  | c :: key, b :: rest => if keyStart c ∧ b = closeBrace then some (c :: key, rest) else none
  | _, _ => none

/-- The inputs of a kickoff: `str` of each value, or nothing for `None`. -/
abbrev Inputs := Dict Str (Option Str)

/-- `_replace` -/
def replacement (rt : Runtime) (inputs : Inputs) (key : Str) : Except Raised Str :=
  match inputs.get? key with
  | none => .error ⟨lit "KeyError", rt.reprStr (lit "Template variable '" ++ key ++
      lit "' not found in inputs dictionary")⟩
  | some none => .ok []
  | some (some val) => .ok val

/-- `_PLACEHOLDER_RE.sub(_replace, s)`, which passes at least one character at a time. -/
def substitute (rt : Runtime) (inputs : Inputs) : Nat → Str → Except Raised Str
  | 0, _ => .ok []
  | _ + 1, [] => .ok []
  | n + 1, c :: t =>
      match if c = openBrace then placeholder t else none with
      | some (key, rest) => do
          let val ← replacement rt inputs key
          return val ++ (← substitute rt inputs n rest)
      | none => do return c :: (← substitute rt inputs n t)

def interpolateOnly (rt : Runtime) (template : Option Str) (inputs : Inputs) :
    Except Raised Str :=
  match template with
  | none => .ok []
  | some s => if inputs = [] then .ok s else substitute rt inputs s.length s

/-! ## Models -/

structure ModelSpec where
  modelId : Str
  family : ModelRouting.ModelFamily
  effort : Str
  temperature : Rat

/-- A pydantic class a model is asked for. -/
structure ResponseModel where
  /-- `json.dumps(model_json_schema(), sort_keys=True, separators=(",", ":"))` -/
  schemaJson : Str
  isInstance : PyModel → Bool
  modelValidate : Dict Str Json → Except Raised { m : PyModel // isInstance m = true }
  modelValidateJson : Str → Except Raised { m : PyModel // isInstance m = true }
  modelDumpJson : PyModel → Except Raised Str
  /-- `model_dump_json(indent=2)` -/
  modelDumpIndented : PyModel → Except Raised Str

structure ModelCall where
  spec : ModelSpec
  systemPrompt : Str
  userPrompt : Str
  schemaJson : Str

structure Usage where
  promptTokens : Option Int
  completionTokens : Option Int

inductive Completion where
  /-- The content `litellm.completion` returns, dumped if it is no text. -/
  | content (raw : Str) (usage : Option Usage)
  /-- An object that `completion_fn` returns, and its `str`. -/
  | object (m : PyModel) (text : Str)
  /-- A dict that `completion_fn` returns, and its `json.dumps(result, sort_keys=True)`. -/
  | dict (d : Dict Str Json) (dumped : Str)

structure LLMCallReceipt where
  callId : Str
  phase : Nat
  role : Str
  modelId : Str
  modelFamily : Str
  effort : Str
  temperature : Rat
  promptSha256 : Str
  schemaSha256 : Str
  responseSha256 : Str
  inputTokens : Int
  outputTokens : Int
  costUsd : FloatRepr
  latencyMs : FloatRepr
  timestamp : Str

/-- The fields of a receipt that come from clocks, `uuid4` and the rounding of prices. -/
structure Stamp where
  callId : Str
  costUsd : FloatRepr
  latencyMs : FloatRepr
  timestamp : Str

/-! ## The gateway -/

/-- What a crew meets outside itself, over a world it changes. -/
structure Outside (ω : Type) where
  complete : ModelCall → ω → Except Raised Completion × ω
  stamp : ModelSpec → Int → Int → ω → Stamp × ω
  /-- `step_callback`, with its thought and its output -/
  stepCallback : Option (Str → Str → ω → Except Raised Unit × ω)
  /-- `_TextEnvelope` -/
  textEnvelope : ResponseModel

/-- A call of a model for a task, and what came of it. -/
structure Exchange where
  role : Str
  call : ModelCall
  answer : Except Raised Completion

/-- The world of a crew and the receipts of its gateway.  `exchanges` is a history variable: every
call of a model so far, which the source does not keep. -/
structure CrewState (ω : Type) where
  world : ω
  receipts : List LLMCallReceipt
  exchanges : List Exchange

abbrev CrewM (ω : Type) := Proc (CrewState ω) Raised

def sha256Text (rt : Runtime) (text : Str) : Except Raised Str :=
  match encodeUtf8 text with
  | none => .error ⟨lit "UnicodeEncodeError", lit "surrogates not allowed"⟩
  | some bytes => .ok (hexdigest (rt.digest (.plain bytes)))

section
variable {ω : Type} (rt : Runtime) (out : Outside ω)

/-- `completion_fn` or `litellm.completion` -/
def complete (role : Str) (call : ModelCall) : CrewM ω Completion := do
  let s ← get
  let (r, world) := out.complete call s.world
  set { s with world := world, exchanges := s.exchanges ++ [Exchange.mk role call r] }
  Proc.ofExcept r

def parsed (M : ResponseModel) :
    Completion → Except Raised ({ m : PyModel // M.isInstance m = true } × Str)
  | .content raw _ => do return (← M.modelValidateJson raw, raw)
  | .object m text =>
      if h : M.isInstance m = true then do return (⟨m, h⟩, ← M.modelDumpJson m)
      else do return (← M.modelValidateJson text, text)
  | .dict d dumped => do return (← M.modelValidate d, dumped)

/-- The token counts the usage of an answer has, instead of the estimate of the input. -/
def usageTokens (estimate : Int) : Completion → Int × Int
  | .content _ (some usage) =>
      (usage.promptTokens.getD estimate, usage.completionTokens.getD 0)
  | _ => (estimate, 0)

/-- `max(1, len(text) // 4)` -/
def estimatedTokens (text : Str) : Int := max 1 (text.length / 4 : Nat)

def combinedPrompt (call : ModelCall) : Str :=
  call.systemPrompt ++ lit "\n---\n" ++ call.userPrompt

/-- `ZeroFrameworkLLMGateway.invoke_structured` -/
def invokeStructured (phase : Nat) (role : Str) (spec : ModelSpec) (systemPrompt userPrompt : Str)
    (M : ResponseModel) : CrewM ω { m : PyModel // M.isInstance m = true } := do
  let call : ModelCall := ⟨spec, systemPrompt, userPrompt, M.schemaJson⟩
  let promptHash ← Proc.ofExcept (sha256Text rt (combinedPrompt call))
  let schemaHash ← Proc.ofExcept (sha256Text rt M.schemaJson)
  let completion ← complete out role call
  let (model, raw) ← Proc.ofExcept (parsed M completion)
  let (inputTokens, counted) := usageTokens (estimatedTokens (combinedPrompt call)) completion
  let outputTokens := if counted = 0 then estimatedTokens raw else counted
  let responseHash ← Proc.ofExcept (sha256Text rt raw)
  let s ← get
  let (stamp, world) := out.stamp spec inputTokens outputTokens s.world
  let receipt : LLMCallReceipt := {
    callId := stamp.callId
    phase := phase
    role := role
    modelId := spec.modelId
    modelFamily := value spec.family
    effort := spec.effort
    temperature := spec.temperature
    promptSha256 := promptHash
    schemaSha256 := schemaHash
    responseSha256 := responseHash
    inputTokens := inputTokens
    outputTokens := outputTokens
    costUsd := stamp.costUsd
    latencyMs := stamp.latencyMs
    timestamp := stamp.timestamp }
  set { s with world := world, receipts := s.receipts ++ [receipt] }
  return model

end

/-! ## Agents and tasks -/

/-- `NativeTool`: `run("")` yields the `str` of what it returns, or of what it raises. -/
structure NativeTool (ω : Type) where
  name : Str
  run : ω → Except Str Str × ω

structure LLM where
  model : Str
  temperature : Rat

structure NativeAgent (ω : Type) where
  role : Str
  goal : Str
  backstory : Str
  llm : Option LLM
  tools : List (NativeTool ω)

structure NativeTask (ω : Type) where
  name : Str
  description : Str
  expectedOutput : Str
  agent : Option (NativeAgent ω)
  outputPydantic : Option ResponseModel
  context : List Str

structure NativeTaskOutput where
  name : Str
  raw : Str
  pydantic : Option PyModel
  description : Str

structure NativeCrewOutput where
  raw : Str
  pydantic : Option PyModel
  tasksOutput : List NativeTaskOutput

/-! ## The run of a crew -/

section
variable {ω : Type} (rt : Runtime) (out : Outside ω)

/-- `t_name` of the task at a position, counted from 1. -/
def taskName (idx : Nat) (t : NativeTask ω) : Str :=
  if t.name = [] then lit "task_" ++ decimal idx else t.name

/-- `completed_by_name`: a later output of a name replaces an earlier one. -/
def completedByName (outputs : List NativeTaskOutput) : Dict Str NativeTaskOutput :=
  outputs.foldl (fun completed o => completed.set o.name o) []

/-- What a prompt says of an output in its context. -/
def contextBlob (name : Str) (o : NativeTaskOutput) : Str :=
  lit "=== Context from " ++ name ++ lit " ===\n" ++ o.raw

def contextString (outputs : List NativeTaskOutput) (context : List Str) : Str :=
  join (lit "\n\n") (context.filterMap fun name =>
    ((completedByName outputs).get? name).map (contextBlob name))

/-- `sys_prompt` -/
def systemPrompt (agent : Option (NativeAgent ω)) : Str :=
  strip (lit "Role: " ++ ((agent.map (·.role)).getD (lit "Auditor")) ++
    lit "\nGoal: " ++ ((agent.map (·.goal)).getD []) ++
    lit "\nBackstory: " ++ ((agent.map (·.backstory)).getD []))

def userPrompt (description expected context : Str) : Str :=
  description ++ lit "\n\nExpected Output:\n" ++ expected ++
    if context = [] then [] else lit "\n\n" ++ context

/-- `spec`, with the temperature of an agent without a model. -/
def specOf (temperature : Rat) (agent : Option (NativeAgent ω)) : ModelSpec :=
  let llm := (agent.bind (·.llm)).getD ⟨lit "gemini/gemini-2.5-flash", temperature⟩
  { modelId := llm.model
    family := ModelRouting.detectModelFamily rt llm.model
    effort := lit "medium"
    temperature := llm.temperature }

def runTool (tool : NativeTool ω) : CrewM ω Str := do
  let s ← get
  let (r, world) := tool.run s.world
  set { s with world := world }
  match r with
  | .ok res => return lit "[" ++ tool.name ++ lit "]\n" ++ res
  | .error exc => return lit "[" ++ tool.name ++ lit "] Error: " ++ exc

def runTools : List (NativeTool ω) → CrewM ω (List Str)
  | [] => return []
  | tool :: rest => do return (← runTool tool) :: (← runTools rest)

/-- `parsed_env.content` -/
def contentOf (m : PyModel) : Str :=
  match m.attr "content" with
  | some (.str s) => s
  | _ => []

def stepCallback (o : NativeTaskOutput) : CrewM ω Unit := do
  match out.stepCallback with
  | none => return
  | some callback =>
      let s ← get
      let (r, world) := callback (lit "Completed " ++ o.name) (o.raw.take 300) s.world
      set { s with world := world }
      Proc.ofExcept r

/-- What a task yields: from its tools without a model, as an instance of its class, or as text. -/
def perform (name description user : Str) (t : NativeTask ω) : CrewM ω NativeTaskOutput := do
  match t.outputPydantic, (t.agent.map (·.tools)).getD [] with
  | none, tool :: rest =>
      let results ← runTools (tool :: rest)
      return ⟨name, join (lit "\n\n") results, none, description⟩
  | some M, _ =>
      let model ← invokeStructured rt out 0 name (specOf rt 0 t.agent) (systemPrompt t.agent) user M
      let raw ← Proc.ofExcept (M.modelDumpIndented model.val)
      return ⟨name, raw, some model.val, description⟩
  | none, [] =>
      let model ← invokeStructured rt out 0 name (specOf rt (1 / 10) t.agent)
        (systemPrompt t.agent) user out.textEnvelope
      return ⟨name, contentOf model.val, none, description⟩

def runTask (inputs : Inputs) (idx : Nat) (outputs : List NativeTaskOutput) (t : NativeTask ω) :
    CrewM ω NativeTaskOutput := do
  let description ← Proc.ofExcept (interpolateOnly rt (some t.description) inputs)
  let expected ← Proc.ofExcept (interpolateOnly rt (some t.expectedOutput) inputs)
  let o ← perform rt out (taskName idx t) description
    (userPrompt description expected (contextString outputs t.context)) t
  stepCallback out o
  return o

/-- The loop over the tasks from a position on, given the outputs so far. -/
def runTasks (inputs : Inputs) :
    Nat → List NativeTaskOutput → List (NativeTask ω) → CrewM ω (List NativeTaskOutput)
  | _, outputs, [] => return outputs
  | idx, outputs, t :: rest => do
      let o ← runTask rt out inputs idx outputs t
      runTasks inputs (idx + 1) (outputs ++ [o]) rest

/-- `Crew.kickoff` -/
def kickoff (inputs : Inputs) (tasks : List (NativeTask ω)) : CrewM ω NativeCrewOutput := do
  let outputs ← runTasks rt out inputs 1 [] tasks
  let last := outputs.getLast?.getD ⟨lit "empty", [], none, []⟩
  return ⟨last.raw, last.pydantic, outputs⟩

end

end NativeCrew

end AuditSwarm
