import AuditSwarm.Properties.CrewRuns
import AuditSwarm.Properties.Restart
import AuditSwarm.Python.Indented

/-!
# The three crews

What each crew asks its models, and that the flow finds in the result of each what it looks for.
-/

namespace AuditSwarm

open Python StrEnum

namespace NativeCrew

variable {ω : Type} {rt : Runtime} {out : Outside ω} {inputs : Inputs} {s s' : CrewState ω}
  {parts : CrewParts ω}

theorem crewOf_eq_ok {phase : Phase} {tasks : List (NativeTask ω)}
    (h : crewOf rt parts phase = .ok tasks) :
    ∃ base extra qa, parts.baseLlm = .ok base ∧ parts.qaLlm = .ok qa ∧
      tasks = tasksOf parts phase base extra qa := by
  rcases Except.bind_eq_ok_iff.mp h with ⟨base, hbase, h⟩
  rcases Except.bind_eq_ok_iff.mp h with ⟨extra, -, h⟩
  rcases Except.bind_eq_ok_iff.mp h with ⟨qa, hqa, h⟩
  exact ⟨base, extra, qa, hbase, hqa, (Except.pure_eq_ok_iff.mp h).symm⟩

/-! ## The order of the tasks -/

def table (tasks : List (NativeTask ω)) : List (Str × List Str) :=
  tasks.map fun t => (t.name, t.context)

/-- Entries have names of their own, and read entries before them. -/
def OrderedTable (entries : List (Str × List Str)) : Prop :=
  (∀ entry ∈ entries, entry.1 ≠ []) ∧ (entries.map Prod.fst).Nodup ∧
    ∀ i, i < entries.length → ∀ name ∈ (entries.getD i ([], [])).2,
      name ∈ (entries.take i).map Prod.fst

instance (entries : List (Str × List Str)) : Decidable (OrderedTable entries) :=
  inferInstanceAs (Decidable (_ ∧ _ ∧ _))

theorem ordered_of_table {tasks : List (NativeTask ω)} (h : OrderedTable (table tasks)) :
    Ordered tasks where
  named := fun t ht => h.1 (t.name, t.context) (List.mem_map_of_mem ht)
  nodup := by
    have hnames := h.2.1
    unfold table at hnames
    rw [List.map_map] at hnames
    exact hnames
  earlier := by
    rintro before t after rfl name hname
    have htable : table (before ++ t :: after) =
        table before ++ (t.name, t.context) :: table after := by
      unfold table
      rw [List.map_append, List.map_cons]
    have hlength : (table before).length = before.length := List.length_map _
    have hlt : before.length < (table (before ++ t :: after)).length := by
      rw [htable, List.length_append, List.length_cons]
      omega
    have hentry : (table (before ++ t :: after)).getD before.length ([], []) =
        (t.name, t.context) := by
      rw [htable, ← hlength, List.getD_eq_getElem?_getD, List.getElem?_append_right le_rfl,
        Nat.sub_self]
      rfl
    have hread := h.2.2 before.length hlt name (by rw [hentry]; exact hname)
    rw [htable, ← hlength, List.take_left] at hread
    unfold table at hread
    rw [List.map_map] at hread
    exact hread

def crewTable : Phase → List (String × List String)
  | .planning => [
      ("context_task", []), ("crosswalk_task", []), ("weighting_task", []),
      ("racm_drafting_task", ["weighting_task"]), ("qa_gate_task", ["racm_drafting_task"])]
  | .fieldwork => [
      ("evidence_collection_task", []),
      ("execution_evaluation_task", ["evidence_collection_task"]),
      ("eval_qa_gate_task", ["evidence_collection_task", "execution_evaluation_task"])]
  | .reporting => [
      ("deficiency_evaluation_task", []), ("drafting_task", ["deficiency_evaluation_task"]),
      ("executive_summary_task", ["drafting_task"]),
      ("tone_qa_task", ["drafting_task", "executive_summary_task", "deficiency_evaluation_task"]),
      ("generate_oscal_sar_task", ["drafting_task"]),
      ("final_report_assembly_task", ["drafting_task", "executive_summary_task",
        "generate_oscal_sar_task", "deficiency_evaluation_task"])]

theorem table_tasksOf (parts : CrewParts ω) (phase : Phase) (base : LLM) (extra : Option Str)
    (qa : LLM) : table (tasksOf parts phase base extra qa) =
      (crewTable phase).map fun entry => (lit entry.1, entry.2.map lit) := by
  cases phase with
  | planning => rfl
  | fieldwork => rfl
  | reporting => rfl

theorem ordered_tasksOf (parts : CrewParts ω) (phase : Phase) (base : LLM) (extra : Option Str)
    (qa : LLM) : Ordered (tasksOf parts phase base extra qa) := by
  apply ordered_of_table
  rw [table_tasksOf]
  cases phase with
  | planning => decide +kernel
  | fieldwork => decide +kernel
  | reporting => decide +kernel

/-! ## What each crew asks -/

/-- What a crew asks of a model: the task, whether it is asked of the model of the QA reviewers, and
the tasks whose outputs it is told. -/
structure Duty where
  name : String
  qa : Bool
  reads : List String

/-- What the crew of each phase asks.  The evidence of fieldwork is collected without a model. -/
def duties : Phase → List Duty
  | .planning => [
      ⟨"context_task", false, []⟩, ⟨"crosswalk_task", false, []⟩, ⟨"weighting_task", false, []⟩,
      ⟨"racm_drafting_task", false, ["weighting_task"]⟩,
      ⟨"qa_gate_task", true, ["racm_drafting_task"]⟩]
  | .fieldwork => [
      ⟨"execution_evaluation_task", false, ["evidence_collection_task"]⟩,
      ⟨"eval_qa_gate_task", true, ["evidence_collection_task", "execution_evaluation_task"]⟩]
  | .reporting => [
      ⟨"deficiency_evaluation_task", false, []⟩,
      ⟨"drafting_task", false, ["deficiency_evaluation_task"]⟩,
      ⟨"executive_summary_task", false, ["drafting_task"]⟩,
      ⟨"tone_qa_task", true,
        ["drafting_task", "executive_summary_task", "deficiency_evaluation_task"]⟩,
      ⟨"generate_oscal_sar_task", false, ["drafting_task"]⟩,
      ⟨"final_report_assembly_task", false, ["drafting_task", "executive_summary_task",
        "generate_oscal_sar_task", "deficiency_evaluation_task"]⟩]

/-- An exchange does a duty: the text of the configuration file, filled in, and the outputs of the
tasks it reads, each in full, are all that it says. -/
structure Duty.DoneBy (rt : Runtime) (inputs : Inputs) (parts : CrewParts ω) (base qa : LLM)
    (outputs : List NativeTaskOutput) (d : Duty) (x : Exchange) : Prop where
  role : x.role = lit d.name
  modelId : x.call.spec.modelId = if d.qa then qa.model else base.model
  temperature : x.call.spec.temperature = if d.qa then qa.temperature else base.temperature
  user : ∃ description expected told,
    interpolateOnly rt (some (parts.config.tasks d.name).description) inputs = .ok description ∧
    interpolateOnly rt (some (parts.config.tasks d.name).expectedOutput) inputs = .ok expected ∧
    List.Forall₂ (fun name o => o ∈ outputs ∧ o.name = name) (d.reads.map lit) told ∧
    x.call.userPrompt = userPrompt description expected
      (join (lit "\n\n") (told.map fun o => contextBlob o.name o))

/-- A task is a duty's. -/
structure Duty.Is (parts : CrewParts ω) (base qa : LLM) (d : Duty) (t : NativeTask ω) : Prop where
  name : t.name = lit d.name
  description : t.description = (parts.config.tasks d.name).description
  expectedOutput : t.expectedOutput = (parts.config.tasks d.name).expectedOutput
  llm : t.agent.bind (·.llm) = some (if d.qa then qa else base)
  context : t.context = d.reads.map lit

theorem Duty.Is.doneBy {base qa : LLM} {outputs : List NativeTaskOutput} {d : Duty}
    {t : NativeTask ω} {x : Exchange} (h : d.Is parts base qa t)
    (hasked : Asked rt inputs outputs t x) : d.DoneBy rt inputs parts base qa outputs x := by
  rcases hasked.spec with ⟨temperature, hspec⟩
  have hmodel : x.call.spec.modelId = (if d.qa then qa else base).model ∧
      x.call.spec.temperature = (if d.qa then qa else base).temperature := by
    rw [hspec]
    unfold specOf
    rw [h.llm]
    exact ⟨rfl, rfl⟩
  rcases hasked.user with ⟨description, expected, told, hdescription, hexpected, htold, huser⟩
  rw [h.description] at hdescription
  rw [h.expectedOutput] at hexpected
  rw [h.context] at htold
  refine ⟨hasked.role.trans h.name, ?_, ?_, description, expected, told, hdescription, hexpected,
    htold, huser⟩
  · rw [hmodel.1, apply_ite LLM.model]
  · rw [hmodel.2, apply_ite LLM.temperature]

theorem augmented_tools (name : String) (llm : LLM) (extra : Option Str) :
    (augmented parts name llm extra).tools = [] := by
  cases extra with
  | none => rfl
  | some extra => rfl

theorem augmented_llm (name : String) (llm : LLM) (extra : Option Str) :
    (augmented parts name llm extra).llm = some llm := by
  cases extra with
  | none => rfl
  | some extra => rfl

theorem forall₂_trans {α β γ : Type} {R : α → β → Prop} {S : β → γ → Prop} {T : α → γ → Prop}
    (hcomp : ∀ a b c, R a b → S b c → T a c) {as : List α} {bs : List β} {cs : List γ}
    (h : List.Forall₂ R as bs) (h' : List.Forall₂ S bs cs) : List.Forall₂ T as cs := by
  induction h generalizing cs with
  | nil =>
      cases h'
      exact .nil
  | cons hhead _ ih =>
      cases h' with
      | cons hhead' htail' => exact .cons (hcomp _ _ _ hhead hhead') (ih htail')

theorem duties_tasksOf (parts : CrewParts ω) (phase : Phase) (base : LLM) (extra : Option Str)
    (qa : LLM) : List.Forall₂ (Duty.Is parts base qa) (duties phase)
      ((tasksOf parts phase base extra qa).filter asksModel) := by
  have his : ∀ (d : Duty) (a : NativeAgent ω) (M : Option ResponseModel),
      a.llm = some (if d.qa then qa else base) →
      d.Is parts base qa (task parts d.name a M d.reads) :=
    fun d a M hllm => ⟨rfl, rfl, rfl, hllm, rfl⟩
  cases phase with
  | planning =>
      have hall : (tasksOf parts .planning base extra qa).filter asksModel =
          tasksOf parts .planning base extra qa := by
        simp [tasksOf, planningTasks, asksModel, task, agent, augmented_tools]
      rw [hall]
      exact .cons (his _ _ _ rfl) (.cons (his _ _ _ rfl) (.cons (his _ _ _ (augmented_llm ..))
        (.cons (his _ _ _ (augmented_llm ..)) (.cons (his _ _ _ rfl) .nil))))
  | fieldwork =>
      have hrest : (tasksOf parts .fieldwork base extra qa).filter asksModel =
          (tasksOf parts .fieldwork base extra qa).tail := by
        simp [tasksOf, fieldworkTasks, asksModel, task, agent, makeTools]
      rw [hrest]
      exact .cons (his _ _ _ (augmented_llm ..)) (.cons (his _ _ _ rfl) .nil)
  | reporting =>
      have hall : (tasksOf parts .reporting base extra qa).filter asksModel =
          tasksOf parts .reporting base extra qa := by
        simp [tasksOf, reportingTasks, asksModel, task, agent, augmented_tools]
      rw [hall]
      exact .cons (his _ _ _ rfl) (.cons (his _ _ _ (augmented_llm ..)) (.cons (his _ _ _ rfl)
        (.cons (his _ _ _ rfl) (.cons (his _ _ _ rfl) (.cons (his _ _ _ (augmented_llm ..))
          .nil)))))

/-- What the agents of a crew are told.  In every kickoff that returns there is one exchange for
each duty of the phase, in their order, with its receipt: a QA verdict is asked of the model of the
QA reviewers and everything else of the other, and each is told the outputs of the tasks it reads,
each in full, and of no other task. -/
theorem crew_told {phase : Phase} {tasks : List (NativeTask ω)} {o : NativeCrewOutput}
    (htasks : crewOf rt parts phase = .ok tasks)
    (hrun : (kickoff rt out inputs tasks).exec s = (.ok o, s')) :
    ∃ base qa xs rs, parts.baseLlm = .ok base ∧ parts.qaLlm = .ok qa ∧
      Adds s s' xs rs ∧ List.Forall₂ (Receipted rt) xs rs ∧
      List.Forall₂ (Duty.DoneBy rt inputs parts base qa o.tasksOutput) (duties phase) xs := by
  rcases crewOf_eq_ok htasks with ⟨base, extra, qa, hbase, hqa, rfl⟩
  rcases kickoff_asked (ordered_tasksOf parts phase base extra qa) hrun with
    ⟨-, xs, rs, hadds, hreceipts, hasked⟩
  refine ⟨base, qa, xs, rs, hbase, hqa, hadds, hreceipts, ?_⟩
  exact forall₂_trans (fun d t x his hx => his.doneBy hx)
    (duties_tasksOf parts phase base extra qa) hasked

/-- Which of the classes of the flow an object has. -/
def classOf : PyModel → Nat
  | .racm _ => 0
  | .papers _ => 1
  | .report _ => 2
  | .qa _ => 3
  | .other _ _ => 4

def dumpOf : PyModel → Json
  | .racm m => m.toJson
  | .papers p => p.val.toJson
  | .report r => r.val.toJson
  | .qa q => .obj [(lit "approved", .bool q.approved),
      (lit "rejection_reason", .ofOption .str q.rejectionReason)]
  | .other _ attrs => .obj attrs

def sampleClass (name : String) (m : PyModel) : ResponseModel where
  schemaJson := lit name
  isInstance := fun m' => classOf m' = classOf m
  modelValidate := fun d =>
    if Json.write (.obj d) = Json.write (dumpOf m) then .ok ⟨m, decide_eq_true rfl⟩
    else .error ⟨lit "ValidationError", lit name⟩
  modelValidateJson := fun raw =>
    if raw = Json.write (dumpOf m) then .ok ⟨m, decide_eq_true rfl⟩
    else .error ⟨lit "ValidationError", lit name⟩
  modelDumpJson := fun m' => .ok (Json.write (dumpOf m'))
  modelDumpIndented := fun m' => .ok (Json.indented 0 (dumpOf m'))

def sampleSchemas : OutputSchemas where
  riskControlMatrix := sampleClass "RiskControlMatrixSchema" (.racm Sample.smallRacm)
  workingPaper := sampleClass "WorkingPaperSchema" (.papers Sample.smallPapers)
  finalReport := sampleClass "FinalReportSchema" (.report Sample.smallReport)
  qaPushback := sampleClass "QA_PushbackSchema" (.qa ⟨true, none⟩)
  deficiencyEvaluationSet := sampleClass "DeficiencyEvaluationSetSchema" (.other [] [])
  oscalSar := sampleClass "OSCAL_SAR_Schema" (.other [] [])
  isRacm := by
    intro m h
    cases m with
    | racm racm => exact ⟨racm, rfl⟩
    | _ => cases h
  isPapers := by
    intro m h
    cases m with
    | papers papers => exact ⟨papers, rfl⟩
    | _ => cases h
  isReport := by
    intro m h
    cases m with
    | report report => exact ⟨report, rfl⟩
    | _ => cases h
  isQa := by
    intro m h
    cases m with
    | qa qa => exact ⟨qa, rfl⟩
    | _ => cases h

def sampleParts : CrewParts Unit where
  config := {
    agents := fun _ => ⟨lit "Auditor", lit "Audit", lit "Trained"⟩
    tasks := fun name => ⟨lit name, lit "A result"⟩ }
  schemas := sampleSchemas
  baseLlm := .ok ⟨lit "gemini/flash", 1 / 10⟩
  qaLlm := .ok ⟨lit "openai/gpt-4", 0⟩
  skillContext := []
  runTool := fun name w =>
    (if name = "List Public S3 Buckets" then .error (lit "no access") else .ok (lit "fine"), w)

/-- Models that answer with the sample papers and an approval. -/
def sampleOutside : Outside Unit where
  complete := fun call w =>
    (.ok (.content (Json.write (dumpOf (
      if call.schemaJson = lit "WorkingPaperSchema" then .papers Sample.smallPapers
      else .qa ⟨true, none⟩))) none), w)
  stamp := fun _ _ _ w => (⟨lit "id", Sample.floatText 0, Sample.floatText 0, lit "2026-01-01"⟩, w)
  stepCallback := none
  textEnvelope := sampleClass "_TextEnvelope" (.other [] [(lit "content", .str (lit "Memo"))])

/-- The sample crew of fieldwork asks two things. -/
theorem crew_told_fieldwork :
    ∃ o base qa xs rs s', sampleParts.baseLlm = .ok base ∧ sampleParts.qaLlm = .ok qa ∧
      Adds ⟨(), [], []⟩ s' xs rs ∧ List.Forall₂ (Receipted Sample.rt) xs rs ∧
      List.Forall₂ (Duty.DoneBy Sample.rt [] sampleParts base qa o) (duties .fieldwork) xs := by
  have hreturns : ((buildAndKickoff Sample.rt sampleParts sampleOutside .fieldwork []).exec
      ⟨(), [], []⟩).1.toOption.isSome = true := by
    decide +kernel
  rcases Proc.exists_exec_ok hreturns with ⟨o, s', hexec⟩
  rcases Proc.exec_bind_eq_ok_iff.mp hexec with ⟨tasks', u, hbuilt, hrun⟩
  rcases Proc.exec_ofExcept_eq_ok_iff.mp hbuilt with ⟨htasks', rfl⟩
  rcases crew_told htasks' hrun with ⟨base, qa, xs, rs, hall⟩
  exact ⟨o.tasksOutput, base, qa, xs, rs, s', hall⟩

/-! ## What the flow reads of a crew -/

def artifactModel (parts : CrewParts ω) : Phase → ResponseModel
  | .planning => parts.schemas.riskControlMatrix
  | .fieldwork => parts.schemas.workingPaper
  | .reporting => parts.schemas.finalReport

/-- Every crew has a task for its artifact and one for its QA verdict. -/
theorem exists_tasks (parts : CrewParts ω) (phase : Phase) (base : LLM) (extra : Option Str)
    (qa : LLM) :
    (∃ t ∈ tasksOf parts phase base extra qa, t.name = AuditFlow.qaTask phase ∧
      t.outputPydantic = some parts.schemas.qaPushback) ∧
    ∃ t ∈ tasksOf parts phase base extra qa, t.name = AuditFlow.artifactTask phase ∧
      t.outputPydantic = some (artifactModel parts phase) := by
  cases phase with
  | planning =>
      constructor
      · exact ⟨_, @List.mem_of_getElem? _ _ 4 _ rfl, rfl, rfl⟩
      · exact ⟨_, @List.mem_of_getElem? _ _ 3 _ rfl, rfl, rfl⟩
  | fieldwork =>
      constructor
      · exact ⟨_, @List.mem_of_getElem? _ _ 2 _ rfl, rfl, rfl⟩
      · exact ⟨_, @List.mem_of_getElem? _ _ 1 _ rfl, rfl, rfl⟩
  | reporting =>
      constructor
      · exact ⟨_, @List.mem_of_getElem? _ _ 3 _ rfl, rfl, rfl⟩
      · exact ⟨_, @List.mem_of_getElem? _ _ 5 _ rfl, rfl, rfl⟩

/-- The flow finds the output of every task that has a name of its own. -/
theorem adapterGet_output {outputs : List NativeTaskOutput}
    (hnodup : (outputs.map (·.name)).Nodup) {o : NativeTaskOutput} (ho : o ∈ outputs)
    (hname : o.name ≠ []) :
    AuditFlow.adapterGet rt (outputs.map NativeTaskOutput.toTaskOutput) o.name =
      .ok o.toTaskOutput := by
  have hnodup' : (((outputs.map NativeTaskOutput.toTaskOutput).filter
      fun t => t.name ≠ []).map (·.name)).Nodup := by
    apply List.Nodup.sublist (List.Sublist.map _ List.filter_sublist)
    rw [List.map_map]
    exact hnodup
  have hmem : o.toTaskOutput ∈ (outputs.map NativeTaskOutput.toTaskOutput).filter
      fun t => t.name ≠ [] :=
    List.mem_filter.mpr ⟨List.mem_map_of_mem ho, decide_eq_true hname⟩
  have hget := @Dict.get?_foldl_set_of_nodup _ _ _ (fun t : TaskOutput => t.name) _ hnodup' _
    hmem []
  unfold AuditFlow.adapterGet
  dsimp only
  rw [show o.name = o.toTaskOutput.name from rfl, hget]

/-- An instance of the class of a phase's artifact is stored. -/
theorem storeArtifact_returns {phase : Phase} {artifact : PyModel}
    (h : (artifactModel parts phase).isInstance artifact = true) (st : AuditState) :
    ∃ st', AuditFlow.storeArtifact rt phase (some artifact) st = .ok st' := by
  cases phase with
  | planning =>
      rcases parts.schemas.isRacm artifact h with ⟨racm, rfl⟩
      exact ⟨_, rfl⟩
  | fieldwork =>
      rcases parts.schemas.isPapers artifact h with ⟨papers, rfl⟩
      exact ⟨_, rfl⟩
  | reporting =>
      rcases parts.schemas.isReport artifact h with ⟨report, rfl⟩
      exact ⟨_, rfl⟩

theorem output_of_task {tasks : List (NativeTask ω)} {outputs : List NativeTaskOutput}
    (h : Performed rt out inputs 1 [] tasks outputs s s') {t : NativeTask ω} (ht : t ∈ tasks)
    (hnamed : t.name ≠ []) {M : ResponseModel} (hM : t.outputPydantic = some M) :
    ∃ o ∈ outputs, o.name = t.name ∧ ∃ m, o.pydantic = some m ∧ M.isInstance m = true := by
  rcases List.mem_iff_getElem?.mp ht with ⟨i, hi⟩
  rcases h.fulfilled i t hi with ⟨o, ho, hfulfils⟩
  refine ⟨o, List.mem_of_getElem? ho, ?_, hfulfils.classed M hM⟩
  rw [hfulfils.name]
  exact if_neg hnamed

/-- What the flow gets from the crew of a phase, whatever its models, tools and callbacks do: an
exception, or a result in which it finds a QA verdict and an artifact that it can store. -/
theorem crew_result_read (rt : Runtime) (parts : CrewParts ω) (out : Outside ω) (phase : Phase)
    (inputs : Inputs) (s : CrewState ω) :
    let outcome := ((buildAndKickoff rt parts out phase inputs).exec s).1.map fun o =>
      o.tasksOutput.map NativeTaskOutput.toTaskOutput
    (∃ e : Raised, outcome = .error e ∧
      AuditFlow.readOutputs rt phase outcome = .error e.toExn) ∨
    ∃ verdict artifact,
      AuditFlow.readOutputs rt phase outcome = .ok (some (.qa verdict), some artifact) ∧
      ∀ st, ∃ st', AuditFlow.storeArtifact rt phase (some artifact) st = .ok st' := by
  intro outcome
  cases hresult : ((buildAndKickoff rt parts out phase inputs).exec s).1 with
  | error e =>
      have houtcome : outcome = .error e := congrArg (Except.map _) hresult
      exact .inl ⟨e, houtcome, by rw [houtcome]; rfl⟩
  | ok o =>
      have houtcome : outcome = .ok (o.tasksOutput.map NativeTaskOutput.toTaskOutput) :=
        congrArg (Except.map _) hresult
      have hexec : (buildAndKickoff rt parts out phase inputs).exec s =
          (.ok o, ((buildAndKickoff rt parts out phase inputs).exec s).2) :=
        Prod.ext hresult rfl
      rcases Proc.exec_bind_eq_ok_iff.mp hexec with ⟨tasks, u, hbuilt, hrun⟩
      rcases Proc.exec_ofExcept_eq_ok_iff.mp hbuilt with ⟨htasks, rfl⟩
      rcases crewOf_eq_ok htasks with ⟨base, extra, qa, -, -, rfl⟩
      have hordered := ordered_tasksOf parts phase base extra qa
      have hperformed := performed_of_kickoff hrun
      have hnodup : (o.tasksOutput.map (·.name)).Nodup := by
        rw [hperformed.names hordered.named]
        exact hordered.nodup
      rcases exists_tasks parts phase base extra qa with
        ⟨⟨t, ht, htname, htM⟩, t', ht', htname', htM'⟩
      rcases output_of_task hperformed ht (hordered.named t ht) htM with
        ⟨q, hq, hqname, m, hqm, hqa⟩
      rcases output_of_task hperformed ht' (hordered.named t' ht') htM' with
        ⟨a, ha, haname, artifact, ham, hartifact⟩
      rcases parts.schemas.isQa m hqa with ⟨verdict, rfl⟩
      have hfindQa := @adapterGet_output rt _ hnodup q hq
        (by rw [hqname]; exact hordered.named t ht)
      have hfindArtifact := @adapterGet_output rt _ hnodup a ha
        (by rw [haname]; exact hordered.named t' ht')
      rw [hqname, htname] at hfindQa
      rw [haname, htname'] at hfindArtifact
      refine .inr ⟨verdict, artifact, ?_, storeArtifact_returns hartifact⟩
      rw [houtcome]
      unfold AuditFlow.readOutputs
      rw [show AuditFlow.raising (.ok (o.tasksOutput.map NativeTaskOutput.toTaskOutput)) =
        .ok (o.tasksOutput.map NativeTaskOutput.toTaskOutput) from rfl, Except.ok_bind, hfindQa,
        Except.ok_bind, hfindArtifact, Except.ok_bind]
      show Except.ok (q.pydantic, a.pydantic) = _
      rw [hqm, ham]

end NativeCrew

end AuditSwarm
