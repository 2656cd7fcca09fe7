import AuditSwarm.Model.Schema

/-!
# Dumped models

`model_dump(mode="json")` of the artifacts and of a reviewer decision: one object a model, its
fields in declaration order.  Every dump is faithful: values with the same dump are equal.
-/

namespace AuditSwarm

open Python Json

/-! ## Field encoders -/

def dumpNat (n : Nat) : Json := .int n
def dumpStrs (xs : List Str) : Json := ofList .str xs
def dumpOptStr (x : Option Str) : Json := ofOption .str x
def dumpOptNat (x : Option Nat) : Json := ofOption dumpNat x
def dumpOptBool (x : Option Bool) : Json := ofOption .bool x
def dumpOptEnum {α : Type} [StrEnum α] (x : Option α) : Json := ofOption StrEnum.toJson x

theorem faithful_dumpNat : Faithful dumpNat := fun m n => by simp [dumpNat]

@[simp] theorem same_dumpStrs {xs ys : List Str} : Same (dumpStrs xs) (dumpStrs ys) ↔ xs = ys :=
  faithful_str.ofList xs ys

@[simp] theorem same_dumpOptStr {x y : Option Str} :
    Same (dumpOptStr x) (dumpOptStr y) ↔ x = y :=
  faithful_str.ofOption not_same_null_of_str x y

@[simp] theorem same_dumpOptNat {x y : Option Nat} :
    Same (dumpOptNat x) (dumpOptNat y) ↔ x = y :=
  faithful_dumpNat.ofOption (fun n => not_same_null_of_int n) x y

@[simp] theorem same_dumpOptBool {x y : Option Bool} :
    Same (dumpOptBool x) (dumpOptBool y) ↔ x = y :=
  Faithful.ofOption (fun _ _ => same_bool_iff) not_same_null_of_bool x y

@[simp] theorem same_dumpEnum {α : Type} [StrEnum α] {a b : α} :
    Same (StrEnum.toJson a) (StrEnum.toJson b) ↔ a = b :=
  StrEnum.faithful_toJson a b

@[simp] theorem same_dumpOptEnum {α : Type} [StrEnum α] {x y : Option α} :
    Same (dumpOptEnum x) (dumpOptEnum y) ↔ x = y :=
  StrEnum.faithful_toJson.ofOption (fun a => not_same_null_of_str (StrEnum.value a)) x y

/-! ## The risk and control matrix -/

def ControlTestStep.toJson (s : ControlTestStep) : Json := .obj
  [(lit "step_description", .str s.stepDescription),
   (lit "expected_result", .str s.expectedResult)]

def Population.toJson (p : Population) : Json := .obj
  [(lit "source", .str p.source),
   (lit "completeness_procedure", .str p.completenessProcedure)]

def dumpSteps (xs : List ControlTestStep) : Json := ofList ControlTestStep.toJson xs

def ControlTesting.toJson (t : ControlTesting) : Json := .obj
  [(lit "test_of_design", dumpSteps t.testOfDesign),
   (lit "test_of_effectiveness", dumpSteps t.testOfEffectiveness),
   (lit "substantive_testing", ofOption dumpSteps t.substantiveTesting),
   (lit "population", ofOption Population.toJson t.population),
   (lit "sample_size", dumpOptNat t.sampleSize),
   (lit "sampling_method", dumpOptEnum t.samplingMethod),
   (lit "period_of_reliance", dumpOptStr t.periodOfReliance)]

def Control.toJson (c : Control) : Json := .obj
  [(lit "control_id", .str c.controlId),
   (lit "description", .str c.description),
   (lit "control_owner", dumpOptStr c.controlOwner),
   (lit "frequency", dumpOptEnum c.frequency),
   (lit "nature", dumpOptEnum c.nature),
   (lit "control_type", dumpOptEnum c.controlType),
   (lit "key_control", dumpOptBool c.keyControl),
   (lit "assertions", dumpStrs c.assertions),
   (lit "ipe", dumpStrs c.ipe),
   (lit "testing_procedures", c.testingProcedures.toJson)]

def Risk.toJson (r : Risk) : Json := .obj
  [(lit "risk_id", .str r.riskId),
   (lit "description", .str r.description),
   (lit "likelihood", dumpOptEnum r.likelihood),
   (lit "impact", dumpOptEnum r.impact),
   (lit "rating_rationale", dumpOptStr r.ratingRationale),
   (lit "regulatory_mapping", dumpStrs r.regulatoryMapping),
   (lit "controls", ofList Control.toJson r.controls)]

def RiskControlMatrixSchema.toJson (m : RiskControlMatrixSchema) : Json := .obj
  [(lit "theme", .str m.theme),
   (lit "risks", ofList Risk.toJson m.risks)]

/-! ## The working papers -/

def AuditFindingSchema.toJson (f : AuditFindingSchema) : Json := .obj
  [(lit "control_id", .str f.controlId),
   (lit "vault_id_reference", .str f.vaultIdReference),
   (lit "exact_quote_from_evidence", .str f.exactQuoteFromEvidence),
   (lit "tod_conclusion", StrEnum.toJson f.todConclusion),
   (lit "toe_conclusion", StrEnum.toJson f.toeConclusion),
   (lit "toe_basis", dumpOptStr f.toeBasis),
   (lit "items_tested", dumpOptNat f.itemsTested),
   (lit "exceptions_noted", dumpOptNat f.exceptionsNoted),
   (lit "result", dumpOptEnum f.result),
   (lit "preliminary_deficiency", dumpOptBool f.preliminaryDeficiency),
   (lit "test_conclusion", .str f.testConclusion),
   (lit "legacy_severity", dumpOptStr f.legacySeverity)]

def WorkingPaperSchema.toJson (p : WorkingPaperSchema) : Json := .obj
  [(lit "theme", .str p.theme),
   (lit "findings", ofList AuditFindingSchema.toJson p.findings)]

/-! ## The final report -/

def DeficiencyEvaluationSchema.toJson (e : DeficiencyEvaluationSchema) : Json := .obj
  [(lit "deficiency_id", .str e.deficiencyId),
   (lit "title", .str e.title),
   (lit "related_findings", dumpStrs e.relatedFindings),
   (lit "related_risks", dumpStrs e.relatedRisks),
   (lit "compensating_controls", .str e.compensatingControls),
   (lit "likelihood", StrEnum.toJson e.likelihood),
   (lit "magnitude", StrEnum.toJson e.magnitude),
   (lit "classification", StrEnum.toJson e.classification),
   (lit "rationale", .str e.rationale)]

def OscalMetadata.toJson (m : OscalMetadata) : Json := .obj
  [(lit "title", .str m.title),
   (lit "last_modified", .str m.lastModified),
   (lit "version", .str m.version),
   (lit "oscal_version", .str m.oscalVersion)]

def OscalImportAp.toJson (i : OscalImportAp) : Json := .obj
  [(lit "href", .str i.href),
   (lit "remarks", dumpOptStr i.remarks)]

def OscalObservation.toJson (o : OscalObservation) : Json := .obj
  [(lit "observation_id", .str o.observationId),
   (lit "description", .str o.description),
   (lit "methods", dumpStrs o.methods),
   (lit "subjects", dumpStrs o.subjects),
   (lit "relevant_evidence", dumpStrs o.relevantEvidence)]

def OscalResult.toJson (r : OscalResult) : Json := .obj
  [(lit "assessment_result_id", .str r.assessmentResultId),
   (lit "start_date", .str r.startDate),
   (lit "end_date", .str r.endDate),
   (lit "observations", ofList OscalObservation.toJson r.observations)]

def OscalSarSchema.toJson (s : OscalSarSchema) : Json := .obj
  [(lit "metadata", s.metadata.toJson),
   (lit "import_ap", s.importAp.toJson),
   (lit "results", ofList OscalResult.toJson s.results)]

def FinalReportSchema.toJson (r : FinalReportSchema) : Json := .obj
  [(lit "executive_summary", .str r.executiveSummary),
   (lit "detailed_report", .str r.detailedReport),
   (lit "compliance_tone_approved", .bool r.complianceToneApproved),
   (lit "deficiency_evaluations", ofList DeficiencyEvaluationSchema.toJson r.deficiencyEvaluations),
   (lit "deficiency_scale", dumpOptEnum r.deficiencyScale),
   (lit "oscal_sar", ofOption OscalSarSchema.toJson r.oscalSar)]

/-! ## Reviewer decisions -/

def ReviewDecision.toJson (d : ReviewDecision) : Json := .obj
  [(lit "decision_id", .str d.decisionId),
   (lit "phase", dumpNat d.phase),
   (lit "artifact", .str d.artifact),
   (lit "draft_digest", .str d.draftDigest),
   (lit "subject_type", StrEnum.toJson d.subjectType),
   (lit "subject_id", .str d.subjectId),
   (lit "decision_type", StrEnum.toJson d.decisionType),
   (lit "values", .obj (d.values.mapValues .str)),
   (lit "rationale", .str d.rationale),
   (lit "decided_by", .str d.decidedBy),
   (lit "identity_source", StrEnum.toJson d.identitySource),
   (lit "decided_at", .str d.decidedAt),
   (lit "supersedes", dumpOptStr d.supersedes)]

/-! ## Dumps are faithful -/

theorem ControlTestStep.faithful_toJson : Faithful ControlTestStep.toJson := by
  intro a b
  rw [ControlTestStep.toJson, ControlTestStep.toJson, same_obj_iff (by rfl) (by simp)]
  cases a; cases b
  simp

theorem Population.faithful_toJson : Faithful Population.toJson := by
  intro a b
  rw [Population.toJson, Population.toJson, same_obj_iff (by rfl) (by simp)]
  cases a; cases b
  simp

@[simp] theorem same_dumpSteps {xs ys : List ControlTestStep} :
    Same (dumpSteps xs) (dumpSteps ys) ↔ xs = ys :=
  ControlTestStep.faithful_toJson.ofList xs ys

theorem ControlTesting.faithful_toJson : Faithful ControlTesting.toJson := by
  intro a b
  have hsteps := @Faithful.ofOption _ dumpSteps (fun _ _ => same_dumpSteps)
    (fun _ => not_same_null_of_arr _)
  have hpop := Population.faithful_toJson.ofOption (fun _ => not_same_null_of_obj _)
  rw [ControlTesting.toJson, ControlTesting.toJson, same_obj_iff (by rfl) (by simp)]
  cases a; cases b
  simp [hsteps _ _, hpop _ _]

theorem Control.faithful_toJson : Faithful Control.toJson := by
  intro a b
  rw [Control.toJson, Control.toJson, same_obj_iff (by rfl) (by simp)]
  cases a; cases b
  simp [ControlTesting.faithful_toJson _ _]

theorem Risk.faithful_toJson : Faithful Risk.toJson := by
  intro a b
  rw [Risk.toJson, Risk.toJson, same_obj_iff (by rfl) (by simp)]
  cases a; cases b
  simp [Control.faithful_toJson.ofList _ _]

theorem RiskControlMatrixSchema.faithful_toJson : Faithful RiskControlMatrixSchema.toJson := by
  intro a b
  rw [RiskControlMatrixSchema.toJson, RiskControlMatrixSchema.toJson,
    same_obj_iff (by rfl) (by simp)]
  cases a; cases b
  simp [Risk.faithful_toJson.ofList _ _]

theorem AuditFindingSchema.faithful_toJson : Faithful AuditFindingSchema.toJson := by
  intro a b
  rw [AuditFindingSchema.toJson, AuditFindingSchema.toJson, same_obj_iff (by rfl) (by simp)]
  cases a; cases b
  simp

theorem WorkingPaperSchema.faithful_toJson : Faithful WorkingPaperSchema.toJson := by
  intro a b
  rw [WorkingPaperSchema.toJson, WorkingPaperSchema.toJson, same_obj_iff (by rfl) (by simp)]
  cases a; cases b
  simp [AuditFindingSchema.faithful_toJson.ofList _ _]

theorem DeficiencyEvaluationSchema.faithful_toJson :
    Faithful DeficiencyEvaluationSchema.toJson := by
  intro a b
  rw [DeficiencyEvaluationSchema.toJson, DeficiencyEvaluationSchema.toJson,
    same_obj_iff (by rfl) (by simp)]
  cases a; cases b
  simp

theorem OscalObservation.faithful_toJson : Faithful OscalObservation.toJson := by
  intro a b
  rw [OscalObservation.toJson, OscalObservation.toJson, same_obj_iff (by rfl) (by simp)]
  cases a; cases b
  simp

theorem OscalResult.faithful_toJson : Faithful OscalResult.toJson := by
  intro a b
  rw [OscalResult.toJson, OscalResult.toJson, same_obj_iff (by rfl) (by simp)]
  cases a; cases b
  simp [OscalObservation.faithful_toJson.ofList _ _]

theorem OscalSarSchema.faithful_toJson : Faithful OscalSarSchema.toJson := by
  intro a b
  rw [OscalSarSchema.toJson, OscalSarSchema.toJson, same_obj_iff (by rfl) (by simp)]
  rcases a with ⟨⟨_, _, _, _⟩, ⟨_, _⟩, _⟩
  rcases b with ⟨⟨_, _, _, _⟩, ⟨_, _⟩, _⟩
  simp [OscalMetadata.toJson, OscalImportAp.toJson, OscalResult.faithful_toJson.ofList _ _,
    same_obj_iff]

theorem FinalReportSchema.faithful_toJson : Faithful FinalReportSchema.toJson := by
  intro a b
  have hsar := OscalSarSchema.faithful_toJson.ofOption (fun _ => not_same_null_of_obj _)
  rw [FinalReportSchema.toJson, FinalReportSchema.toJson, same_obj_iff (by rfl) (by simp)]
  cases a; cases b
  simp [DeficiencyEvaluationSchema.faithful_toJson.ofList _ _, hsar _ _]

end AuditSwarm
