import AuditSwarm.Model.Status

/-!
# Artifact schemas

The pydantic models of `schema.py`: the risk and control matrix, the working papers, the final
report and the reviewer decisions, with the validators of the last three and the JSON each one
is dumped to.  A value that has passed its validators is a subtype, so that an artifact in the
audit state is valid by construction.
-/

namespace AuditSwarm

open Python

/-! ## Enumerations -/

/-- A `StrEnum`: finitely many members, each with its own text. -/
class StrEnum (α : Type) where
  value : α → Str
  members : List α
  mem_members : ∀ a, a ∈ members
  nodup : (members.map value).Nodup

namespace StrEnum

variable {α : Type} [StrEnum α]

theorem value_injective : Function.Injective (value (α := α)) := fun _ _ h =>
  List.inj_on_of_nodup_map nodup (mem_members _) (mem_members _) h

@[simp] theorem value_inj {a b : α} : value a = value b ↔ a = b := value_injective.eq_iff

/-- The member with the given text, as `Enum(text)`. -/
def ofValue? (s : Str) : Option α := members.find? (fun a => value a = s)

@[simp] theorem ofValue?_value (a : α) : ofValue? (value a) = some a := by
  rw [ofValue?, List.find?_eq_some_iff_getElem]
  rcases List.mem_iff_getElem.mp (mem_members a) with ⟨i, hi, rfl⟩
  refine ⟨by simp, i, hi, rfl, fun j hj => ?_⟩
  have hne : (members : List α)[j] ≠ members[i] := by
    intro h
    have hnodup : (members : List α).Nodup := List.Nodup.of_map value nodup
    have hinj := List.nodup_iff_injective_get.mp hnodup
    have hij : (⟨j, lt_trans hj hi⟩ : Fin _) = ⟨i, hi⟩ := hinj h
    exact absurd (Fin.mk.inj hij) (Nat.ne_of_lt hj)
  simpa using hne

def toJson (a : α) : Json := .str (value a)

theorem faithful_toJson : Json.Faithful (toJson (α := α)) := fun a b => by
  simp [toJson]

/-- `", ".join(m.value for m in Enum)` -/
def listing (α : Type) [StrEnum α] : Str := join (lit ", ") ((members : List α).map value)

end StrEnum

open StrEnum (value)

inductive RiskRating where
  | low | medium | high
  deriving DecidableEq, Repr

inductive ControlFrequency where
  | annual | quarterly | monthly | weekly | daily | multipleTimesPerDay | eventDriven | continuous
  deriving DecidableEq, Repr

inductive ControlNature where
  | manual | automated | itDependentManual
  deriving DecidableEq, Repr

inductive ControlType where
  | preventive | detective
  deriving DecidableEq, Repr

inductive SamplingMethod where
  | testOfOne | random | systematic | haphazard | judgmental | fullPopulation | notApplicable
  deriving DecidableEq, Repr

inductive DesignConclusion where
  | effective | ineffective | notTested
  deriving DecidableEq, Repr

inductive OperatingConclusion where
  | effective | exceptionsNoted | ineffective | notTested
  deriving DecidableEq, Repr

inductive FindingResult where
  | noException | exception | notTested
  deriving DecidableEq, Repr

inductive DeficiencyScale where
  | icfr | riskRating
  deriving DecidableEq, Repr

inductive DeficiencyClassification where
  | controlDeficiency | significantDeficiency | materialWeakness | low | medium | high
  | notADeficiency
  deriving DecidableEq, Repr

inductive DecisionType where
  | signOff | challenge | classify | scopeLimitation | writeup | managementResponse
  | engagementConclusion | remediationVerification
  deriving DecidableEq, Repr

inductive DecisionSubjectType where
  | finding | deficiency | engagement
  deriving DecidableEq, Repr

inductive IdentitySource where
  | declared | authenticated
  deriving DecidableEq, Repr

inductive EngagementRating where
  | satisfactory | needsImprovement | unsatisfactory
  deriving DecidableEq, Repr

inductive ManagementAgreement where
  | agree | partly | disagree
  deriving DecidableEq, Repr

inductive RemediationStatus where
  | remediated | partiallyRemediated | stillOpen
  deriving DecidableEq, Repr

instance : StrEnum RiskRating where
  value
    | .low => lit "Low"
    | .medium => lit "Medium"
    | .high => lit "High"
  members := [.low, .medium, .high]
  mem_members a := by cases a <;> decide
  nodup := by decide +kernel

instance : StrEnum ControlFrequency where
  value
    | .annual => lit "Annual"
    | .quarterly => lit "Quarterly"
    | .monthly => lit "Monthly"
    | .weekly => lit "Weekly"
    | .daily => lit "Daily"
    | .multipleTimesPerDay => lit "Multiple times per day"
    | .eventDriven => lit "Event-driven"
    | .continuous => lit "Continuous"
  members := [.annual, .quarterly, .monthly, .weekly, .daily, .multipleTimesPerDay, .eventDriven,
    .continuous]
  mem_members a := by cases a <;> decide
  nodup := by decide +kernel

instance : StrEnum ControlNature where
  value
    | .manual => lit "Manual"
    | .automated => lit "Automated"
    | .itDependentManual => lit "IT-dependent manual"
  members := [.manual, .automated, .itDependentManual]
  mem_members a := by cases a <;> decide
  nodup := by decide +kernel

instance : StrEnum ControlType where
  value
    | .preventive => lit "Preventive"
    | .detective => lit "Detective"
  members := [.preventive, .detective]
  mem_members a := by cases a <;> decide
  nodup := by decide +kernel

instance : StrEnum SamplingMethod where
  value
    | .testOfOne => lit "Test of one"
    | .random => lit "Random"
    | .systematic => lit "Systematic"
    | .haphazard => lit "Haphazard"
    | .judgmental => lit "Judgmental"
    | .fullPopulation => lit "Full population"
    | .notApplicable => lit "Not applicable"
  members := [.testOfOne, .random, .systematic, .haphazard, .judgmental, .fullPopulation,
    .notApplicable]
  mem_members a := by cases a <;> decide
  nodup := by decide +kernel

instance : StrEnum DesignConclusion where
  value
    | .effective => lit "Effective"
    | .ineffective => lit "Ineffective"
    | .notTested => lit "Not tested"
  members := [.effective, .ineffective, .notTested]
  mem_members a := by cases a <;> decide
  nodup := by decide +kernel

instance : StrEnum OperatingConclusion where
  value
    | .effective => lit "Effective"
    | .exceptionsNoted => lit "Exceptions noted"
    | .ineffective => lit "Ineffective"
    | .notTested => lit "Not tested"
  members := [.effective, .exceptionsNoted, .ineffective, .notTested]
  mem_members a := by cases a <;> decide
  nodup := by decide +kernel

instance : StrEnum FindingResult where
  value
    | .noException => lit "No exception"
    | .exception => lit "Exception"
    | .notTested => lit "Not tested"
  members := [.noException, .exception, .notTested]
  mem_members a := by cases a <;> decide
  nodup := by decide +kernel

instance : StrEnum DeficiencyScale where
  value
    | .icfr => lit "ICFR deficiency scale"
    | .riskRating => lit "Risk rating"
  members := [.icfr, .riskRating]
  mem_members a := by cases a <;> decide
  nodup := by decide +kernel

instance : StrEnum DeficiencyClassification where
  value
    | .controlDeficiency => lit "Control Deficiency"
    | .significantDeficiency => lit "Significant Deficiency"
    | .materialWeakness => lit "Material Weakness"
    | .low => lit "Low"
    | .medium => lit "Medium"
    | .high => lit "High"
    | .notADeficiency => lit "Not a deficiency"
  members := [.controlDeficiency, .significantDeficiency, .materialWeakness, .low, .medium, .high,
    .notADeficiency]
  mem_members a := by cases a <;> decide
  nodup := by decide +kernel

instance : StrEnum DecisionType where
  value
    | .signOff => lit "sign_off"
    | .challenge => lit "challenge"
    | .classify => lit "classify"
    | .scopeLimitation => lit "scope_limitation"
    | .writeup => lit "writeup"
    | .managementResponse => lit "management_response"
    | .engagementConclusion => lit "engagement_conclusion"
    | .remediationVerification => lit "remediation_verification"
  members := [.signOff, .challenge, .classify, .scopeLimitation, .writeup, .managementResponse,
    .engagementConclusion, .remediationVerification]
  mem_members a := by cases a <;> decide
  nodup := by decide +kernel

instance : StrEnum DecisionSubjectType where
  value
    | .finding => lit "finding"
    | .deficiency => lit "deficiency"
    | .engagement => lit "engagement"
  members := [.finding, .deficiency, .engagement]
  mem_members a := by cases a <;> decide
  nodup := by decide +kernel

instance : StrEnum IdentitySource where
  value
    | .declared => lit "declared"
    | .authenticated => lit "authenticated"
  members := [.declared, .authenticated]
  mem_members a := by cases a <;> decide
  nodup := by decide +kernel

instance : StrEnum EngagementRating where
  value
    | .satisfactory => lit "Satisfactory"
    | .needsImprovement => lit "Needs improvement"
    | .unsatisfactory => lit "Unsatisfactory"
  members := [.satisfactory, .needsImprovement, .unsatisfactory]
  mem_members a := by cases a <;> decide
  nodup := by decide +kernel

instance : StrEnum ManagementAgreement where
  value
    | .agree => lit "agree"
    | .partly => lit "partial"
    | .disagree => lit "disagree"
  members := [.agree, .partly, .disagree]
  mem_members a := by cases a <;> decide
  nodup := by decide +kernel

instance : StrEnum RemediationStatus where
  value
    | .remediated => lit "remediated"
    | .partiallyRemediated => lit "partially_remediated"
    | .stillOpen => lit "open"
  members := [.remediated, .partiallyRemediated, .stillOpen]
  mem_members a := by cases a <;> decide
  nodup := by decide +kernel

/-! ## Planning: the risk and control matrix -/

structure ControlTestStep where
  stepDescription : Str
  expectedResult : Str
  deriving DecidableEq

structure Population where
  source : Str
  completenessProcedure : Str
  deriving DecidableEq

structure ControlTesting where
  testOfDesign : List ControlTestStep
  testOfEffectiveness : List ControlTestStep
  substantiveTesting : Option (List ControlTestStep)
  population : Option Population
  sampleSize : Option Nat
  samplingMethod : Option SamplingMethod
  periodOfReliance : Option Str
  deriving DecidableEq

structure Control where
  controlId : Str
  description : Str
  controlOwner : Option Str
  frequency : Option ControlFrequency
  nature : Option ControlNature
  controlType : Option ControlType
  keyControl : Option Bool
  assertions : List Str
  ipe : List Str
  testingProcedures : ControlTesting
  deriving DecidableEq

structure Risk where
  riskId : Str
  description : Str
  likelihood : Option RiskRating
  impact : Option RiskRating
  ratingRationale : Option Str
  regulatoryMapping : List Str
  controls : List Control
  deriving DecidableEq

structure RiskControlMatrixSchema where
  theme : Str
  risks : List Risk
  deriving DecidableEq

/-! ## Fieldwork: the working papers -/

def deriveResult (tod : DesignConclusion) (toe : OperatingConclusion) (exceptions : Option Nat) :
    FindingResult :=
  if tod = .ineffective ∨ (toe = .exceptionsNoted ∨ toe = .ineffective) ∨
      0 < exceptions.getD 0 then .exception
  else if tod = .notTested ∧ toe = .notTested then .notTested
  else .noException

structure AuditFindingSchema where
  controlId : Str
  vaultIdReference : Str
  exactQuoteFromEvidence : Str
  todConclusion : DesignConclusion
  toeConclusion : OperatingConclusion
  toeBasis : Option Str
  itemsTested : Option Nat
  exceptionsNoted : Option Nat
  result : Option FindingResult
  preliminaryDeficiency : Option Bool
  testConclusion : Str
  legacySeverity : Option Str
  deriving DecidableEq

namespace AuditFindingSchema

/-- The result the conclusions and the exception count lead to. -/
def derived (f : AuditFindingSchema) : FindingResult :=
  deriveResult f.todConclusion f.toeConclusion f.exceptionsNoted

def checkedResult (f : AuditFindingSchema) : Except Exn FindingResult :=
  match f.result with
  | none => .ok f.derived
  | some r =>
      if r = f.derived then .ok r
      else .error (.validation (f.controlId ++ lit ": result '" ++ value r ++
        lit "' contradicts ToD '" ++ value f.todConclusion ++ lit "', ToE '" ++
        value f.toeConclusion ++ lit "' and exceptions_noted=" ++
        (f.exceptionsNoted.map decimal).getD (lit "None") ++ lit " (expected '" ++
        value f.derived ++ lit "')"))

/-- The preliminary deficiency flag, which defaults to true for an exception. -/
def checkedDeficiency (f : AuditFindingSchema) (result : FindingResult) : Except Exn Bool :=
  match f.preliminaryDeficiency with
  | none => .ok (result = .exception)
  | some b =>
      if b = true ∧ result ≠ .exception then
        .error (.validation (f.controlId ++ lit ": preliminary_deficiency requires result 'Exception'"))
      else .ok b

/-- `_consistent`, the last validator of a finding: it fills in an omitted result and deficiency
flag and refuses a finding that contradicts itself. -/
def consistent (f : AuditFindingSchema) : Except Exn AuditFindingSchema := do
  Except.ensure (¬ (f.toeConclusion = .effective ∧ 0 < f.exceptionsNoted.getD 0))
    (.validation (f.controlId ++ lit ": ToE 'Effective' with exceptions_noted=" ++
      decimal (f.exceptionsNoted.getD 0) ++ lit "; conclude 'Exceptions noted' or 'Ineffective'"))
  let result ← f.checkedResult
  let preliminary ← f.checkedDeficiency result
  Except.ensure (result = .notTested ∨
      (strip f.exactQuoteFromEvidence ≠ [] ∧ strip f.vaultIdReference ≠ []))
    (.validation (f.controlId ++ lit (": a tested control needs a verbatim evidence " ++
      "quote and its vault ID; otherwise conclude 'Not tested'")))
  return { f with result := some result, preliminaryDeficiency := some preliminary }

def Valid (f : AuditFindingSchema) : Prop := f.consistent = .ok f

instance (f : AuditFindingSchema) : Decidable f.Valid := by unfold Valid; infer_instance

/-- The result of a valid finding is the one its conclusions lead to. -/
theorem Valid.result_eq {f : AuditFindingSchema} (h : f.Valid) : f.result = some f.derived := by
  unfold Valid consistent at h
  simp only [Except.bind_eq_ok_iff, Except.pure_eq_ok_iff] at h
  rcases h with ⟨_, -, r, hr, d, -, _, -, hf⟩
  have hresult : f.result = some r := by rw [← hf]
  unfold checkedResult at hr
  rw [hresult] at hr ⊢
  dsimp only at hr
  split at hr
  · rename_i hd
    rw [hd]
  · cases hr

end AuditFindingSchema

structure WorkingPaperSchema where
  theme : Str
  findings : List AuditFindingSchema
  deriving DecidableEq

def WorkingPaperSchema.Valid (papers : WorkingPaperSchema) : Prop :=
  ∀ f ∈ papers.findings, f.Valid

instance (papers : WorkingPaperSchema) : Decidable papers.Valid :=
  inferInstanceAs (Decidable (∀ f ∈ papers.findings, f.Valid))

/-! ## Reporting: the final report -/

structure DeficiencyEvaluationSchema where
  deficiencyId : Str
  title : Str
  relatedFindings : List Str
  relatedRisks : List Str
  compensatingControls : Str
  likelihood : RiskRating
  magnitude : RiskRating
  classification : DeficiencyClassification
  rationale : Str
  deriving DecidableEq

def scaleClassifications : DeficiencyScale → List DeficiencyClassification
  | .icfr => [.controlDeficiency, .significantDeficiency, .materialWeakness, .notADeficiency]
  | .riskRating => [.low, .medium, .high, .notADeficiency]

namespace DeficiencyEvaluationSchema

/-- Whether a classification claims a material weakness its likelihood and magnitude do not
support. -/
def unsupportedMaterialWeakness (classification : DeficiencyClassification)
    (likelihood magnitude : RiskRating) : Bool :=
  classification = .materialWeakness && (likelihood = .low || magnitude ≠ .high)

def Valid (e : DeficiencyEvaluationSchema) : Prop :=
  e.relatedFindings ≠ [] ∧
    unsupportedMaterialWeakness e.classification e.likelihood e.magnitude = false

instance (e : DeficiencyEvaluationSchema) : Decidable e.Valid := by unfold Valid; infer_instance

end DeficiencyEvaluationSchema

def DeficiencyClassification.repr (c : DeficiencyClassification) : Str :=
  let name := match c with
    | .controlDeficiency => "CONTROL_DEFICIENCY"
    | .significantDeficiency => "SIGNIFICANT_DEFICIENCY"
    | .materialWeakness => "MATERIAL_WEAKNESS"
    | .low => "LOW"
    | .medium => "MEDIUM"
    | .high => "HIGH"
    | .notADeficiency => "NOT_A_DEFICIENCY"
  lit "<DeficiencyClassification." ++ lit name ++ lit ": '" ++ value c ++ lit "'>"

/-- `_check_scale`: the scale of the evaluations, inferred when unset and unambiguous. -/
def checkScale (scale : Option DeficiencyScale) (evaluations : List DeficiencyEvaluationSchema) :
    Except Exn (Option DeficiencyScale) :=
  let onScale (s : DeficiencyScale) :=
    evaluations.all fun e => (scaleClassifications s).contains e.classification
  match scale with
  | none =>
      match [DeficiencyScale.icfr, .riskRating].filter onScale with
      | [] => .error (.validation (lit "deficiency evaluations mix ICFR and risk-rating scales"))
      | [s] => .ok (some s)
      | _ => .ok none
  | some s =>
      if onScale s then .ok (some s)
      else
        let stray := ((evaluations.map (·.classification)).filter fun c =>
          !(scaleClassifications s).contains c).dedup
        .error (.validation (lit "classifications [" ++
          join (lit ", ") ((stray.insertionSort fun a b => value a ≤ value b).map
            DeficiencyClassification.repr) ++
          lit "] are not on the '" ++ value s ++ lit "' scale"))

structure OscalMetadata where
  title : Str
  lastModified : Str
  version : Str
  oscalVersion : Str
  deriving DecidableEq

structure OscalImportAp where
  href : Str
  remarks : Option Str
  deriving DecidableEq

structure OscalObservation where
  observationId : Str
  description : Str
  methods : List Str
  subjects : List Str
  relevantEvidence : List Str
  deriving DecidableEq

structure OscalResult where
  assessmentResultId : Str
  startDate : Str
  endDate : Str
  observations : List OscalObservation
  deriving DecidableEq

structure OscalSarSchema where
  metadata : OscalMetadata
  importAp : OscalImportAp
  results : List OscalResult
  deriving DecidableEq

structure FinalReportSchema where
  executiveSummary : Str
  detailedReport : Str
  complianceToneApproved : Bool
  deficiencyEvaluations : List DeficiencyEvaluationSchema
  deficiencyScale : Option DeficiencyScale
  oscalSar : Option OscalSarSchema
  deriving DecidableEq

def FinalReportSchema.Valid (report : FinalReportSchema) : Prop :=
  (∀ e ∈ report.deficiencyEvaluations, e.Valid) ∧
    checkScale report.deficiencyScale report.deficiencyEvaluations = .ok report.deficiencyScale

instance (report : FinalReportSchema) : Decidable report.Valid := by
  unfold FinalReportSchema.Valid
  infer_instance

/-! ## Reviewer decisions -/

structure ReviewDecision where
  decisionId : Str
  phase : Nat
  artifact : Str
  draftDigest : Str
  subjectType : DecisionSubjectType
  subjectId : Str
  decisionType : DecisionType
  values : Dict Str Str
  rationale : Str
  decidedBy : Str
  identitySource : IdentitySource
  decidedAt : Str
  supersedes : Option Str
  deriving DecidableEq

end AuditSwarm
