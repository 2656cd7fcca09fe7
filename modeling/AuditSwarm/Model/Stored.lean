import AuditSwarm.Model.Decisions
import AuditSwarm.Python.Reading

/-!
# Stored models

`model_validate` of the artifact schemas and of a reviewer decision: what pydantic builds from a
stored JSON value, with the validators of `schema.py`, or nothing when it raises a
`ValidationError`.
-/

namespace AuditSwarm

open Python Json StrEnum Decisions

/-- How pydantic coerces numbers and booleans in lax mode, and the digits `\d` matches.  A value
that has the type of the field already is kept. -/
structure Coercions where
  boolOf : Reader Bool
  intOf : Reader Int
  floatOf : Reader Rat
  /-- `json` text of a `float` -/
  floatText : Rat → FloatRepr
  isDecimal : CodePoint → Bool
  boolOf_bool : ∀ b, boolOf (.bool b) = some b
  intOf_int : ∀ n, intOf (.int n) = some n
  /-- The temperatures of a generation run survive their text. -/
  floatOf_zero : floatOf (.float (floatText 0)) = some 0
  floatOf_tenth : floatOf (.float (floatText (1 / 10))) = some (1 / 10)

variable (rt : Runtime) (co : Coercions)

/-! ## Field readers -/

/-- An enum field without `_lenient`. -/
def readEnum (α : Type) [StrEnum α] : Reader α
  | .str s => ofValue? s
  | _ => none

/-- `_lenient_int`; `none` is the `ValueError` of a number that is too long. -/
def lenientInt : Json → Option Json
  | .str s =>
      let digits := (s.dropWhile fun c => !co.isDecimal c).takeWhile co.isDecimal
      if digits = [] then some .null else (rt.intOfStr digits).map .int
  | j => some j

/-- `Annotated[Optional[int], BeforeValidator(_lenient_int)]` with `ge=0`. -/
def readCount (j : Json) : Option (Option Nat) := do
  match ← lenientInt rt co j with
  | .null => return none
  | j =>
      let n ← co.intOf j
      if 0 ≤ n then return some n.toNat else none

def readStrs : Reader (List Str) := readList readStr

def readOptStr : Reader (Option Str) := readOption readStr

def readOptEnum (α : Type) [StrEnum α] : Reader (Option α) := readOption (lenientEnum rt α)

/-! ## The risk and control matrix -/

def ControlTestStep.ofJson (j : Json) : Option ControlTestStep := do
  let o ← readObject j
  return {
    stepDescription := ← readField o "step_description" readStr
    expectedResult := ← readField o "expected_result" readStr }

/-- `Population`: a text is read as its source. -/
def Population.ofJson (j : Json) : Option Population := do
  let o ← match j with
    | .str s => some [(lit "source", .str s)]
    | j => readObject j
  return {
    source := ← readField o "source" readStr
    completenessProcedure :=
      ← readFieldOr (lit "Not specified") o "completeness_procedure" readStr }

def ControlTesting.ofJson (j : Json) : Option ControlTesting := do
  let o ← readObject j
  let steps := readList ControlTestStep.ofJson
  return {
    testOfDesign := ← readField o "test_of_design" steps
    testOfEffectiveness := ← readField o "test_of_effectiveness" steps
    substantiveTesting := ← readFieldOr none o "substantive_testing" (readOption steps)
    population := ← readFieldOr none o "population" (readOption Population.ofJson)
    sampleSize := ← readFieldOr none o "sample_size" (readCount rt co)
    samplingMethod := ← readFieldOr none o "sampling_method" (readOptEnum rt _)
    periodOfReliance := ← readFieldOr none o "period_of_reliance" readOptStr }

def Control.ofJson (j : Json) : Option Control := do
  let o ← readObject j
  return {
    controlId := ← readField o "control_id" readStr
    description := ← readField o "description" readStr
    controlOwner := ← readFieldOr none o "control_owner" readOptStr
    frequency := ← readFieldOr none o "frequency" (readOptEnum rt _)
    nature := ← readFieldOr none o "nature" (readOptEnum rt _)
    controlType := ← readFieldOr none o "control_type" (readOptEnum rt _)
    keyControl := ← readFieldOr none o "key_control" (readOption co.boolOf)
    assertions := ← readFieldOr [] o "assertions" readStrs
    ipe := ← readFieldOr [] o "ipe" readStrs
    testingProcedures := ← readField o "testing_procedures" (ControlTesting.ofJson rt co) }

def Risk.ofJson (j : Json) : Option Risk := do
  let o ← readObject j
  return {
    riskId := ← readField o "risk_id" readStr
    description := ← readField o "description" readStr
    likelihood := ← readFieldOr none o "likelihood" (readOptEnum rt _)
    impact := ← readFieldOr none o "impact" (readOptEnum rt _)
    ratingRationale := ← readFieldOr none o "rating_rationale" readOptStr
    regulatoryMapping := ← readField o "regulatory_mapping" readStrs
    controls := ← readField o "controls" (readList (Control.ofJson rt co)) }

def RiskControlMatrixSchema.ofJson (j : Json) : Option RiskControlMatrixSchema := do
  let o ← readObject j
  return {
    theme := ← readField o "theme" readStr
    risks := ← readField o "risks" (readList (Risk.ofJson rt co)) }

/-! ## The working papers -/

def legacyPass : List Str :=
  [lit "pass", lit "passed", lit "effective", lit "no exception"]

def legacyNotTested : List Str :=
  [lit "not tested", lit "n/a", lit "not applicable", lit "none", []]

def legacyConclusions (label : Str) :
    DesignConclusion × OperatingConclusion × FindingResult × Bool :=
  if label ∈ legacyPass then (.effective, .effective, .noException, false)
  else if label ∈ legacyNotTested then (.notTested, .notTested, .notTested, false)
  else (.notTested, .ineffective, .exception, true)

def migrateLegacySeverity (data : Dict Str Json) : Dict Str Json :=
  let severity := data.getD (lit "severity") .null
  let data := data.filterKeys (· ≠ lit "severity")
  if ["tod_conclusion", "toe_conclusion", "result"].any fun k => (data.get? (lit k)).isSome then
    data
  else
    let label := norm rt (if severity.truthy then rt.textOf severity else [])
    let (tod, toe, result, preliminary) := legacyConclusions label
    (data.set (lit "legacy_severity") (.str (rt.textOf severity))).update
      [(lit "tod_conclusion", toJson tod), (lit "toe_conclusion", toJson toe),
        (lit "result", toJson result), (lit "preliminary_deficiency", .bool preliminary)]

def AuditFindingSchema.migrate (data : Dict Str Json) : Dict Str Json :=
  if (data.get? (lit "severity")).isSome then migrateLegacySeverity rt data else data

def AuditFindingSchema.ofFields (o : Dict Str Json) : Option AuditFindingSchema := do
  return {
    controlId := ← readField o "control_id" readStr
    vaultIdReference := ← readFieldOr [] o "vault_id_reference" readStr
    exactQuoteFromEvidence := ← readFieldOr [] o "exact_quote_from_evidence" readStr
    todConclusion := ← readField o "tod_conclusion" (lenientEnum rt _)
    toeConclusion := ← readField o "toe_conclusion" (lenientEnum rt _)
    toeBasis := ← readFieldOr none o "toe_basis" readOptStr
    itemsTested := ← readFieldOr none o "items_tested" (readCount rt co)
    exceptionsNoted := ← readFieldOr none o "exceptions_noted" (readCount rt co)
    result := ← readFieldOr none o "result" (readOptEnum rt _)
    preliminaryDeficiency := ← readFieldOr none o "preliminary_deficiency" (readOption co.boolOf)
    testConclusion := ← readField o "test_conclusion" readStr
    legacySeverity := ← readFieldOr none o "legacy_severity" readOptStr }

def AuditFindingSchema.ofJson (j : Json) : Option AuditFindingSchema :=
  (((readObject j).map (migrate rt)).bind (ofFields rt co)).bind fun f => f.consistent.toOption

def WorkingPaperSchema.ofJson (j : Json) : Option WorkingPaperSchema := do
  let o ← readObject j
  return {
    theme := ← readField o "theme" readStr
    findings := ← readField o "findings" (readList (AuditFindingSchema.ofJson rt co)) }

/-! ## The final report -/

def DeficiencyEvaluationSchema.ofFields (o : Dict Str Json) :
    Option DeficiencyEvaluationSchema := do
  return {
    deficiencyId := ← readField o "deficiency_id" readStr
    title := ← readField o "title" readStr
    relatedFindings := ← readField o "related_findings" readStrs
    relatedRisks := ← readFieldOr [] o "related_risks" readStrs
    compensatingControls := ← readField o "compensating_controls" readStr
    likelihood := ← readField o "likelihood" (lenientEnum rt _)
    magnitude := ← readField o "magnitude" (lenientEnum rt _)
    classification := ← readField o "classification" (lenientEnum rt _)
    rationale := ← readField o "rationale" readStr }

def DeficiencyEvaluationSchema.ofJson (j : Json) : Option DeficiencyEvaluationSchema :=
  ((readObject j).bind (ofFields rt)).filter fun e => decide e.Valid

def OscalMetadata.ofJson (j : Json) : Option OscalMetadata := do
  let o ← readObject j
  return {
    title := ← readField o "title" readStr
    lastModified := ← readField o "last_modified" readStr
    version := ← readField o "version" readStr
    oscalVersion := ← readFieldOr (lit "1.1.2") o "oscal_version" readStr }

def OscalImportAp.ofJson (j : Json) : Option OscalImportAp := do
  let o ← readObject j
  return {
    href := ← readField o "href" readStr
    remarks := ← readFieldOr none o "remarks" readOptStr }

def OscalObservation.ofJson (j : Json) : Option OscalObservation := do
  let o ← readObject j
  return {
    observationId := ← readField o "observation_id" readStr
    description := ← readField o "description" readStr
    methods := ← readField o "methods" readStrs
    subjects := ← readField o "subjects" readStrs
    relevantEvidence := ← readField o "relevant_evidence" readStrs }

def OscalResult.ofJson (j : Json) : Option OscalResult := do
  let o ← readObject j
  return {
    assessmentResultId := ← readField o "assessment_result_id" readStr
    startDate := ← readField o "start_date" readStr
    endDate := ← readField o "end_date" readStr
    observations := ← readField o "observations" (readList OscalObservation.ofJson) }

def OscalSarSchema.ofJson (j : Json) : Option OscalSarSchema := do
  let o ← readObject j
  return {
    metadata := ← readField o "metadata" OscalMetadata.ofJson
    importAp := ← readField o "import_ap" OscalImportAp.ofJson
    results := ← readField o "results" (readList OscalResult.ofJson) }

/-- The fields of a report, before the validator of its scale. -/
def FinalReportSchema.ofFields (o : Dict Str Json) : Option FinalReportSchema := do
  return {
    executiveSummary := ← readField o "executive_summary" readStr
    detailedReport := ← readField o "detailed_report" readStr
    complianceToneApproved := ← readField o "compliance_tone_approved" co.boolOf
    deficiencyEvaluations :=
      ← readFieldOr [] o "deficiency_evaluations" (readList (DeficiencyEvaluationSchema.ofJson rt))
    deficiencyScale := ← readFieldOr none o "deficiency_scale" (readOptEnum rt _)
    oscalSar := ← readFieldOr none o "oscal_sar" (readOption OscalSarSchema.ofJson) }

/-- `_scale` of a report: its scale, inferred when unset. -/
def FinalReportSchema.checked (r : FinalReportSchema) : Option FinalReportSchema :=
  match checkScale r.deficiencyScale r.deficiencyEvaluations with
  | .ok scale => some { r with deficiencyScale := scale }
  | .error _ => none

def FinalReportSchema.ofJson (j : Json) : Option FinalReportSchema :=
  ((readObject j).bind (ofFields rt co)).bind checked

/-! ## Reviewer decisions -/

def reviewDecisionFields : List String :=
  ["decision_id", "phase", "artifact", "draft_digest", "subject_type", "subject_id",
    "decision_type", "values", "rationale", "decided_by", "identity_source", "decided_at",
    "supersedes"]

/-- `phase: int = Field(ge=2, le=3)` -/
def readDecisionPhase (j : Json) : Option Nat := do
  let n ← co.intOf j
  if 2 ≤ n ∧ n ≤ 3 then return n.toNat else none

/-- `extra="forbid"` -/
def ReviewDecision.knownFields (o : Dict Str Json) : Bool :=
  o.all fun kv => reviewDecisionFields.any fun name => kv.1 = lit name

def ReviewDecision.ofFields (o : Dict Str Json) : Option ReviewDecision := do
  return {
    decisionId := ← readField o "decision_id" readStr
    phase := ← readField o "phase" (readDecisionPhase co)
    artifact := ← readField o "artifact" readStr
    draftDigest := ← readField o "draft_digest" readStr
    subjectType := ← readField o "subject_type" (readEnum _)
    subjectId := ← readField o "subject_id" readStr
    decisionType := ← readField o "decision_type" (readEnum _)
    values := ← readFieldOr [] o "values" (readMembers readStr)
    rationale := ← readFieldOr [] o "rationale" readStr
    decidedBy := ← readField o "decided_by" readStr
    identitySource := ← readFieldOr .declared o "identity_source" (readEnum _)
    decidedAt := ← readField o "decided_at" readStr
    supersedes := ← readFieldOr none o "supersedes" readOptStr }

def ReviewDecision.ofJson (j : Json) : Option ReviewDecision :=
  ((readObject j).filter knownFields).bind (ofFields co)

/-! ## Validators are idempotent -/

section
variable {rt co}

theorem AuditFindingSchema.valid_of_consistent {f g : AuditFindingSchema}
    (h : f.consistent = .ok g) : g.Valid := by
  unfold AuditFindingSchema.consistent at h
  simp only [Except.bind_eq_ok_iff, Except.ensure_eq_ok_iff, Except.pure_eq_ok_iff] at h
  obtain ⟨_, hexceptions, result, hresult, preliminary, hpreliminary, _, hquote, rfl⟩ := h
  have hderived : result = f.derived := by
    unfold AuditFindingSchema.checkedResult at hresult
    split at hresult
    · exact (Except.ok.inj hresult).symm
    · split at hresult
      · rename_i heq
        rw [← heq]
        exact (Except.ok.inj hresult).symm
      · cases hresult
  have hflag : ¬ (preliminary = true ∧ result ≠ .exception) := by
    unfold AuditFindingSchema.checkedDeficiency at hpreliminary
    split at hpreliminary
    · obtain rfl := Except.ok.inj hpreliminary
      simp
    · split at hpreliminary
      · cases hpreliminary
      · rename_i hcons
        obtain rfl := Except.ok.inj hpreliminary
        exact hcons
  set g : AuditFindingSchema :=
    { f with result := some result, preliminaryDeficiency := some preliminary } with hg
  have hchecked : g.checkedResult = .ok result := by
    simp only [AuditFindingSchema.checkedResult, hg]
    rw [if_pos]
    exact hderived
  have hdeficiency : g.checkedDeficiency result = .ok preliminary := by
    simp only [AuditFindingSchema.checkedDeficiency, hg]
    rw [if_neg hflag]
  unfold AuditFindingSchema.Valid AuditFindingSchema.consistent
  simp only [Except.bind_eq_ok_iff, Except.ensure_eq_ok_iff, Except.pure_eq_ok_iff]
  exact ⟨(), hexceptions, result, hchecked, preliminary, hdeficiency, (), hquote, rfl⟩

theorem checkScale_of_checkScale {scale checked : Option DeficiencyScale}
    {evaluations : List DeficiencyEvaluationSchema} (h : checkScale scale evaluations = .ok checked) :
    checkScale checked evaluations = .ok checked := by
  unfold checkScale at h
  cases scale with
  | some s =>
      dsimp only at h
      split at h
      · obtain rfl := Except.ok.inj h
        unfold checkScale
        dsimp only
        rw [if_pos ‹_›]
      · cases h
  | none =>
      dsimp only at h
      split at h
      · cases h
      · rename_i s hfilter
        obtain rfl := Except.ok.inj h
        have hon : s ∈ [DeficiencyScale.icfr, .riskRating].filter fun s =>
            evaluations.all fun e => (scaleClassifications s).contains e.classification := by
          rw [hfilter]
          exact List.mem_singleton.mpr rfl
        unfold checkScale
        dsimp only
        rw [if_pos (List.mem_filter.mp hon).2]
      · obtain rfl := Except.ok.inj h
        unfold checkScale
        dsimp only
        split
        · exact absurd ‹_› ‹_›
        · exact absurd ‹_› (by simp_all)
        · rfl

theorem toOption_eq_some_iff {ε α : Type} {x : Except ε α} {a : α} :
    x.toOption = some a ↔ x = .ok a := by
  cases x <;> simp [Except.toOption]

theorem AuditFindingSchema.valid_of_ofJson {j : Json} {f : AuditFindingSchema}
    (h : AuditFindingSchema.ofJson rt co j = some f) : f.Valid := by
  unfold AuditFindingSchema.ofJson at h
  obtain ⟨fields, -, hchecked⟩ := Option.bind_eq_some_iff.mp h
  exact valid_of_consistent (toOption_eq_some_iff.mp hchecked)

theorem DeficiencyEvaluationSchema.valid_of_ofJson {j : Json} {e : DeficiencyEvaluationSchema}
    (h : DeficiencyEvaluationSchema.ofJson rt j = some e) : e.Valid := by
  unfold DeficiencyEvaluationSchema.ofJson at h
  exact of_decide_eq_true (Option.filter_eq_some_iff.mp h).2

theorem mem_of_mapM_eq_some {α β : Type} {read : α → Option β} {xs : List α} {ys : List β}
    (h : xs.mapM read = some ys) : ∀ y ∈ ys, ∃ x ∈ xs, read x = some y := by
  induction xs generalizing ys with
  | nil =>
      obtain rfl := Option.some.inj h
      simp
  | cons x xs ih =>
      rw [List.mapM_cons] at h
      obtain ⟨y, hy, h⟩ := Option.bind_eq_some_iff.mp h
      obtain ⟨rest, hrest, h⟩ := Option.bind_eq_some_iff.mp h
      obtain rfl := Option.some.inj h
      intro z hz
      rcases List.mem_cons.mp hz with rfl | hz
      · exact ⟨x, List.mem_cons_self, hy⟩
      · obtain ⟨w, hw, hread⟩ := ih hrest z hz
        exact ⟨w, List.mem_cons_of_mem _ hw, hread⟩

theorem forall_of_readList {α : Type} {P : α → Prop} {read : Reader α}
    (hread : ∀ j a, read j = some a → P a) {j : Json} {xs : List α}
    (h : readList read j = some xs) : ∀ x ∈ xs, P x := by
  intro x hx
  cases j with
  | arr js =>
      obtain ⟨y, -, hy⟩ := mem_of_mapM_eq_some h x hx
      exact hread y x hy
  | _ => cases h

theorem WorkingPaperSchema.valid_of_ofJson {j : Json} {p : WorkingPaperSchema}
    (h : WorkingPaperSchema.ofJson rt co j = some p) : p.Valid := by
  unfold WorkingPaperSchema.ofJson at h
  simp only [bind, Option.bind_eq_some_iff, pure, Option.some.injEq] at h
  obtain ⟨o, -, theme, -, findings, hfindings, rfl⟩ := h
  obtain ⟨js, -, hread⟩ := Option.bind_eq_some_iff.mp hfindings
  exact forall_of_readList (fun _ _ => AuditFindingSchema.valid_of_ofJson) hread

theorem FinalReportSchema.valid_of_ofJson {j : Json} {r : FinalReportSchema}
    (h : FinalReportSchema.ofJson rt co j = some r) : r.Valid := by
  unfold FinalReportSchema.ofJson at h
  obtain ⟨fields, hfields, hchecked⟩ := Option.bind_eq_some_iff.mp h
  obtain ⟨o, -, hfields⟩ := Option.bind_eq_some_iff.mp hfields
  have hevaluations : ∀ e ∈ fields.deficiencyEvaluations, e.Valid := by
    unfold FinalReportSchema.ofFields at hfields
    simp only [bind, Option.bind_eq_some_iff, pure, Option.some.injEq] at hfields
    obtain ⟨_, -, _, -, _, -, evaluations, hread, _, -, _, -, rfl⟩ := hfields
    unfold readFieldOr at hread
    split at hread
    · obtain rfl := Option.some.inj hread
      simp
    · exact forall_of_readList (fun _ _ => DeficiencyEvaluationSchema.valid_of_ofJson) hread
  unfold FinalReportSchema.checked at hchecked
  split at hchecked
  · rename_i scale hscale
    obtain rfl := Option.some.inj hchecked
    exact ⟨hevaluations, checkScale_of_checkScale hscale⟩
  · cases hchecked

end

/-! ## Artifacts as the state holds them -/

def storedPapers (j : Json) : Option { p : WorkingPaperSchema // p.Valid } :=
  (WorkingPaperSchema.ofJson rt co j).pmap Subtype.mk fun _ => WorkingPaperSchema.valid_of_ofJson

def storedReport (j : Json) : Option { r : FinalReportSchema // r.Valid } :=
  (FinalReportSchema.ofJson rt co j).pmap Subtype.mk fun _ => FinalReportSchema.valid_of_ofJson

end AuditSwarm
