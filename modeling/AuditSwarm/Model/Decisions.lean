import AuditSwarm.Model.Policy

/-!
# Reviewer decisions

`review_decisions.py`: which decisions are active, the validation of a new decision, and the
effective view, which overlays the AI drafts with the active decisions and lists what each gate
still needs.
-/

namespace AuditSwarm

open Python StrEnum

namespace Decisions

variable (rt : Runtime)

def engagementSubjectId : Str := lit "engagement"

def subjectForType : DecisionType → DecisionSubjectType
  | .signOff | .challenge | .scopeLimitation => .finding
  | .classify | .writeup | .managementResponse | .remediationVerification => .deficiency
  | .engagementConclusion => .engagement

def phaseForType : DecisionType → Phase
  | .signOff | .challenge => .fieldwork
  | _ => .reporting

def artifactForSubject : DecisionSubjectType → Str
  | .finding => lit "working_papers"
  | .deficiency | .engagement => lit "final_report"

def findingReview : Str := lit "finding_review"

def slotOf (t : DecisionType) : Str :=
  if t = .signOff ∨ t = .challenge then findingReview else value t

/-! ## Context -/

/-- `DecisionContext`: the artifacts decisions refer to. -/
structure Context where
  racm : Option RiskControlMatrixSchema
  papers : Option WorkingPaperSchema
  report : Option FinalReportSchema

namespace Context

variable (ctx : Context)

/-- `artifact(name)`, dumped. -/
def artifact (name : Str) : Option Json :=
  if name = lit "working_papers" then ctx.papers.map WorkingPaperSchema.toJson
  else if name = lit "final_report" then ctx.report.map FinalReportSchema.toJson
  else none

def digestOf (name : Str) : Except Exn (Option Str) :=
  match ctx.artifact name with
  | none => .ok none
  | some dumped => (Trail.artifactDigest rt dumped).map some

def digests : Except Exn (Dict Str (Option Str)) := do
  let papers ← ctx.digestOf rt (lit "working_papers")
  let report ← ctx.digestOf rt (lit "final_report")
  return [(lit "working_papers", papers), (lit "final_report", report)]

def findings : List AuditFindingSchema := (ctx.papers.map (·.findings)).getD []

def evaluations : List DeficiencyEvaluationSchema :=
  (ctx.report.map (·.deficiencyEvaluations)).getD []

def controls : List Control := ((ctx.racm.map (·.risks)).getD []).flatMap (·.controls)

/-- `finding(control_id)` -/
def finding (controlId : Str) : Option AuditFindingSchema :=
  ctx.findings.find? fun f => f.controlId = controlId

/-- `deficiency(deficiency_id)` -/
def deficiency (deficiencyId : Str) : Option DeficiencyEvaluationSchema :=
  ctx.evaluations.find? fun e => e.deficiencyId = deficiencyId

/-- `key_controls()`: the first RACM entry of a control decides. -/
def keyControls : Dict Str (Option Bool) :=
  ctx.controls.foldl (fun out c => out.setDefault c.controlId c.keyControl) []

end Context

/-! ## Decision states -/

inductive DecisionState where
  | active
  | superseded
  | stale
  deriving DecidableEq, Repr

def DecisionState.text : DecisionState → Str
  | .active => lit "active"
  | .superseded => lit "superseded"
  | .stale => lit "stale"

def supersededIds (decisions : List ReviewDecision) : List Str :=
  (decisions.filterMap (·.supersedes)).filter (· ≠ [])

def stateOf (digests : Dict Str (Option Str)) (decisions : List ReviewDecision)
    (d : ReviewDecision) : DecisionState :=
  if d.decisionId ∈ supersededIds decisions then .superseded
  else if (digests.get? d.artifact).getD none ≠ some d.draftDigest then .stale
  else .active

def decisionStates (ctx : Context) (decisions : List ReviewDecision) :
    Except Exn (Dict Str DecisionState) := do
  let digests ← ctx.digests rt
  return decisions.foldl (fun out d => out.set d.decisionId (stateOf digests decisions d)) []

abbrev SlotKey := Str × Str × Str

def slotKey (d : ReviewDecision) : SlotKey :=
  (slotOf d.decisionType, value d.subjectType, d.subjectId)

def activeBySlot (ctx : Context) (decisions : List ReviewDecision) :
    Except Exn (Dict SlotKey ReviewDecision) := do
  let states ← decisionStates rt ctx decisions
  return decisions.foldl (fun out d =>
    if states.get? d.decisionId = some .active then out.set (slotKey d) d else out) []

/-! ## Parsing the values of a request -/

/-- `_norm` of `schema.py` -/
def collapseSeparators : Bool → Str → Str
  | _, [] => []
  | inRun, c :: cs =>
      if isSpace c || (lit "_-/").contains c then
        if inRun then collapseSeparators true cs else 32 :: collapseSeparators true cs
      else c :: collapseSeparators false cs

def norm (s : Str) : Str := rt.lower (strip (collapseSeparators false s))

def lenientEnum (α : Type) [StrEnum α] (j : Json) : Option α :=
  match j with
  | .str s =>
      match ((members : List α).filter fun m => norm rt (value m) = norm rt s).getLast? with
      | some m => some m
      | none => ofValue? s
  | _ => none

/-- Unicode `White_Space`, which `str_strip_whitespace` strips. -/
def isWhiteSpace (c : CodePoint) : Bool := isSpace c && !(28 ≤ c.val && c.val ≤ 31)

/-- A string field under `str_strip_whitespace`, with a minimum length. -/
def strippedText (minLength : Nat) (j : Json) : Option Str :=
  match j with
  | .str s =>
      if Encodable s then
        let t := trimWith isWhiteSpace s
        if minLength ≤ t.length then some t else none
      else none
  | _ => none

def required {α : Type} (values : Dict Str Json) (k : String) (p : Json → Option α) : Option α :=
  (values.get? (lit k)).bind p

def optional {α : Type} (values : Dict Str Json) (k : String) (p : Json → Option α) :
    Option (Option α) :=
  match values.get? (lit k) with
  | none => some none
  | some .null => some none
  | some j => (p j).map some

inductive DecisionValues where
  | signOff
  | challenge (tod : Option DesignConclusion) (toe : Option OperatingConclusion)
  | classify (classification : DeficiencyClassification) (likelihood magnitude : Option RiskRating)
  | scopeLimitation
  | writeup (criteria condition cause effect recommendation : Str)
  | managementResponse (text : Str) (agreement : ManagementAgreement)
      (actionOwnerRole targetDate : Option Str) (receivedFrom receivedOn : Str)
  | engagementConclusion (conclusion : EngagementRating)
  | remediationVerification (status : RemediationStatus) (verifiedOn : Str)
      (evidenceVaultId : Option Str)

def valueModelName : DecisionType → Str
  | .signOff => lit "SignOffValues"
  | .challenge => lit "ChallengeValues"
  | .classify => lit "ClassifyValues"
  | .scopeLimitation => lit "ScopeLimitationValues"
  | .writeup => lit "WriteupValues"
  | .managementResponse => lit "ManagementResponseValues"
  | .engagementConclusion => lit "EngagementConclusionValues"
  | .remediationVerification => lit "RemediationVerificationValues"

/-- The fields of that model; any other key is forbidden. -/
def valueFields : DecisionType → List String
  | .signOff | .scopeLimitation => []
  | .challenge => ["tod_conclusion", "toe_conclusion"]
  | .classify => ["classification", "likelihood", "magnitude"]
  | .writeup => ["criteria", "condition", "cause", "effect", "recommendation"]
  | .managementResponse =>
      ["text", "agreement", "action_owner_role", "target_date", "received_from", "received_on"]
  | .engagementConclusion => ["conclusion"]
  | .remediationVerification => ["status", "verified_on", "evidence_vault_id"]

/-- The fields of a request parsed into the model of its type. -/
def parseFields (v : Dict Str Json) : DecisionType → Option DecisionValues
  | .signOff => some .signOff
  | .scopeLimitation => some .scopeLimitation
  | .challenge => do
      return .challenge (← optional v "tod_conclusion" (lenientEnum rt _))
        (← optional v "toe_conclusion" (lenientEnum rt _))
  | .classify => do
      return .classify (← required v "classification" (lenientEnum rt _))
        (← optional v "likelihood" (lenientEnum rt _))
        (← optional v "magnitude" (lenientEnum rt _))
  | .writeup => do
      return .writeup (← required v "criteria" (strippedText 1))
        (← required v "condition" (strippedText 1)) (← required v "cause" (strippedText 1))
        (← required v "effect" (strippedText 1)) (← required v "recommendation" (strippedText 1))
  | .managementResponse => do
      return .managementResponse (← required v "text" (strippedText 1))
        (← required v "agreement" (lenientEnum rt _))
        (← optional v "action_owner_role" (strippedText 0))
        (← optional v "target_date" (strippedText 0))
        (← required v "received_from" (strippedText 1))
        (← required v "received_on" (strippedText 1))
  | .engagementConclusion => do
      return .engagementConclusion (← required v "conclusion" (lenientEnum rt _))
  | .remediationVerification => do
      return .remediationVerification (← required v "status" (lenientEnum rt _))
        (← required v "verified_on" (strippedText 1))
        (← optional v "evidence_vault_id" (strippedText 0))

/-- `DECISION_VALUE_MODELS[dtype].model_validate(values)`; a `ValidationError` is reported through
`_validation_message`. -/
def modelValidate (dtype : DecisionType) (values : Dict Str Json) : Except Exn DecisionValues :=
  let known := values.all fun kv => (valueFields dtype).any fun f => kv.1 = lit f
  match known, parseFields rt values dtype with
  | true, some parsed => .ok parsed
  | _, _ =>
      .error (.decisionValidation (join (lit "; ")
        ((rt.validationErrors (valueModelName dtype) values).map fun (loc, msg) =>
          lit "values." ++ (if loc = [] then lit "values" else loc) ++ lit ": " ++ msg)))

/-! ## Values to store -/

def reviewedConclusion (review : Option ReviewDecision) (field draft : Str) : Str :=
  match review with
  | none => draft
  | some d => if d.decisionType = DecisionType.challenge then d.values.getD field draft else draft

def effectiveConclusions (finding : AuditFindingSchema) (review : Option ReviewDecision) :
    Except Exn (Str × Str × Str) :=
  let tod := reviewedConclusion review (lit "tod_conclusion") (value finding.todConclusion)
  let toe := reviewedConclusion review (lit "toe_conclusion") (value finding.toeConclusion)
  match ofValue? (α := DesignConclusion) tod, ofValue? (α := OperatingConclusion) toe with
  | some tod', some toe' =>
      .ok (tod, toe, value (deriveResult tod' toe' finding.exceptionsNoted))
  | none, _ =>
      .error (Exn.valueError (rt.reprStr tod ++ lit " is not a valid DesignConclusion"))
  | _, none =>
      .error (Exn.valueError (rt.reprStr toe ++ lit " is not a valid OperatingConclusion"))

def challengeField (controlId field draft : Str) (new : Option Str) : Except Exn (Dict Str Str) :=
  match new with
  | none => .ok []
  | some n =>
      if n = draft then .ok []
      else if Policy.conclusionChangeAllowed draft n then .ok [(field, n)]
      else .error (.decisionConflict (controlId ++ lit ": changing " ++ field ++ lit " from '" ++
        draft ++ lit "' to '" ++ n ++
        lit ("' needs new work — return the phase for rework. Without " ++
          "rework a reviewer may only withdraw a positive conclusion (") ++
        join (lit ", ") Policy.conclusionDowngradeFrom ++ lit " → '" ++
        Policy.conclusionDowngradeTarget ++ lit "')."))

def challengeValues (finding : AuditFindingSchema) (tod : Option DesignConclusion)
    (toe : Option OperatingConclusion) : Except Exn (Dict Str Str) := do
  let tod ← challengeField finding.controlId (lit "tod_conclusion") (value finding.todConclusion)
    (tod.map value)
  let toe ← challengeField finding.controlId (lit "toe_conclusion") (value finding.toeConclusion)
    (toe.map value)
  return tod ++ toe

def draftClassification (e : DeficiencyEvaluationSchema) : Dict Str Str :=
  [(lit "classification", value e.classification), (lit "likelihood", value e.likelihood),
    (lit "magnitude", value e.magnitude)]

/-- What is raised for a classification that is not on the report's scale. -/
def offScale (scale : Option DeficiencyScale) (classification : DeficiencyClassification) :
    Option Exn :=
  match scale with
  | none => none
  | some scale =>
      if (scaleClassifications scale).contains classification then none
      else
        let allowed := ((scaleClassifications scale).map value).insertionSort (· ≤ ·)
        some (.decisionValidation (lit "values.classification '" ++ value classification ++
          lit "' is not on this report's '" ++ value scale ++ lit "' scale (" ++
          join (lit ", ") allowed ++ lit ")"))

def classifyValues (report : FinalReportSchema) (evaluation : DeficiencyEvaluationSchema)
    (classification : DeficiencyClassification) (likelihood magnitude : Option RiskRating) :
    Except Exn (Dict Str Str) := do
  let likelihood := likelihood.getD evaluation.likelihood
  let magnitude := magnitude.getD evaluation.magnitude
  Except.raiseSome (offScale report.deficiencyScale classification)
  Except.ensure
    (¬ DeficiencyEvaluationSchema.unsupportedMaterialWeakness classification likelihood magnitude)
    (.decisionValidation (lit ("a Material Weakness requires at least a reasonable " ++
      "possibility (likelihood Medium/High) of a material misstatement (magnitude High)")))
  return [(lit "classification", value classification), (lit "likelihood", value likelihood),
    (lit "magnitude", value magnitude)]

def isoDate (v : Option Str) (what : String) : Except Exn (Option Str) :=
  match v with
  | none => .ok none
  | some s =>
      if strip s = [] then .ok none
      else
        match rt.isoDate ((strip s).take 10) with
        | some d => .ok (some d)
        | none => .error (.decisionValidation (lit "values." ++ lit what ++
            lit " must be an ISO date (YYYY-MM-DD)"))

def managementValues (text : Str) (agreement : ManagementAgreement)
    (actionOwnerRole targetDate : Option Str) (receivedFrom receivedOn : Str)
    (rationale recordedOn : Str) : Except Exn (Dict Str Str) := do
  let agreement := value agreement
  let receivedOn := (← isoDate rt (some receivedOn) "received_on").getD []
  Except.ensure (receivedOn = [] ∨ receivedOn ≤ recordedOn)
    (.decisionValidation (lit "values.received_on (" ++ receivedOn ++
      lit ") is after the date this decision is being recorded (" ++ recordedOn ++
      lit "): the response cannot have been received before it happened"))
  let owner := strip (actionOwnerRole.getD [])
  let target := (← isoDate rt targetDate "target_date").getD []
  Except.ensure (Policy.managementResponseNeedsActionPlan agreement → owner ≠ [] ∧ target ≠ [])
    (.decisionValidation (lit ("an agreed or partly agreed management response needs " ++
      "values.action_owner_role and values.target_date")))
  Except.ensure (Policy.managementResponseNeedsRebuttal agreement → rationale ≠ [])
    (.decisionValidation (lit ("management disagrees: the rationale must state the " ++
      "auditor's rebuttal (it is shown in the report next to the response)")))
  return [(lit "text", text), (lit "agreement", agreement), (lit "received_from", receivedFrom),
      (lit "received_on", receivedOn)] ++
    (if owner ≠ [] then [(lit "action_owner_role", owner)] else []) ++
    (if target ≠ [] then [(lit "target_date", target)] else [])

def remediationValues (status : RemediationStatus) (verifiedOn : Str)
    (evidenceVaultId : Option Str) (recordedOn : Str) : Except Exn (Dict Str Str) := do
  let verifiedOn := (← isoDate rt (some verifiedOn) "verified_on").getD []
  Except.ensure (verifiedOn = [] ∨ verifiedOn ≤ recordedOn)
    (.decisionValidation (lit "values.verified_on (" ++ verifiedOn ++
      lit ") is after the date this decision is being recorded (" ++ recordedOn ++ lit ")"))
  let vaultId := strip (evidenceVaultId.getD [])
  return [(lit "status", value status), (lit "verified_on", verifiedOn)] ++
    (if vaultId ≠ [] then [(lit "evidence_vault_id", vaultId)] else [])

/-! ## Recording -/

/-- The arguments of a decision request. -/
structure Request where
  decisionType : Str
  subjectId : Str
  decidedBy : Str
  values : Option (Dict Str Json)
  rationale : Str
  subjectType : Option Str
  supersedes : Option Str
  identitySource : Str

def identitySourceError : Str :=
  lit "identity_source must be one of: " ++ listing IdentitySource

/-- The values stored for a parsed request, after the checks against its subject. -/
def storedValues (ctx : Context) (active : Dict SlotKey ReviewDecision) (subjectId : Str)
    (rationale decidedAt : Str) (dtype : DecisionType) (parsed : DecisionValues) :
    Except Exn (Dict Str Str) :=
  match subjectForType dtype with
  | .finding =>
      match ctx.finding subjectId with
      | none => throw (.decisionValidation (lit "no working-paper finding for control '" ++
          subjectId ++ lit "'"))
      | some finding =>
          match parsed with
          | .challenge tod toe => challengeValues finding tod toe
          | .scopeLimitation => do
              let review := active.get?
                (findingReview, value DecisionSubjectType.finding, subjectId)
              let (_, _, result) ← effectiveConclusions rt finding review
              Except.ensure (result = value FindingResult.notTested)
                (.decisionValidation (subjectId ++ lit " is concluded '" ++ result ++
                  lit ("', not 'Not tested': only an untested control is reported as a scope " ++
                    "limitation")))
              return []
          | _ => return []
  | .deficiency =>
      match ctx.deficiency subjectId, ctx.report with
      | some evaluation, some report =>
          match parsed with
          | .classify classification likelihood magnitude => do
              let stored ← classifyValues report evaluation classification likelihood magnitude
              Except.ensure (Policy.classificationDiffers (draftClassification evaluation) stored →
                  rationale ≠ [])
                (.decisionValidation (lit "the classification differs from the AI draft (" ++
                  value evaluation.classification ++ lit ", likelihood " ++
                  value evaluation.likelihood ++ lit ", magnitude " ++
                  value evaluation.magnitude ++ lit "): a rationale is required"))
              return stored
          | .managementResponse text agreement owner target receivedFrom receivedOn =>
              managementValues rt text agreement owner target receivedFrom receivedOn rationale
                (decidedAt.take 10)
          | .remediationVerification status verifiedOn evidenceVaultId =>
              remediationValues rt status verifiedOn evidenceVaultId (decidedAt.take 10)
          | .writeup criteria condition cause effect recommendation =>
              return [(lit "criteria", criteria), (lit "condition", condition),
                (lit "cause", cause), (lit "effect", effect),
                (lit "recommendation", recommendation)]
          | _ => return []
      | _, _ => throw (.decisionValidation (lit "no deficiency evaluation '" ++ subjectId ++
          lit "' in the report"))
  | .engagement =>
      match parsed with
      | .engagementConclusion conclusion => return [(lit "conclusion", value conclusion)]
      | _ => return []

/-- The supersede rules: a slot with an active decision takes a new one only if the request names
that decision. -/
def checkSupersedes (ctx : Context) (decisions : List ReviewDecision)
    (active : Dict SlotKey ReviewDecision) (key : SlotKey) (supersedes : Option Str) :
    Except Exn Unit :=
  let current := active.get? key
  match supersedes with
  | none =>
      match current with
      | none => return ()
      | some c => throw (.decisionConflict (key.2.2 ++ lit " already has an active " ++ key.1 ++
          lit " decision (" ++ c.decisionId ++ lit ", " ++ value c.decisionType ++ lit " by " ++
          c.decidedBy ++ lit "). To correct it, record the new decision with supersedes='" ++
          c.decisionId ++ lit "'."))
  | some target =>
      match decisions.find? fun d => d.decisionId = target with
      | none => throw (.decisionValidation (lit "supersedes: no decision '" ++ target ++ lit "'"))
      | some t =>
          if slotKey t ≠ key then
            throw (.decisionValidation (lit "supersedes: decision '" ++ target ++ lit "' is a " ++
              value t.decisionType ++ lit " on " ++ value t.subjectType ++ lit " '" ++
              t.subjectId ++ lit ("'; a correction must be about the same subject and the same " ++
                "kind of decision")))
          else if current.map (·.decisionId) ≠ some target then do
            let states ← decisionStates rt ctx decisions
            throw (.decisionConflict (lit "supersedes: decision '" ++ target ++ lit "' is " ++
              ((states.get? target).map DecisionState.text).getD (lit "None") ++
              lit ", so it cannot be superseded" ++
              match current with
              | none => []
              | some c => lit "; the active decision is '" ++ c.decisionId ++ lit "'"))
          else return ()

def checkSubjectType (dtype : DecisionType) (subjectType : Option Str) : Except Exn Unit :=
  match subjectType with
  | none => .ok ()
  | some given =>
      Except.ensure (strip given = value (subjectForType dtype))
        (.decisionValidation (lit "a '" ++ value dtype ++ lit "' decision is about a " ++
          value (subjectForType dtype) ++ lit ", not '" ++ given ++ lit "'"))

/-- The subject id of a request; the engagement has only one. -/
def checkSubjectId (stype : DecisionSubjectType) (given : Str) : Except Exn Str := do
  let subjectId :=
    if stype = .engagement ∧ strip given = [] then engagementSubjectId else strip given
  Except.ensure (stype = .engagement → subjectId = engagementSubjectId)
    (.decisionValidation (lit "an engagement decision's subject_id is '" ++
      engagementSubjectId ++ lit "'"))
  Except.ensure (subjectId ≠ []) (.decisionValidation (lit "subject_id is required"))
  return subjectId

/-- `build_decision`: the decision to append.  `now` is the reading taken by the caller, `clock`
the one `build_decision` would take itself, `uuid` the fresh id. -/
def buildDecision (ctx : Context) (status : Str) (preparers : List Str)
    (decisions : List ReviewDecision) (req : Request) (now clock uuid : Str) :
    Except Exn ReviewDecision := do
  let decidedAt := if now = [] then clock else now
  let dtype ← Except.orRaise (ofValue? (α := DecisionType) req.decisionType)
    (.decisionValidation (lit "decision_type must be one of: " ++ listing DecisionType))
  let decidedBy := strip req.decidedBy
  Except.ensure (decidedBy ≠ []) (.decisionValidation (lit "decided_by is required"))
  let rationale := strip req.rationale
  let source ← Except.orRaise (ofValue? (α := IdentitySource) req.identitySource)
    (.decisionValidation identitySourceError)
  Except.raiseSome ((Policy.decisionStatusViolation dtype status).map Exn.decisionConflict)
  Except.raiseSome ((preparers.findSome? (Policy.decisionSodViolation rt dtype decidedBy)).map
    Exn.segregationOfDuties)
  checkSubjectType dtype req.subjectType
  let subjectId ← checkSubjectId (subjectForType dtype) req.subjectId
  let artifactName := artifactForSubject (subjectForType dtype)
  let artifact ← Except.orRaise (ctx.artifact artifactName)
    (.decisionConflict (lit "there are no " ++ artifactName ++ lit " to decide on yet"))
  let parsed ← modelValidate rt dtype (req.values.getD [])
  let active ← activeBySlot rt ctx decisions
  let stored ← storedValues rt ctx active subjectId rationale decidedAt dtype parsed
  Except.ensure (dtype ∈ Policy.rationaleAlwaysRequired → rationale ≠ [])
    (.decisionValidation (lit "a '" ++ value dtype ++ lit "' decision needs a rationale"))
  let supersedes := (req.supersedes.map strip).filter (· ≠ [])
  checkSupersedes rt ctx decisions active
    (slotOf dtype, value (subjectForType dtype), subjectId) supersedes
  let draftDigest ← Trail.artifactDigest rt artifact
  return {
    decisionId := uuid
    phase := (phaseForType dtype).number
    artifact := artifactName
    draftDigest := draftDigest
    subjectType := subjectForType dtype
    subjectId := subjectId
    decisionType := dtype
    values := stored
    rationale := rationale
    decidedBy := decidedBy
    identitySource := source
    decidedAt := decidedAt
    supersedes := supersedes }

/-! ## The effective view -/

/-- `DecisionRef`: a compact copy of the decision a record rests on. -/
structure DecisionRef where
  decisionId : Str
  decisionType : Str
  decidedBy : Str
  identitySource : Str
  decidedAt : Str
  rationale : Str
  values : Dict Str Str
  supersedes : Option Str
  deriving DecidableEq

def DecisionRef.of (d : ReviewDecision) : DecisionRef where
  decisionId := d.decisionId
  decisionType := value d.decisionType
  decidedBy := d.decidedBy
  identitySource := value d.identitySource
  decidedAt := d.decidedAt
  rationale := d.rationale
  values := d.values
  supersedes := d.supersedes

structure FindingConclusions where
  todConclusion : Str
  toeConclusion : Str
  result : Str
  preliminaryDeficiency : Bool
  deriving DecidableEq

structure FindingView where
  controlId : Str
  keyControl : Option Bool
  draft : FindingConclusions
  effective : FindingConclusions
  reviewStatus : Str
  review : Option DecisionRef
  scopeLimitation : Option DecisionRef
  differsFromDraft : Bool
  reviewRequiredForGate2 : Bool
  deriving DecidableEq

structure Classification where
  classification : Str
  likelihood : Str
  magnitude : Str
  deriving DecidableEq

structure DeficiencyView where
  deficiencyId : Str
  title : Str
  relatedFindings : List Str
  draft : Classification
  effective : Classification
  classificationSource : Str
  classificationDecision : Option DecisionRef
  differsFromDraft : Bool
  writeup : Option DecisionRef
  managementResponse : Option DecisionRef
  remediationVerification : Option DecisionRef
  deriving DecidableEq

structure ReviewerChangeRate where
  subjectsDecided : Nat
  subjectsChanged : Nat
  rate : Option Rat
  published : Bool
  deriving DecidableEq

structure EffectiveView where
  decisionsRequired : Bool
  deficiencyScale : Option Str
  findings : List FindingView
  deficiencies : List DeficiencyView
  engagementConclusion : Option DecisionRef
  missingForGate : Dict Str (List MissingDecision)
  reviewerChangeRate : ReviewerChangeRate
  staleDecisionIds : List Str
  supersededDecisionIds : List Str
  deriving DecidableEq

/-- `EffectiveView.finding(control_id)` -/
def EffectiveView.finding (v : EffectiveView) (controlId : Str) : Option FindingView :=
  v.findings.find? fun f => f.controlId = controlId

/-- `str(value)` of an optional enum member. -/
def optionText {α : Type} [StrEnum α] : Option α → Str
  | none => lit "None"
  | some a => value a

def draftConclusions (f : AuditFindingSchema) : FindingConclusions where
  todConclusion := value f.todConclusion
  toeConclusion := value f.toeConclusion
  result := optionText f.result
  preliminaryDeficiency := f.preliminaryDeficiency.getD false

def findingView (keys : Dict Str (Option Bool)) (active : Dict SlotKey ReviewDecision)
    (f : AuditFindingSchema) : Except Exn FindingView := do
  let fid := value DecisionSubjectType.finding
  let review := active.get? (findingReview, fid, f.controlId)
  let scope := active.get? (value DecisionType.scopeLimitation, fid, f.controlId)
  let (tod, toe, result) ← effectiveConclusions rt f review
  let draft := draftConclusions f
  let effective : FindingConclusions :=
    { todConclusion := tod
      toeConclusion := toe
      result := result
      preliminaryDeficiency :=
        f.preliminaryDeficiency.getD false && result = value FindingResult.exception }
  let keyControl := (keys.get? f.controlId).getD none
  return {
    controlId := f.controlId
    keyControl := keyControl
    draft := draft
    effective := effective
    reviewStatus := match review with
      | none => lit "not_reviewed"
      | some d => if d.decisionType = DecisionType.challenge then lit "challenged" else lit "signed_off"
    review := review.map DecisionRef.of
    scopeLimitation := scope.map DecisionRef.of
    differsFromDraft := draft ≠ effective
    reviewRequiredForGate2 := Policy.findingNeedsReview draft.result keyControl }

/-- `_finding_views`: duplicate control ids share the view of the first finding. -/
def findingViews (ctx : Context) (active : Dict SlotKey ReviewDecision) :
    Except Exn (List FindingView) :=
  (Dict.firstBy (·.controlId) ctx.findings).mapM (findingView rt ctx.keyControls active)

/-- `Classification(**values)` -/
def classificationOf (values : Dict Str Str) : Except Exn Classification :=
  match values.get? (lit "classification"), values.get? (lit "likelihood"),
    values.get? (lit "magnitude") with
  | some c, some l, some m => .ok ⟨c, l, m⟩
  | _, _, _ => .error (.validation (rt.assignmentError (lit "Classification")))

def deficiencyView (active : Dict SlotKey ReviewDecision) (e : DeficiencyEvaluationSchema) :
    Except Exn DeficiencyView := do
  let did := value DecisionSubjectType.deficiency
  let slot (t : DecisionType) := active.get? (value t, did, e.deficiencyId)
  let classify := slot .classify
  let draft ← classificationOf rt (draftClassification e)
  let effective ← classificationOf rt (match classify with
    | some d => d.values
    | none => draftClassification e)
  return {
    deficiencyId := e.deficiencyId
    title := e.title
    relatedFindings := e.relatedFindings
    draft := draft
    effective := effective
    classificationSource := if classify.isSome then lit "reviewer" else lit "ai_draft"
    classificationDecision := classify.map DecisionRef.of
    differsFromDraft := draft ≠ effective
    writeup := (slot .writeup).map DecisionRef.of
    managementResponse := (slot .managementResponse).map DecisionRef.of
    remediationVerification := (slot .remediationVerification).map DecisionRef.of }

def deficiencyViews (ctx : Context) (active : Dict SlotKey ReviewDecision) :
    Except Exn (List DeficiencyView) :=
  (Dict.firstBy (·.deficiencyId) ctx.evaluations).mapM (deficiencyView rt active)

def missingReview (f : FindingView) : Option MissingDecision :=
  if f.reviewRequiredForGate2 && f.review.isNone then
    let reasons :=
      (if f.draft.result = value FindingResult.exception then [lit "result is Exception"] else []) ++
        (if f.keyControl.getD false then [lit "key control"] else [])
    some {
      gate := 2
      subjectType := lit "finding"
      subjectId := f.controlId
      required := [lit "sign_off", lit "challenge"]
      reason := lit "Needs a reviewer sign-off or challenge (" ++ join (lit "; ") reasons ++
        lit ")." }
  else none

def missingClassification (d : DeficiencyView) : Option MissingDecision :=
  if Policy.gate3ClassifyEveryDeficiency && d.classificationDecision.isNone then
    some {
      gate := 3
      subjectType := lit "deficiency"
      subjectId := d.deficiencyId
      required := [lit "classify"]
      reason := lit "Needs the reviewer's classification (the AI draft proposes " ++
        d.draft.classification ++ lit ")." }
  else none

def missingScopeLimitation (f : FindingView) : Option MissingDecision :=
  if Policy.findingNeedsScopeLimitation f.effective.result f.keyControl &&
      f.scopeLimitation.isNone then
    some {
      gate := 3
      subjectType := lit "finding"
      subjectId := f.controlId
      required := [lit "scope_limitation"]
      reason := lit "Key control not tested: record how it is reported as a scope limitation." }
  else none

def missingConclusion (conclusion : Option DecisionRef) : Option MissingDecision :=
  if Policy.gate3EngagementConclusion && conclusion.isNone then
    some {
      gate := 3
      subjectType := lit "engagement"
      subjectId := engagementSubjectId
      required := [lit "engagement_conclusion"]
      reason := lit "Needs the engagement conclusion (" ++
        join (lit " / ") Policy.engagementConclusionScale ++ lit ")." }
  else none

def missing (ctx : Context) (findings : List FindingView) (deficiencies : List DeficiencyView)
    (conclusion : Option DecisionRef) : Dict Str (List MissingDecision) :=
  (if ctx.papers.isSome then [(lit "2", findings.filterMap missingReview)] else []) ++
    (if ctx.report.isSome then
      [(lit "3", deficiencies.filterMap missingClassification ++
        findings.filterMap missingScopeLimitation ++ (missingConclusion conclusion).toList)]
    else [])

def effectiveView (ctx : Context) (decisions : List ReviewDecision) (decisionsRequired : Bool) :
    Except Exn EffectiveView := do
  let states ← decisionStates rt ctx decisions
  let active ← activeBySlot rt ctx decisions
  let findings ← findingViews rt ctx active
  let deficiencies ← deficiencyViews rt ctx active
  let conclusion := (active.get? (value DecisionType.engagementConclusion,
    value DecisionSubjectType.engagement, engagementSubjectId)).map DecisionRef.of
  let decided := findings.countP (·.review.isSome) +
    deficiencies.countP (·.classificationDecision.isSome)
  let changed := findings.countP (·.reviewStatus = lit "challenged") +
    deficiencies.countP fun d => d.classificationDecision.isSome && d.differsFromDraft
  return {
    decisionsRequired := decisionsRequired
    deficiencyScale := (ctx.report.bind (·.deficiencyScale)).map value
    findings := findings
    deficiencies := deficiencies
    engagementConclusion := conclusion
    missingForGate := missing ctx findings deficiencies conclusion
    reviewerChangeRate :=
      { subjectsDecided := decided
        subjectsChanged := changed
        rate := if decided = 0 then none else some ((changed : Rat) / decided)
        published := false }
    staleDecisionIds := (states.filter (·.2 = .stale)).map (·.1)
    supersededDecisionIds := (states.filter (·.2 = .superseded)).map (·.1) }

end Decisions

end AuditSwarm
