import AuditSwarm.Model.OscalBuilder
import AuditSwarm.Model.ReportMarkup

/-!
# The deficiency table of the exported report

`_deficiency_section` of `exports.py`: one row for each deficiency, with the conclusion of record
where a reviewer decided and the draft where none did.
-/

namespace AuditSwarm

open Python
open StrEnum (value)
open Decisions (DecisionRef DeficiencyView EffectiveView)
open Oscal (oneLine)

namespace Exports

/-- A row of the table, before it is made one line of Markdown. -/
structure Row where
  id : Str
  title : Str
  findings : Str
  risks : Str
  likelihood : Str
  magnitude : Str
  classification : Str
  compensatingControls : Str
  rationale : Str

def Row.cells (r : Row) : List Str :=
  [r.id, r.title, r.findings, r.risks, r.likelihood, r.magnitude, r.classification,
    r.compensatingControls, r.rationale]

def mdCell (cls : CharClasses) (value : Str) : Str :=
  sanitizeReport cls ((oneLine value).flatMap fun c => if c = 124 then lit "\\|" else [c])

def Row.line (cls : CharClasses) (r : Row) : Str :=
  lit "| " ++ join (lit " | ") (r.cells.map (mdCell cls)) ++ lit " |"

def identitySources (view : EffectiveView) : List Str :=
  (view.engagementConclusion.toList ++
    view.findings.flatMap (fun f => f.review.toList ++ f.scopeLimitation.toList) ++
    view.deficiencies.flatMap fun d => d.classificationDecision.toList ++ d.writeup.toList ++
      d.managementResponse.toList ++ d.remediationVerification.toList).map (·.identitySource)

def identityNote (sources : List Str) : Str :=
  let authenticated := lit "authenticated"
  if sources ≠ [] ∧ ∀ s ∈ sources, s = authenticated then
    lit ("Reviewer identities were authenticated with per-reviewer tokens " ++
      "(this application only: not single sign-on, no MFA).")
  else if sources.any fun s => s = authenticated then
    lit ("Each reviewer identity is marked declared (typed by the reviewer) " ++
      "or authenticated (per-reviewer token; not single sign-on, no MFA).")
  else lit "Identities are declared, not authenticated."

def decidedByText (ref : DecisionRef) : Str :=
  oneLine ref.decidedBy ++ lit " (" ++ oneLine ref.identitySource ++ lit " identity), " ++
    (oneLine ref.decidedAt).take 10

/-- `_with_draft`; `SHOW_AI_DRAFT_WHEN_DIFFERENT` is set. -/
def withDraft (record draft : Str) : Str :=
  if record = draft then record else record ++ lit " (AI draft: " ++ draft ++ lit ")"

def tableScale (report : FinalReportSchema) : Str :=
  let scale := oneLine ((report.deficiencyScale.map value).getD [])
  if scale = [] then lit "not stated" else scale

def tableHead : List Str :=
  [lit ("| ID | Title | Findings | Risks | Likelihood | Magnitude " ++
      "| Classification | Compensating controls | Rationale |"),
    lit "|---|---|---|---|---|---|---|---|---|"]

/-! ## Without a decision -/

def proposedRow (e : DeficiencyEvaluationSchema) : Row where
  id := e.deficiencyId
  title := e.title
  findings := join (lit ", ") e.relatedFindings
  risks := join (lit ", ") e.relatedRisks
  likelihood := value e.likelihood
  magnitude := value e.magnitude
  classification := value e.classification
  compensatingControls := e.compensatingControls
  rationale := e.rationale

def proposedDeficiencySection (cls : CharClasses) (report : FinalReportSchema) (status : Str) :
    List Str :=
  let note :=
    if status = lit "COMPLETED" then
      lit ("Engagement-level evaluation proposed by the reporting crew; the " ++
        "report containing it was approved at Gate 3 (see Approval Trail).")
    else lit ("Draft engagement-level evaluation proposed by the reporting crew, " ++
      "for the auditor's judgement at Gate 3.")
  [lit "## Deficiency Evaluation (proposed)", [],
      lit "> " ++ note ++ lit " Scale: " ++ tableScale report ++ lit ".", []] ++
    (if report.deficiencyEvaluations = [] then [lit "No deficiencies were proposed.", []]
      else tableHead ++ (report.deficiencyEvaluations.map fun e => (proposedRow e).line cls) ++ [[]])

/-! ## With decisions -/

def decided (view : EffectiveView) : List DeficiencyView :=
  view.deficiencies.filter fun d => d.classificationDecision.isSome

def byId (report : FinalReportSchema) (deficiencyId : Str) : Option DeficiencyEvaluationSchema :=
  report.deficiencyEvaluations.reverse.find? fun e => e.deficiencyId = deficiencyId

def reviewerRationale (ref : DecisionRef) : Str :=
  lit "Reviewer: " ++ if ref.rationale = [] then lit "agrees with the draft." else ref.rationale

def conclusionCells (d : DeficiencyView) (e : DeficiencyEvaluationSchema) : Str × Str :=
  match d.classificationDecision with
  | some ref =>
      (d.effective.classification ++ lit " — reviewer: " ++ decidedByText ref ++
        (if d.effective.classification ≠ d.draft.classification then
          lit "; AI draft: " ++ d.draft.classification else []),
      reviewerRationale ref ++
        (if d.differsFromDraft then lit " AI draft rationale: " ++ e.rationale else []))
  | none => (d.draft.classification ++ lit " (proposed)", e.rationale)

/-- The row of a deficiency and the evaluation found by its id. -/
def recordRow (d : DeficiencyView) (e : DeficiencyEvaluationSchema) : Row where
  id := e.deficiencyId
  title := e.title
  findings := join (lit ", ") e.relatedFindings
  risks := join (lit ", ") e.relatedRisks
  likelihood := withDraft d.effective.likelihood d.draft.likelihood
  magnitude := withDraft d.effective.magnitude d.draft.magnitude
  classification := (conclusionCells d e).1
  compensatingControls := e.compensatingControls
  rationale := (conclusionCells d e).2

/-- The rows of the table with decisions; an id without an evaluation is a `KeyError`. -/
def recordRows (report : FinalReportSchema) (view : EffectiveView) : Option (List Row) :=
  view.deficiencies.mapM fun d => (byId report d.deficiencyId).map (recordRow d)

def recordNote (rt : Runtime) (view : EffectiveView) : Str :=
  let identities := (identityNote (identitySources view)).rdropWhile fun c => c = 46
  lit "Classifications are the reviewer's decisions (" ++ rt.lower (identities.take 1) ++
    identities.drop 1 ++ lit ("). Where the reviewer departed from the AI-drafted " ++
      "evaluation, the draft is shown alongside.") ++
    (if (decided view).length = view.deficiencies.length then []
      else lit (" Rows marked 'proposed' have no reviewer decision yet: they show the " ++
        "AI draft, for the auditor's judgement at Gate 3."))

def deficiencySection (rt : Runtime) (cls : CharClasses) (report : FinalReportSchema) (status : Str)
    (view : Option EffectiveView) : Option (List Str) :=
  match view with
  | none => some (proposedDeficiencySection cls report status)
  | some v =>
      if decided v = [] then some (proposedDeficiencySection cls report status)
      else (recordRows report v).map fun rows =>
        [if (decided v).length = v.deficiencies.length then
            lit "## Deficiency Evaluation (conclusion of record)"
          else lit "## Deficiency Evaluation (conclusion of record where decided)", [],
          lit "> " ++ recordNote rt v ++ lit " Scale: " ++ tableScale report ++ lit ".", []] ++
        tableHead ++ rows.map (Row.line cls) ++ [[]]

def tableRows (report : FinalReportSchema) (view : EffectiveView) : Option (List Row) :=
  if decided view = [] then some (report.deficiencyEvaluations.map proposedRow)
  else recordRows report view

theorem deficiencySection_rows (rt : Runtime) (cls : CharClasses) (report : FinalReportSchema)
    (status : Str) (view : EffectiveView) (hsome : report.deficiencyEvaluations ≠ []) :
    ∃ above, deficiencySection rt cls report status (some view) =
      (tableRows report view).map fun rows =>
        above ++ tableHead ++ rows.map (Row.line cls) ++ [[]] := by
  unfold deficiencySection tableRows
  by_cases hdecided : decided view = []
  · dsimp only
    rw [if_pos hdecided, if_pos hdecided]
    unfold proposedDeficiencySection
    rw [if_neg hsome]
    apply Exists.intro
    rw [Option.map_some, List.map_map, ← List.append_assoc, ← List.append_assoc]
    rfl
  · dsimp only
    rw [if_neg hdecided, if_neg hdecided]
    exact ⟨_, rfl⟩

end Exports

end AuditSwarm
