import AuditSwarm.Decisions.View
import AuditSwarm.Model.ReportTable
import AuditSwarm.Oscal.Props
import AuditSwarm.Properties.SarIndependence

/-!
# Deficiencies of record

When each evaluation of a report keeps its own row of the exported table and its own risk of the
assessment results, with its own conclusion.  The views are joined by deficiency id: a view is that
of the first evaluation of the id, the table looks up the last, and the document has a risk for
each.
-/

namespace AuditSwarm

open Python Decisions
open StrEnum (value)
open Oscal (draftOf shownValue propValue lineOr)

namespace Exports

variable {rt : Runtime} {active : Dict SlotKey ReviewDecision}

/-! ## What is to be shown -/

def classifyOn (active : Dict SlotKey ReviewDecision) (e : DeficiencyEvaluationSchema) :
    Option ReviewDecision :=
  active.get? (deficiencySlot .classify e.deficiencyId)

/-- A classification that may be shown of an evaluation: its draft, or that of an active decision
on it. -/
def OfRecord (rt : Runtime) (active : Dict SlotKey ReviewDecision) (e : DeficiencyEvaluationSchema)
    (c : Classification) : Prop :=
  c = draftOf e ∨ ∃ d, classifyOn active e = some d ∧ classificationOf rt d.values = .ok c

/-- A row shows the title and the rationale of an evaluation with a classification. -/
structure RowShows (e : DeficiencyEvaluationSchema) (c : Classification) (row : Row) : Prop where
  title : row.title = e.title
  rationale : e.rationale <:+: row.rationale
  classification : row.classification = c.classification ∨
    row.classification = c.classification ++ lit " (proposed)" ∨
    (c.classification ++ lit " — reviewer: ") <+: row.classification
  likelihood : row.likelihood = c.likelihood ∨ (c.likelihood ++ lit " (AI draft: ") <+: row.likelihood
  magnitude : row.magnitude = c.magnitude ∨ (c.magnitude ++ lit " (AI draft: ") <+: row.magnitude

/-- A risk shows the title and the rationale of an evaluation with a classification. -/
structure RiskShows (markup : Str → Str) (e : DeficiencyEvaluationSchema) (c : Classification)
    (risk : Oscal.DocumentRisk) : Prop where
  title : risk.title = markup (lineOr e.title e.deficiencyId)
  rationale : ∃ text, risk.statement = markup text ∧ e.rationale <:+: text
  classification : propValue risk.props (lit "classification") = shownValue c.classification
  likelihood : propValue risk.props (lit "likelihood") = shownValue c.likelihood
  magnitude : propValue risk.props (lit "magnitude") = shownValue c.magnitude

/-- Each evaluation has its own row and its own risk, with what is of record about it. -/
structure RecordKept (rt : Runtime) (active : Dict SlotKey ReviewDecision) (markup : Str → Str)
    (evaluations : List DeficiencyEvaluationSchema) (rows : List Row)
    (risks : List Oscal.DocumentRisk) : Prop where
  rows : List.Forall₂ (fun e row => ∃ c, OfRecord rt active e c ∧ RowShows e c row) evaluations rows
  risks : List.Forall₂ (fun e risk => ∃ c, OfRecord rt active e c ∧ RiskShows markup e c risk)
    evaluations risks

/-- The rationale of an evaluation is part of what the table says of a decision that agrees with
its draft. -/
def RationaleKept (rt : Runtime) (active : Dict SlotKey ReviewDecision)
    (e : DeficiencyEvaluationSchema) : Prop :=
  ∀ d, classifyOn active e = some d → classificationOf rt d.values = .ok (draftOf e) →
    e.rationale <:+: reviewerRationale (DecisionRef.of d)

/-- Evaluations of one id do no harm: none is decided or no id is repeated, and the drafts of an
undecided id agree. -/
structure Aligned (rt : Runtime) (active : Dict SlotKey ReviewDecision)
    (evaluations : List DeficiencyEvaluationSchema) : Prop where
  table : (∀ e ∈ evaluations, classifyOn active e = none) ∨
    (evaluations.map (·.deficiencyId)).Nodup ∧ ∀ e ∈ evaluations, RationaleKept rt active e
  drafts : ∀ e ∈ evaluations, ∀ e' ∈ evaluations, e.deficiencyId = e'.deficiencyId →
    classifyOn active e = none → draftOf e = draftOf e'

/-! ## The view of an evaluation -/

/-- What the view of an evaluation says about its classification. -/
structure ViewOf (rt : Runtime) (active : Dict SlotKey ReviewDecision)
    (e : DeficiencyEvaluationSchema) (v : DeficiencyView) : Prop where
  deficiencyId : v.deficiencyId = e.deficiencyId
  draft : v.draft = draftOf e
  decision : v.classificationDecision = (classifyOn active e).map DecisionRef.of
  undecided : classifyOn active e = none → v.effective = draftOf e
  decided : ∀ d, classifyOn active e = some d → classificationOf rt d.values = .ok v.effective
  differs : v.differsFromDraft = decide (v.draft ≠ v.effective)

theorem classificationOf_draft (e : DeficiencyEvaluationSchema) :
    classificationOf rt (draftClassification e) = .ok (draftOf e) := by
  rfl

theorem deficiencyView_viewOf {e : DeficiencyEvaluationSchema} {v : DeficiencyView}
    (h : deficiencyView rt active e = .ok v) : ViewOf rt active e v := by
  unfold deficiencyView at h
  rcases Except.bind_eq_ok_iff.mp h with ⟨draft, hdraft, h⟩
  rcases Except.bind_eq_ok_iff.mp h with ⟨effective, heffective, h⟩
  rw [classificationOf_draft] at hdraft
  have hv := (Except.ok.inj h).symm
  have hd := (Except.ok.inj hdraft).symm
  rw [hv]
  refine ⟨rfl, hd, rfl, ?_, ?_, rfl⟩
  · intro hnone
    unfold classifyOn deficiencySlot at hnone
    dsimp only at heffective
    rw [hnone] at heffective
    exact (Except.ok.inj (heffective.symm.trans (classificationOf_draft e)))
  · intro d hd
    unfold classifyOn deficiencySlot at hd
    dsimp only at heffective
    rw [hd] at heffective
    exact heffective

theorem classifyOn_congr {e e' : DeficiencyEvaluationSchema}
    (h : e.deficiencyId = e'.deficiencyId) : classifyOn active e = classifyOn active e' := by
  unfold classifyOn
  rw [h]

section
variable {ctx : Context} {views : List DeficiencyView}

theorem views_viewOf (h : deficiencyViews rt ctx active = .ok views) :
    List.Forall₂ (ViewOf rt active) (Dict.firstBy (·.deficiencyId) ctx.evaluations) views :=
  (Except.mapM_eq_ok_iff.mp h).imp fun _ _ hv => deficiencyView_viewOf hv

theorem view_of_evaluation (h : deficiencyViews rt ctx active = .ok views)
    {e : DeficiencyEvaluationSchema} (he : e ∈ ctx.evaluations) :
    ∃ first ∈ Dict.firstBy (·.deficiencyId) ctx.evaluations,
      first.deficiencyId = e.deficiencyId ∧ ∃ v, ViewOf rt active first v ∧
        views.find? (fun v => v.deficiencyId = e.deficiencyId) = some v := by
  cases hfind : views.find? fun v => v.deficiencyId = e.deficiencyId with
  | none =>
      have hfirst : ∃ first ∈ Dict.firstBy (·.deficiencyId) ctx.evaluations,
          first.deficiencyId = e.deficiencyId := Dict.exists_mem_firstBy he
      rcases hfirst with ⟨first, hmem, hid⟩
      rcases Except.exists_of_mapM_eq_ok h first hmem with ⟨v, hv, hview⟩
      have hne := List.find?_eq_none.mp hfind v hv
      rw [(deficiencyView_viewOf hview).deficiencyId, hid] at hne
      exact absurd (decide_eq_true rfl) hne
  | some v =>
      rcases Except.mem_of_mapM_eq_ok h v (List.mem_of_find?_eq_some hfind) with
        ⟨first, hmem, hview⟩
      have hv := deficiencyView_viewOf hview
      have hid : v.deficiencyId = e.deficiencyId := by
        simpa using List.find?_some hfind
      exact ⟨first, hmem, hv.deficiencyId.symm.trans hid, v, hv, rfl⟩

/-! ## The rows -/

theorem proposedRow_shows (e : DeficiencyEvaluationSchema) : RowShows e (draftOf e) (proposedRow e) :=
  ⟨rfl, List.infix_refl _, .inl rfl, .inl rfl, .inl rfl⟩

theorem withDraft_shows (record draft : Str) :
    withDraft record draft = record ∨ (record ++ lit " (AI draft: ") <+: withDraft record draft := by
  unfold withDraft
  by_cases h : record = draft
  · exact .inl (if_pos h)
  · rw [if_neg h]
    exact .inr ((List.prefix_append _ draft).trans (List.prefix_append _ _))

theorem recordRow_shows_iff {e : DeficiencyEvaluationSchema} {v : DeficiencyView}
    (hv : ViewOf rt active e v) :
    (∃ c, OfRecord rt active e c ∧ RowShows e c (recordRow v e)) ↔ RationaleKept rt active e := by
  constructor
  · rintro ⟨c, -, hrow⟩ d hd hagrees
    have heffective : v.effective = draftOf e := Except.ok.inj ((hv.decided d hd).symm.trans hagrees)
    have hdiffers : v.differsFromDraft = false := by
      rw [hv.differs, hv.draft, heffective]
      exact decide_eq_false (fun h => h rfl)
    have hcell : (recordRow v e).rationale = reviewerRationale (DecisionRef.of d) := by
      unfold recordRow conclusionCells
      rw [hv.decision, hd]
      dsimp only [Option.map_some]
      rw [hdiffers]
      exact List.append_nil _
    have hrationale := hrow.rationale
    rwa [hcell] at hrationale
  · intro hkept
    refine ⟨v.effective, ?_, ?_⟩
    · cases hd : classifyOn active e with
      | none => exact .inl (hv.undecided hd)
      | some d => exact .inr ⟨d, hd, hv.decided d hd⟩
    · cases hd : classifyOn active e with
      | none =>
          have hcells : conclusionCells v e = (v.draft.classification ++ lit " (proposed)",
              e.rationale) := by
            unfold conclusionCells
            rw [hv.decision, hd]
            rfl
          have heffective := hv.undecided hd
          refine ⟨rfl, ?_, .inr (.inl ?_), withDraft_shows _ _, withDraft_shows _ _⟩
          · show e.rationale <:+: (conclusionCells v e).2
            rw [hcells]
          · show (conclusionCells v e).1 = _
            rw [hcells, heffective, hv.draft]
      | some d =>
          have hcells : conclusionCells v e =
              (v.effective.classification ++ lit " — reviewer: " ++
                decidedByText (DecisionRef.of d) ++
                (if v.effective.classification ≠ v.draft.classification then
                  lit "; AI draft: " ++ v.draft.classification else []),
              reviewerRationale (DecisionRef.of d) ++
                (if v.differsFromDraft then lit " AI draft rationale: " ++ e.rationale else [])) := by
            unfold conclusionCells
            rw [hv.decision, hd]
            rfl
          refine ⟨rfl, ?_, .inr (.inr ?_), withDraft_shows _ _, withDraft_shows _ _⟩
          · show e.rationale <:+: (conclusionCells v e).2
            rw [hcells]
            dsimp only
            cases hdiffers : v.differsFromDraft with
            | true =>
                rw [if_pos rfl, ← List.append_assoc]
                exact (List.suffix_append _ _).isInfix
            | false =>
                rw [hv.differs, decide_eq_false_iff_not, not_not] at hdiffers
                have hagrees : classificationOf rt d.values = .ok (draftOf e) := by
                  rw [hv.decided d hd, ← hdiffers, hv.draft]
                rw [if_neg Bool.false_ne_true, List.append_nil]
                exact hkept d hd hagrees
          · show _ <+: (conclusionCells v e).1
            rw [hcells]
            exact (List.prefix_append _ _).trans (List.prefix_append _ _)

theorem decided_eq_nil_iff {view : EffectiveView}
    (h : deficiencyViews rt ctx active = .ok view.deficiencies) :
    decided view = [] ↔ ∀ e ∈ ctx.evaluations, classifyOn active e = none := by
  unfold decided
  rw [List.filter_eq_nil_iff]
  constructor
  · intro hnone e he
    rcases view_of_evaluation h he with ⟨first, -, hid, v, hv, hfind⟩
    have hdecision := hnone v (List.mem_of_find?_eq_some hfind)
    rw [hv.decision, classifyOn_congr hid] at hdecision
    cases hd : classifyOn active e with
    | none => rfl
    | some d =>
        rw [hd] at hdecision
        exact absurd rfl hdecision
  · intro hnone v hv
    rcases Except.mem_of_mapM_eq_ok h v hv with ⟨first, hmem, hview⟩
    rw [(deficiencyView_viewOf hview).decision, hnone first (Dict.mem_of_mem_firstBy hmem)]
    exact Bool.false_ne_true

theorem byId_of_nodup {report : FinalReportSchema}
    (h : (report.deficiencyEvaluations.map (·.deficiencyId)).Nodup)
    {e : DeficiencyEvaluationSchema} (he : e ∈ report.deficiencyEvaluations) :
    byId report e.deficiencyId = some e := by
  unfold byId
  cases hfind : report.deficiencyEvaluations.reverse.find? fun x => x.deficiencyId = e.deficiencyId with
  | none =>
      have hne := List.find?_eq_none.mp hfind e (List.mem_reverse.mpr he)
      exact absurd (decide_eq_true rfl) hne
  | some x =>
      have hid : x.deficiencyId = e.deficiencyId := by
        simpa using List.find?_some hfind
      have hx := List.mem_reverse.mp (List.mem_of_find?_eq_some hfind)
      rw [List.inj_on_of_nodup_map h hx he hid]

/-- Without a repeated id each evaluation has the row of its own view. -/
theorem recordRows_of_nodup {report : FinalReportSchema} {es : List DeficiencyEvaluationSchema}
    {vs : List DeficiencyView} (hviews : List.Forall₂ (ViewOf rt active) es vs)
    (hown : ∀ e ∈ es, byId report e.deficiencyId = some e) :
    ∃ rows, (vs.mapM fun d => (byId report d.deficiencyId).map (recordRow d)) = some rows ∧
      List.Forall₂ (fun e row => ∃ v, ViewOf rt active e v ∧ row = recordRow v e) es rows := by
  induction hviews with
  | nil => exact ⟨[], rfl, .nil⟩
  | @cons e v es vs hv _ ih =>
      rcases ih fun e he => hown e (List.mem_cons_of_mem _ he) with ⟨rows, hrows, hall⟩
      refine ⟨recordRow v e :: rows, ?_, .cons ⟨v, hv, rfl⟩ hall⟩
      rw [List.mapM_cons, hrows, hv.deficiencyId, hown e List.mem_cons_self]
      rfl

theorem length_of_recordRows {report : FinalReportSchema} {vs : List DeficiencyView}
    {rows : List Row}
    (h : (vs.mapM fun d => (byId report d.deficiencyId).map (recordRow d)) = some rows) :
    rows.length = vs.length := by
  induction vs generalizing rows with
  | nil =>
      rw [List.mapM_nil] at h
      rw [← Option.some.inj h]
      rfl
  | cons v vs ih =>
      rw [List.mapM_cons] at h
      rcases Option.bind_eq_some_iff.mp h with ⟨row, -, h⟩
      rcases Option.bind_eq_some_iff.mp h with ⟨rest, hrest, h⟩
      rw [← Option.some.inj h, List.length_cons, List.length_cons, ih hrest]

theorem table_kept_iff {report : FinalReportSchema} {view : EffectiveView}
    (hctx : ctx.evaluations = report.deficiencyEvaluations)
    (h : deficiencyViews rt ctx active = .ok view.deficiencies) :
    (∃ rows, tableRows report view = some rows ∧
      List.Forall₂ (fun e row => ∃ c, OfRecord rt active e c ∧ RowShows e c row)
        report.deficiencyEvaluations rows) ↔
      (∀ e ∈ report.deficiencyEvaluations, classifyOn active e = none) ∨
      (report.deficiencyEvaluations.map (·.deficiencyId)).Nodup ∧
        ∀ e ∈ report.deficiencyEvaluations, RationaleKept rt active e := by
  have hdecided := decided_eq_nil_iff h
  rw [hctx] at hdecided
  unfold tableRows
  by_cases hnone : decided view = []
  · rw [if_pos hnone]
    refine ⟨fun _ => .inl (hdecided.mp hnone), fun _ => ⟨_, rfl, ?_⟩⟩
    rw [List.forall₂_map_right_iff, List.forall₂_same]
    intro e _
    exact ⟨draftOf e, .inl rfl, proposedRow_shows e⟩
  · rw [if_neg hnone, or_iff_right (fun hall => hnone (hdecided.mpr hall))]
    have hviews := views_viewOf h
    rw [hctx] at hviews
    constructor
    · rintro ⟨rows, hrows, hall⟩
      have hlength : (Dict.firstBy (·.deficiencyId) report.deficiencyEvaluations).length =
          report.deficiencyEvaluations.length := by
        rw [hviews.length_eq, hall.length_eq]
        exact (length_of_recordRows hrows).symm
      have hfirst : Dict.firstBy (·.deficiencyId) report.deficiencyEvaluations =
          report.deficiencyEvaluations :=
        (Dict.firstByFrom_sublist [] _).eq_of_length hlength
      have hnodup := Dict.firstBy_eq_self_iff.mp hfirst
      refine ⟨hnodup, ?_⟩
      rw [hfirst] at hviews
      rcases recordRows_of_nodup hviews fun e he => byId_of_nodup hnodup he with ⟨rows', hrows', hmade⟩
      rw [show rows' = rows from Option.some.inj (hrows'.symm.trans hrows)] at hmade
      refine (Oscal.forall₂_iff_forall hmade ?_).mp hall
      rintro e - row ⟨v, hv, rfl⟩
      exact recordRow_shows_iff hv
    · rintro ⟨hnodup, hkept⟩
      rw [Dict.firstBy_eq_self_iff.mpr hnodup] at hviews
      rcases recordRows_of_nodup hviews fun e he => byId_of_nodup hnodup he with ⟨rows, hrows, hmade⟩
      refine ⟨rows, hrows, (Oscal.forall₂_iff_forall hmade ?_).mpr hkept⟩
      rintro e - row ⟨v, hv, rfl⟩
      exact recordRow_shows_iff hv

end

/-! ## The risks -/

section
variable {lib : OscalLibrary} {inp : Oscal.Inputs}

theorem shownValue_classification (c : DeficiencyClassification) :
    shownValue (value c) = some (value c) := by
  cases c <;> decide

theorem shownValue_rating (r : RiskRating) : shownValue (value r) = some (value r) := by
  cases r <;> decide

theorem draftOf_eq_of_shown {e e' : DeficiencyEvaluationSchema}
    (hclassification : shownValue (draftOf e).classification =
      shownValue (draftOf e').classification)
    (hlikelihood : shownValue (draftOf e).likelihood = shownValue (draftOf e').likelihood)
    (hmagnitude : shownValue (draftOf e).magnitude = shownValue (draftOf e').magnitude) :
    draftOf e = draftOf e' := by
  unfold draftOf at *
  dsimp only at hclassification hlikelihood hmagnitude
  rw [shownValue_classification, shownValue_classification] at hclassification
  rw [shownValue_rating, shownValue_rating] at hlikelihood hmagnitude
  rw [Option.some.inj hclassification, Option.some.inj hlikelihood, Option.some.inj hmagnitude]

theorem rationale_suffix (dv : Option DeficiencyView) (e : DeficiencyEvaluationSchema) :
    e.rationale <:+ (Oscal.riskTexts inp dv e).statement := by
  unfold Oscal.riskTexts
  split
  · exact List.suffix_append _ _
  · split
    · exact List.suffix_append _ _
    · exact List.suffix_append _ _

/-- The risk of an evaluation whose id has the view of `first`. -/
theorem risk_shows_iff {modified : Oscal.Timestamp} {e first : DeficiencyEvaluationSchema}
    {v : DeficiencyView} {key : Str} {r : Oscal.DocumentRisk} (hv : ViewOf rt active first v)
    (hid : first.deficiencyId = e.deficiencyId) (hview : Oscal.deficiencyOf inp e = some v)
    (h : Oscal.documentRisk rt lib inp modified e key = .ok r) :
    (∃ c, OfRecord rt active e c ∧ RiskShows inp.markup e c r) ↔
      (classifyOn active e = none → draftOf e = draftOf first) := by
  have hmade := Oscal.documentRisk_made h
  have hprops : propValue r.props (lit "classification") = shownValue v.effective.classification ∧
      propValue r.props (lit "likelihood") = shownValue v.effective.likelihood ∧
      propValue r.props (lit "magnitude") = shownValue v.effective.magnitude := by
    rw [Oscal.propValue_risk (by decide) h, Oscal.propValue_risk (by decide) h,
      Oscal.propValue_risk (by decide) h, hview]
    exact Oscal.propValue_classification (some v) e
  rcases hprops with ⟨hclassification, hlikelihood, hmagnitude⟩
  constructor
  · rintro ⟨c, hc, hrisk⟩ hnone
    have heffective : v.effective = draftOf first :=
      hv.undecided ((classifyOn_congr hid).trans hnone)
    have hdraft : c = draftOf e := by
      rcases hc with hc | ⟨d, hd, -⟩
      · exact hc
      · rw [hnone] at hd
        cases hd
    rw [hdraft] at hrisk
    rw [heffective] at hclassification hlikelihood hmagnitude
    exact draftOf_eq_of_shown (hrisk.classification.symm.trans hclassification)
      (hrisk.likelihood.symm.trans hlikelihood) (hrisk.magnitude.symm.trans hmagnitude)
  · intro hdrafts
    refine ⟨v.effective, ?_, hmade.title, ⟨_, hmade.statement, (rationale_suffix _ e).isInfix⟩,
      hclassification, hlikelihood, hmagnitude⟩
    cases hd : classifyOn active e with
    | none =>
        left
        rw [hv.undecided ((classifyOn_congr hid).trans hd), hdrafts hd]
    | some d => exact .inr ⟨d, hd, hv.decided d ((classifyOn_congr hid).trans hd)⟩

theorem risks_kept_iff {ctx : Context} {view : EffectiveView} {p : Oscal.Parts}
    (hctx : ctx.evaluations = inp.report.deficiencyEvaluations)
    (h : deficiencyViews rt ctx active = .ok view.deficiencies) (hview : inp.view = some view)
    (hread : Oscal.PartsRead rt lib inp p) :
    List.Forall₂ (fun e risk => ∃ c, OfRecord rt active e c ∧ RiskShows inp.markup e c risk)
        inp.report.deficiencyEvaluations p.risks ↔
      ∀ e ∈ inp.report.deficiencyEvaluations, ∀ e' ∈ inp.report.deficiencyEvaluations,
        e.deficiencyId = e'.deficiencyId → classifyOn active e = none → draftOf e = draftOf e' := by
  have hfirst : ∀ e ∈ inp.report.deficiencyEvaluations,
      ∃ first ∈ Dict.firstBy (·.deficiencyId) inp.report.deficiencyEvaluations,
        first.deficiencyId = e.deficiencyId ∧ ∃ v, ViewOf rt active first v ∧
          Oscal.deficiencyOf inp e = some v := by
    intro e he
    rw [← hctx] at he
    rcases view_of_evaluation h he with ⟨first, hmem, hid, v, hv, hfind⟩
    rw [hctx] at hmem
    refine ⟨first, hmem, hid, v, hv, ?_⟩
    unfold Oscal.deficiencyOf
    rw [hview]
    exact hfind
  have hown : List.Forall₂ (fun e risk => ∃ c, OfRecord rt active e c ∧ RiskShows inp.markup e c risk)
      inp.report.deficiencyEvaluations p.risks ↔
      ∀ e ∈ inp.report.deficiencyEvaluations,
        ∀ first ∈ Dict.firstBy (·.deficiencyId) inp.report.deficiencyEvaluations,
          first.deficiencyId = e.deficiencyId → classifyOn active e = none →
            draftOf e = draftOf first := by
    apply Oscal.forall₂_iff_forall hread.risksOf
    rintro e he risk ⟨key, hrisk⟩
    rcases hfirst e he with ⟨first, hmem, hid, v, hv, hfound⟩
    rw [risk_shows_iff hv hid hfound hrisk]
    constructor
    · intro hdraft other hother hsame
      rw [Dict.firstBy_key_inj hother hmem (hsame.trans hid.symm)]
      exact hdraft
    · exact fun hall => hall first hmem hid
  rw [hown]
  constructor
  · intro hall e he e' he' hsame hnone
    rcases hfirst e he with ⟨first, hmem, hid, -⟩
    rw [hall e he first hmem hid hnone, hall e' he' first hmem (hid.trans hsame)
      ((classifyOn_congr hsame).symm.trans hnone)]
  · intro hall e he first hmem hid hnone
    exact hall e he first (Dict.mem_of_mem_firstBy hmem) hid.symm hnone

end

/-! ## A repeated id -/

namespace RecordSample

def minor (id : String) : DeficiencyEvaluationSchema :=
  { AuditSwarm.Sample.evaluation id .controlDeficiency with rationale := lit "Two accounts." }

def material (id : String) : DeficiencyEvaluationSchema :=
  { AuditSwarm.Sample.evaluation id .materialWeakness with
    title := lit "No backups", magnitude := .high, rationale := lit "No restore was possible." }

def reportOf (evaluations : List DeficiencyEvaluationSchema) : FinalReportSchema :=
  AuditSwarm.Sample.report (some .icfr) evaluations

/-- The artifacts of the audit that the report is about. -/
def context (report : FinalReportSchema) : Context :=
  ⟨some AuditSwarm.Sample.smallRacm, some AuditSwarm.Sample.smallPapers.val, some report⟩

/-- A reviewer finds the second deficiency less severe than the draft does. -/
def decisions (report : FinalReportSchema) : List ReviewDecision :=
  (buildDecision (.ascii Runtime.shortDigest) (context report)
    (AuditStatus.waitingHumanGate .reporting).value [[]] []
    (AuditSwarm.Sample.request "classify" "D2" "Cho"
      [(lit "classification", .str (lit "Control Deficiency"))])
    (lit "2026-01-01T00:00:00+00:00") [] (lit "u1")).toOption.toList

section Decisions

variable {report : FinalReportSchema} {decisions : List ReviewDecision}

def viewOf (report : FinalReportSchema) (decisions : List ReviewDecision) :
    Except Exn EffectiveView :=
  effectiveView (.ascii Runtime.shortDigest) (context report) decisions true

def audit (report : FinalReportSchema) (decisions : List ReviewDecision) : Oscal.Inputs :=
  { Oscal.Sample.inputs AuditSwarm.Sample.smallRacm AuditSwarm.Sample.smallPapers.val report with
    view := (viewOf report decisions).toOption }

def builds (report : FinalReportSchema) (decisions : List ReviewDecision) : Bool :=
  (viewOf report decisions).toBool && (Oscal.buildAssessmentResults (.ascii Runtime.shortDigest)
    Oscal.sampleLibrary (audit report decisions)).toBool

theorem exists_built (h : builds report decisions = true) :
    ∃ active view d,
      activeBySlot (.ascii Runtime.shortDigest) (context report) decisions = .ok active ∧
      viewOf report decisions = .ok view ∧ (audit report decisions).view = some view ∧
      Oscal.buildAssessmentResults (.ascii Runtime.shortDigest) Oscal.sampleLibrary
        (audit report decisions) = .ok d := by
  unfold builds at h
  rw [Bool.and_eq_true] at h
  rcases h with ⟨hview, hdocument⟩
  cases hv : viewOf report decisions with
  | error e =>
      rw [hv] at hview
      cases hview
  | ok view =>
      cases hd : Oscal.buildAssessmentResults (.ascii Runtime.shortDigest) Oscal.sampleLibrary
          (audit report decisions) with
      | error e =>
          rw [hd] at hdocument
          cases hdocument
      | ok d =>
          rcases effectiveView_eq_ok hv with ⟨states, active, hparts⟩
          refine ⟨active, view, d, hparts.active_eq, rfl, ?_, rfl⟩
          unfold audit
          rw [hv]
          rfl

end Decisions

/-- The only classification differs from the draft. -/
def overruled (report : FinalReportSchema) : Bool :=
  match activeBySlot (.ascii Runtime.shortDigest) (context report) (decisions report) with
  | .ok active => (classifyOn active (minor "D1")).isNone &&
      (classifyOn active (material "D2")).any fun d =>
        classificationOf (.ascii Runtime.shortDigest) d.values ≠ .ok (draftOf (material "D2"))
  | .error _ => false

theorem aligned_of_overruled {active : Dict SlotKey ReviewDecision}
    (hactive : activeBySlot (.ascii Runtime.shortDigest)
      (context (reportOf [minor "D1", material "D2"]))
      (decisions (reportOf [minor "D1", material "D2"])) = .ok active)
    (h : overruled (reportOf [minor "D1", material "D2"]) = true) :
    Aligned (.ascii Runtime.shortDigest) active [minor "D1", material "D2"] := by
  unfold overruled at h
  rw [hactive, Bool.and_eq_true, Option.isNone_iff_eq_none, Option.any_eq_true_iff_get] at h
  rcases h with ⟨hminor, hsome, hdiffers⟩
  constructor
  · right
    refine ⟨by decide, fun e he => ?_⟩
    rcases List.mem_cons.mp he with rfl | he
    · intro d hd _
      rw [hminor] at hd
      cases hd
    · rw [List.mem_singleton.mp he]
      intro d hd hsame
      simp only [hd, Option.get_some, ne_eq, decide_eq_true_eq] at hdiffers
      exact absurd hsame hdiffers
  · intro e he e' he' hid _
    rcases List.mem_cons.mp he with rfl | he
    · rcases List.mem_cons.mp he' with rfl | he'
      · rfl
      · rw [List.mem_singleton.mp he'] at hid
        exact absurd hid (by decide)
    · rw [List.mem_singleton.mp he] at hid ⊢
      rcases List.mem_cons.mp he' with rfl | he'
      · exact absurd hid (by decide)
      · rw [List.mem_singleton.mp he']

theorem classifyOn_eq_none {report : FinalReportSchema} {active : Dict SlotKey ReviewDecision}
    (h : activeBySlot (.ascii Runtime.shortDigest) (context report) [] = .ok active)
    (e : DeficiencyEvaluationSchema) : classifyOn active e = none := by
  unfold activeBySlot at h
  rcases Except.bind_eq_ok_iff.mp h with ⟨states, -, hactive⟩
  rw [← Except.ok.inj hactive]
  rfl

end RecordSample

/-- Every evaluation keeps its own row of the exported section and its own risk just when ids that
are repeated do no harm. -/
theorem deficiencies_kept_iff (rt : Runtime) (lib : OscalLibrary) (ctx : Context)
    (decisions : List ReviewDecision) (required : Bool) (active : Dict SlotKey ReviewDecision)
    (view : EffectiveView) (inp : Oscal.Inputs) (d : Oscal.Document)
    (hreport : ctx.report = some inp.report) (hactive : activeBySlot rt ctx decisions = .ok active)
    (hview : effectiveView rt ctx decisions required = .ok view) (hinp : inp.view = some view)
    (hbuilt : Oscal.buildAssessmentResults rt lib inp = .ok d) :
    (∃ rows result, tableRows inp.report view = some rows ∧ d.results = [result] ∧
      (inp.report.deficiencyEvaluations ≠ [] → ∀ cls status,
        ∃ above, deficiencySection rt cls inp.report status (some view) =
          some (above ++ tableHead ++ rows.map (Row.line cls) ++ [[]])) ∧
      RecordKept rt active inp.markup inp.report.deficiencyEvaluations rows result.risks) ↔
      Aligned rt active inp.report.deficiencyEvaluations := by
  rcases effectiveView_eq_ok hview with ⟨states, active', hparts⟩
  have hsame : active' = active := Except.ok.inj (hparts.active_eq.symm.trans hactive)
  have hviews := hparts.deficiencies_eq
  rw [hsame] at hviews
  have hctx : ctx.evaluations = inp.report.deficiencyEvaluations := by
    unfold Context.evaluations
    rw [hreport]
    rfl
  rcases Oscal.build_parts hbuilt with ⟨p, controls, hread, rfl⟩
  have htable := table_kept_iff hctx hviews
  have hrisks := risks_kept_iff hctx hviews hinp hread
  constructor
  · rintro ⟨rows, result, hrows, hresult, -, hkept⟩
    rw [← (List.cons.inj hresult).1] at hkept
    exact ⟨htable.mp ⟨rows, hrows, hkept.rows⟩, hrisks.mp hkept.risks⟩
  · intro haligned
    rcases htable.mpr haligned.table with ⟨rows, hrows, hall⟩
    refine ⟨rows, _, hrows, rfl, fun hsome cls status => ?_, hall, hrisks.mpr haligned.drafts⟩
    rcases deficiencySection_rows rt cls inp.report status view hsome with ⟨above, hlines⟩
    rw [hrows] at hlines
    exact ⟨above, hlines⟩

/-- Two deficiencies of which a reviewer classifies the second one differently. -/
theorem deficiencies_kept_distinct :
    let report := RecordSample.reportOf [RecordSample.minor "D1", RecordSample.material "D2"]
    ∃ active view d,
      activeBySlot (.ascii Runtime.shortDigest) (RecordSample.context report)
        (RecordSample.decisions report) = .ok active ∧
      Oscal.buildAssessmentResults (.ascii Runtime.shortDigest) Oscal.sampleLibrary
        (RecordSample.audit report (RecordSample.decisions report)) = .ok d ∧
      (classifyOn active (RecordSample.material "D2")).isSome = true ∧
      ∃ rows result, tableRows report view = some rows ∧ d.results = [result] ∧
        (report.deficiencyEvaluations ≠ [] → ∀ cls status,
          ∃ above, deficiencySection (.ascii Runtime.shortDigest) cls report status (some view) =
            some (above ++ tableHead ++ rows.map (Row.line cls) ++ [[]])) ∧
        RecordKept (.ascii Runtime.shortDigest) active id report.deficiencyEvaluations rows
          result.risks := by
  intro report
  have hbuilds : RecordSample.builds report (RecordSample.decisions report) = true ∧
      RecordSample.overruled report = true := by decide +kernel
  rcases RecordSample.exists_built hbuilds.1 with ⟨active, view, d, hactive, hview, hinp, hbuilt⟩
  have hsome : (classifyOn active (RecordSample.material "D2")).isSome = true := by
    have hoverruled := hbuilds.2
    unfold RecordSample.overruled at hoverruled
    rw [hactive, Bool.and_eq_true, Option.any_eq_true_iff_get] at hoverruled
    exact hoverruled.2.1
  refine ⟨active, view, d, hactive, hbuilt, hsome, ?_⟩
  exact (deficiencies_kept_iff _ _ _ (RecordSample.decisions report) true active view
    (RecordSample.audit report (RecordSample.decisions report)) d rfl hactive hview hinp
    hbuilt).mpr (RecordSample.aligned_of_overruled hactive hbuilds.2)

/-- A material weakness with the id of a control deficiency is shown with that one's classification,
though no decision was recorded. -/
theorem repeated_id_misclassified :
    ∃ active view d,
      (RecordSample.reportOf [RecordSample.minor "D1", RecordSample.material "D1"]).Valid ∧
      activeBySlot (.ascii Runtime.shortDigest)
        (RecordSample.context (RecordSample.reportOf [RecordSample.minor "D1",
          RecordSample.material "D1"])) [] = .ok active ∧
      RecordSample.viewOf (RecordSample.reportOf [RecordSample.minor "D1",
        RecordSample.material "D1"]) [] = .ok view ∧
      Oscal.buildAssessmentResults (.ascii Runtime.shortDigest) Oscal.sampleLibrary
        (RecordSample.audit (RecordSample.reportOf [RecordSample.minor "D1",
          RecordSample.material "D1"]) []) = .ok d ∧
      ¬ ∃ rows result,
        tableRows (RecordSample.reportOf [RecordSample.minor "D1", RecordSample.material "D1"])
          view = some rows ∧ d.results = [result] ∧
        RecordKept (.ascii Runtime.shortDigest) active id
          [RecordSample.minor "D1", RecordSample.material "D1"] rows result.risks := by
  have hbuilds : RecordSample.builds (RecordSample.reportOf [RecordSample.minor "D1",
      RecordSample.material "D1"]) [] = true := by decide +kernel
  rcases RecordSample.exists_built hbuilds with ⟨active, view, d, hactive, hview, hinp, hbuilt⟩
  refine ⟨active, view, d, by decide, hactive, hview, hbuilt, ?_⟩
  rintro ⟨rows, result, -, hresult, hkept⟩
  rcases effectiveView_eq_ok hview with ⟨states, active', hparts⟩
  have hviews := hparts.deficiencies_eq
  rw [Except.ok.inj (hparts.active_eq.symm.trans hactive)] at hviews
  rcases Oscal.build_parts hbuilt with ⟨p, controls, hread, hd⟩
  rw [hd] at hresult
  have hrisks := hkept.risks
  rw [← (List.cons.inj hresult).1] at hrisks
  have hdrafts := (risks_kept_iff rfl hviews hinp hread).mp hrisks
  have hsame := hdrafts _ List.mem_cons_self _ (List.mem_cons_of_mem _ List.mem_cons_self) rfl
    (RecordSample.classifyOn_eq_none hactive _)
  exact absurd hsame (by decide)

end Exports

end AuditSwarm
