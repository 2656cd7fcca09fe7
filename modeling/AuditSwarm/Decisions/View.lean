import AuditSwarm.Decisions.Slots

/-!
# What the effective view depends on

The view reads the active decisions of a few slots and nothing else of the decisions: a finding
its two slots, a deficiency its four, the engagement its one.
-/

namespace AuditSwarm

open Python StrEnum

namespace Decisions

variable {rt : Runtime} {ctx : Context} {decisions : List ReviewDecision}
  {active active' : Dict SlotKey ReviewDecision}

/-! ## Slots of a subject -/

def reviewSlot (controlId : Str) : SlotKey :=
  (findingReview, value DecisionSubjectType.finding, controlId)

def scopeSlot (controlId : Str) : SlotKey :=
  (value DecisionType.scopeLimitation, value DecisionSubjectType.finding, controlId)

def deficiencySlot (t : DecisionType) (deficiencyId : Str) : SlotKey :=
  (value t, value DecisionSubjectType.deficiency, deficiencyId)

def conclusionSlot : SlotKey :=
  (value DecisionType.engagementConclusion, value DecisionSubjectType.engagement,
    engagementSubjectId)

/-! ## Views of one subject -/

def FindingView.reviewed (v : FindingView) : FindingView := { v with scopeLimitation := none }

/-- A deficiency's view without what is recorded about it after the conclusion. -/
def DeficiencyView.concluded (v : DeficiencyView) : DeficiencyView :=
  { v with managementResponse := none, remediationVerification := none }

theorem findingView_congr {keys : Dict Str (Option Bool)} {f : AuditFindingSchema}
    (hreview : active.get? (reviewSlot f.controlId) = active'.get? (reviewSlot f.controlId))
    (hscope : active.get? (scopeSlot f.controlId) = active'.get? (scopeSlot f.controlId)) :
    findingView rt keys active f = findingView rt keys active' f := by
  unfold findingView
  dsimp only
  rw [show active.get? (findingReview, value DecisionSubjectType.finding, f.controlId) =
    active'.get? (findingReview, value DecisionSubjectType.finding, f.controlId) from hreview,
    show active.get? (value DecisionType.scopeLimitation, value DecisionSubjectType.finding,
      f.controlId) = active'.get? (value DecisionType.scopeLimitation,
        value DecisionSubjectType.finding, f.controlId) from hscope]

/-- Without its scope limitation, the view of a finding reads its review slot. -/
theorem findingView_reviewed_congr {keys : Dict Str (Option Bool)} {f : AuditFindingSchema}
    (hreview : active.get? (reviewSlot f.controlId) = active'.get? (reviewSlot f.controlId)) :
    (findingView rt keys active f).map FindingView.reviewed =
      (findingView rt keys active' f).map FindingView.reviewed := by
  unfold findingView
  dsimp only
  rw [show active.get? (findingReview, value DecisionSubjectType.finding, f.controlId) =
    active'.get? (findingReview, value DecisionSubjectType.finding, f.controlId) from hreview]
  cases effectiveConclusions rt f (active'.get?
    (findingReview, value DecisionSubjectType.finding, f.controlId)) with
  | error e => rfl
  | ok x => rfl

theorem deficiencyView_congr {e : DeficiencyEvaluationSchema}
    (hslots : ∀ t ∈ [DecisionType.classify, .writeup, .managementResponse,
      .remediationVerification],
      active.get? (deficiencySlot t e.deficiencyId) =
        active'.get? (deficiencySlot t e.deficiencyId)) :
    deficiencyView rt active e = deficiencyView rt active' e := by
  have hget : ∀ t ∈ [DecisionType.classify, .writeup, .managementResponse,
      .remediationVerification],
      active.get? (value t, value DecisionSubjectType.deficiency, e.deficiencyId) =
        active'.get? (value t, value DecisionSubjectType.deficiency, e.deficiencyId) := hslots
  unfold deficiencyView
  dsimp only
  simp only [hget .classify (by simp), hget .writeup (by simp), hget .managementResponse (by simp),
    hget .remediationVerification (by simp)]

/-- Without what is recorded after the conclusion, the view of a deficiency reads the slots of its
classification and its write-up. -/
theorem deficiencyView_concluded_congr {e : DeficiencyEvaluationSchema}
    (hclassify : active.get? (deficiencySlot .classify e.deficiencyId) =
      active'.get? (deficiencySlot .classify e.deficiencyId))
    (hwriteup : active.get? (deficiencySlot .writeup e.deficiencyId) =
      active'.get? (deficiencySlot .writeup e.deficiencyId)) :
    (deficiencyView rt active e).map DeficiencyView.concluded =
      (deficiencyView rt active' e).map DeficiencyView.concluded := by
  unfold deficiencyView
  dsimp only
  simp only [show active.get? (value DecisionType.classify, value DecisionSubjectType.deficiency,
      e.deficiencyId) = active'.get? (value DecisionType.classify,
        value DecisionSubjectType.deficiency, e.deficiencyId) from hclassify,
    show active.get? (value DecisionType.writeup, value DecisionSubjectType.deficiency,
      e.deficiencyId) = active'.get? (value DecisionType.writeup,
        value DecisionSubjectType.deficiency, e.deficiencyId) from hwriteup]
  refine Except.map_bind_congr fun draft => ?_
  exact Except.map_bind_congr fun effective => rfl

/-! ## Views of all subjects -/

theorem findingViews_congr {ctx' : Context} (hracm : ctx.racm = ctx'.racm)
    (hpapers : ctx.papers = ctx'.papers)
    (hreview : ∀ c, active.get? (reviewSlot c) = active'.get? (reviewSlot c))
    (hscope : ∀ c, active.get? (scopeSlot c) = active'.get? (scopeSlot c)) :
    findingViews rt ctx active = findingViews rt ctx' active' := by
  unfold findingViews Context.findings Context.keyControls Context.controls
  rw [hracm, hpapers]
  exact Except.mapM_congr fun _ _ => findingView_congr (hreview _) (hscope _)

theorem findingViews_reviewed_congr {ctx' : Context} (hracm : ctx.racm = ctx'.racm)
    (hpapers : ctx.papers = ctx'.papers)
    (hreview : ∀ c, active.get? (reviewSlot c) = active'.get? (reviewSlot c)) :
    (findingViews rt ctx active).map (List.map FindingView.reviewed) =
      (findingViews rt ctx' active').map (List.map FindingView.reviewed) := by
  unfold findingViews Context.findings Context.keyControls Context.controls
  rw [hracm, hpapers, Except.map_mapM, Except.map_mapM]
  exact Except.mapM_congr fun _ _ => findingView_reviewed_congr (hreview _)

theorem deficiencyViews_congr
    (hslots : ∀ t c, active.get? (deficiencySlot t c) = active'.get? (deficiencySlot t c)) :
    deficiencyViews rt ctx active = deficiencyViews rt ctx active' :=
  Except.mapM_congr fun _ _ => deficiencyView_congr fun t _ => hslots t _

theorem deficiencyViews_concluded_congr
    (hclassify : ∀ c, active.get? (deficiencySlot .classify c) =
      active'.get? (deficiencySlot .classify c))
    (hwriteup : ∀ c, active.get? (deficiencySlot .writeup c) =
      active'.get? (deficiencySlot .writeup c)) :
    (deficiencyViews rt ctx active).map (List.map DeficiencyView.concluded) =
      (deficiencyViews rt ctx active').map (List.map DeficiencyView.concluded) := by
  unfold deficiencyViews
  rw [Except.map_mapM, Except.map_mapM]
  exact Except.mapM_congr fun _ _ => deficiencyView_concluded_congr (hclassify _) (hwriteup _)

/-! ## The view as a whole -/

def rateOf (decided changed : Nat) : ReviewerChangeRate where
  subjectsDecided := decided
  subjectsChanged := changed
  rate := if decided = 0 then none else some ((changed : Rat) / decided)
  published := false

def changeRate (findings : List FindingView) (deficiencies : List DeficiencyView) :
    ReviewerChangeRate :=
  rateOf
    (findings.countP (·.review.isSome) + deficiencies.countP (·.classificationDecision.isSome))
    (findings.countP (·.reviewStatus = lit "challenged") +
      deficiencies.countP fun d => d.classificationDecision.isSome && d.differsFromDraft)

/-- What an effective view is made of. -/
structure ViewParts (rt : Runtime) (ctx : Context) (decisions : List ReviewDecision)
    (required : Bool) (v : EffectiveView) (states : Dict Str DecisionState)
    (active : Dict SlotKey ReviewDecision) : Prop where
  states_eq : decisionStates rt ctx decisions = .ok states
  active_eq : activeBySlot rt ctx decisions = .ok active
  required_eq : v.decisionsRequired = required
  scale_eq : v.deficiencyScale = (ctx.report.bind (·.deficiencyScale)).map value
  findings_eq : findingViews rt ctx active = .ok v.findings
  deficiencies_eq : deficiencyViews rt ctx active = .ok v.deficiencies
  conclusion_eq : v.engagementConclusion = (active.get? conclusionSlot).map DecisionRef.of
  missing_eq : v.missingForGate =
    missing ctx v.findings v.deficiencies v.engagementConclusion
  rate_eq : v.reviewerChangeRate = changeRate v.findings v.deficiencies
  stale_eq : v.staleDecisionIds = (states.filter (·.2 = .stale)).map (·.1)
  superseded_eq : v.supersededDecisionIds = (states.filter (·.2 = .superseded)).map (·.1)

theorem effectiveView_eq_ok {required : Bool} {v : EffectiveView}
    (h : effectiveView rt ctx decisions required = .ok v) :
    ∃ states active, ViewParts rt ctx decisions required v states active := by
  unfold effectiveView at h
  simp only [Except.bind_eq_ok_iff, Except.pure_eq_ok_iff] at h
  obtain ⟨states, hstates, active, hactive, findings, hfindings, deficiencies, hdeficiencies,
    rfl⟩ := h
  exact ⟨states, active, hstates, hactive, rfl, rfl, hfindings, hdeficiencies, rfl, rfl, rfl, rfl,
    rfl⟩

/-- Nothing but the states and the views of the subjects can fail. -/
theorem exists_effectiveView {states : Dict Str DecisionState} {findings : List FindingView}
    {deficiencies : List DeficiencyView} (hstates : decisionStates rt ctx decisions = .ok states)
    (hactive : activeBySlot rt ctx decisions = .ok active)
    (hfindings : findingViews rt ctx active = .ok findings)
    (hdeficiencies : deficiencyViews rt ctx active = .ok deficiencies) (required : Bool) :
    ∃ v, effectiveView rt ctx decisions required = .ok v ∧
      ViewParts rt ctx decisions required v states active := by
  have h : ∃ v, effectiveView rt ctx decisions required = .ok v := by
    unfold effectiveView
    rw [hstates, Except.ok_bind, hactive, Except.ok_bind, hfindings, Except.ok_bind,
      hdeficiencies, Except.ok_bind]
    exact ⟨_, rfl⟩
  obtain ⟨v, hv⟩ := h
  obtain ⟨states', active', hparts⟩ := effectiveView_eq_ok hv
  obtain rfl : states' = states := Except.ok.inj (hparts.states_eq.symm.trans hstates)
  obtain rfl : active' = active := Except.ok.inj (hparts.active_eq.symm.trans hactive)
  exact ⟨v, hv, hparts⟩

end Decisions

end AuditSwarm
