import AuditSwarm.Decisions.View

/-!
# What the gates check

Gate 2 asks for a review of the controls `Gate2Demands` picks, Gate 3 for a classification of every
deficiency, a scope limitation where a key control is not tested, and the engagement conclusion.
A control is judged by its first finding and its first RACM entry.
-/

namespace AuditSwarm

open Python StrEnum

namespace Decisions

variable {rt : Runtime} {ctx : Context} {decisions : List ReviewDecision} {d : ReviewDecision}
  {active : Dict SlotKey ReviewDecision}

/-! ## Key controls -/

theorem foldl_setDefault_get? (cs : List Control) (acc : Dict Str (Option Bool)) (i : Str) :
    (cs.foldl (fun out c => out.setDefault c.controlId c.keyControl) acc).get? i =
      (acc.get? i).or ((cs.find? fun c => c.controlId = i).map (·.keyControl)) := by
  induction cs generalizing acc with
  | nil => simp
  | cons c cs ih =>
      rw [List.foldl_cons, ih, Dict.get?_setDefault, List.find?_cons]
      by_cases hi : c.controlId = i
      · subst hi
        cases acc.get? c.controlId <;> simp
      · simp [hi]

/-- The first RACM entry of a control decides whether it is a key control. -/
theorem keyControls_get? (ctx : Context) (i : Str) :
    ctx.keyControls.get? i =
      (ctx.controls.find? fun c => c.controlId = i).map (·.keyControl) := by
  unfold Context.keyControls
  rw [foldl_setDefault_get?, Dict.get?_nil, Option.none_or]

/-- The first RACM entry of a control marks it as a key control. -/
def FirstEntryKey (ctx : Context) (controlId : Str) : Prop :=
  ∃ c, (ctx.controls.find? fun c => c.controlId = controlId) = some c ∧ c.keyControl = some true

def FirstFindingException (ctx : Context) (controlId : Str) : Prop :=
  ∃ f, ctx.finding controlId = some f ∧ f.result = some .exception

theorem keyControl_of_firstEntryKey {controlId : Str} (h : FirstEntryKey ctx controlId) :
    (ctx.keyControls.get? controlId).getD none = some true := by
  obtain ⟨c, hc, hkey⟩ := h
  rw [keyControls_get?, hc, Option.map_some, Option.getD_some, hkey]

/-! ## Views of findings -/

structure ViewedFinding (rt : Runtime) (keys : Dict Str (Option Bool))
    (active : Dict SlotKey ReviewDecision) (f : AuditFindingSchema) (v : FindingView) : Prop where
  controlId : v.controlId = f.controlId
  keyControl : v.keyControl = (keys.get? f.controlId).getD none
  draft : v.draft = draftConclusions f
  review : v.review = (active.get? (reviewSlot f.controlId)).map DecisionRef.of
  scope : v.scopeLimitation = (active.get? (scopeSlot f.controlId)).map DecisionRef.of
  effective : ∃ tod toe result,
    effectiveConclusions rt f (active.get? (reviewSlot f.controlId)) = .ok (tod, toe, result) ∧
      v.effective = ⟨tod, toe, result,
        f.preliminaryDeficiency.getD false && result = value FindingResult.exception⟩
  differs : v.differsFromDraft = decide (v.draft ≠ v.effective)
  required : v.reviewRequiredForGate2 = Policy.findingNeedsReview v.draft.result v.keyControl

theorem findingView_eq_ok {keys : Dict Str (Option Bool)} {f : AuditFindingSchema}
    {v : FindingView} (h : findingView rt keys active f = .ok v) :
    ViewedFinding rt keys active f v := by
  unfold findingView at h
  simp only [Except.bind_eq_ok_iff, Except.pure_eq_ok_iff] at h
  obtain ⟨⟨tod, toe, result⟩, hconclusions, rfl⟩ := h
  exact ⟨rfl, rfl, rfl, rfl, rfl, ⟨tod, toe, result, hconclusions, rfl⟩, rfl, rfl⟩

theorem find?_controlId {controlId : Str} {f : AuditFindingSchema}
    (h : ctx.finding controlId = some f) : f.controlId = controlId := by
  unfold Context.finding at h
  simpa using List.find?_some h

theorem exists_view_of_finding {findings : List FindingView}
    (h : findingViews rt ctx active = .ok findings) {controlId : Str} {f : AuditFindingSchema}
    (hf : ctx.finding controlId = some f) :
    ∃ v ∈ findings, ViewedFinding rt ctx.keyControls active f v := by
  have hid := find?_controlId hf
  have hmem : f ∈ Dict.firstBy (·.controlId) ctx.findings := by
    rw [Dict.mem_firstBy_iff, hid]
    exact hf
  obtain ⟨v, hv, hview⟩ := Except.exists_of_mapM_eq_ok h f hmem
  exact ⟨v, hv, findingView_eq_ok hview⟩

theorem exists_first_finding {f : AuditFindingSchema} (h : f ∈ ctx.findings) :
    ∃ first, ctx.finding f.controlId = some first := by
  unfold Context.finding
  cases hf : ctx.findings.find? fun g => g.controlId = f.controlId with
  | none => simpa using List.find?_eq_none.mp hf f h
  | some first => exact ⟨first, rfl⟩

/-! ## Gate 2 -/

/-- The controls Gate 2 asks a review of, among those with a finding. -/
def Gate2Demands (ctx : Context) (controlId : Str) : Prop :=
  FirstFindingException ctx controlId ∨ FirstEntryKey ctx controlId

/-- A list of what Gate 2 needs that is empty leaves no demanded finding without a review. -/
theorem review_of_missingReview {keys : Dict Str (Option Bool)} {f : AuditFindingSchema}
    {v : FindingView} (hview : ViewedFinding rt keys active f v) (h : missingReview v = none)
    (hneeds : f.result = some .exception ∨ (keys.get? f.controlId).getD none = some true) :
    ∃ d, active.get? (reviewSlot f.controlId) = some d := by
  have hrequired : v.reviewRequiredForGate2 = true := by
    rw [hview.required, hview.draft, hview.keyControl]
    rcases hneeds with hresult | hkey
    · unfold draftConclusions Policy.findingNeedsReview
      rw [hresult]
      rfl
    · unfold Policy.findingNeedsReview
      rw [hkey]
      simp [Policy.gate2ReviewKeyControls]
  unfold missingReview at h
  rw [hrequired, hview.review] at h
  cases hget : active.get? (reviewSlot f.controlId) with
  | none => simp [hget] at h
  | some d => exact ⟨d, rfl⟩

/-- Gate 2 lets nothing through while a demanded finding has no review. -/
theorem gate2_reviewed {required : Bool} {v : EffectiveView} {states : Dict Str DecisionState}
    (hparts : ViewParts rt ctx decisions required v states active) (hpapers : ctx.papers.isSome)
    (hnil : v.missingForGate.getD (lit "2") [] = []) {f : AuditFindingSchema}
    (hf : f ∈ ctx.findings) (hdemand : Gate2Demands ctx f.controlId) :
    ∃ d, active.get? (reviewSlot f.controlId) = some d := by
  obtain ⟨first, hfirst⟩ := exists_first_finding hf
  have hid := find?_controlId hfirst
  obtain ⟨fv, hfv, hview⟩ := exists_view_of_finding hparts.findings_eq hfirst
  rw [hparts.missing_eq] at hnil
  unfold missing at hnil
  rw [if_pos hpapers] at hnil
  have hmissing : v.findings.filterMap missingReview = [] := by
    simpa [Dict.getD, Dict.get?_cons] using hnil
  rw [← hid]
  refine review_of_missingReview hview (List.filterMap_eq_nil_iff.mp hmissing fv hfv) ?_
  rcases hdemand with ⟨f', hf', hresult⟩ | hkey
  · obtain rfl := Option.some.inj (hfirst.symm.trans hf')
    exact .inl hresult
  · exact .inr (hid ▸ keyControl_of_firstEntryKey hkey)

/-! ## Gate 3 -/

/-- What Gate 3 needs, when it needs nothing. -/
structure Gate3Clear (v : EffectiveView) : Prop where
  classified : ∀ d ∈ v.deficiencies, missingClassification d = none
  limited : ∀ f ∈ v.findings, missingScopeLimitation f = none
  concluded : missingConclusion v.engagementConclusion = none

theorem gate3Clear_of_nil {required : Bool} {v : EffectiveView} {states : Dict Str DecisionState}
    (hparts : ViewParts rt ctx decisions required v states active) (hreport : ctx.report.isSome)
    (hnil : v.missingForGate.getD (lit "3") [] = []) : Gate3Clear v := by
  rw [hparts.missing_eq] at hnil
  unfold missing at hnil
  rw [if_pos hreport] at hnil
  have hmissing : v.deficiencies.filterMap missingClassification ++
      v.findings.filterMap missingScopeLimitation ++
      (missingConclusion v.engagementConclusion).toList = [] := by
    cases hpapers : ctx.papers.isSome with
    | true =>
        rw [hpapers, if_pos rfl] at hnil
        have hne : lit "2" ≠ lit "3" := by decide
        simpa [Dict.getD, Dict.get?_cons, hne] using hnil
    | false =>
        rw [hpapers, if_neg Bool.false_ne_true] at hnil
        simpa [Dict.getD, Dict.get?_cons] using hnil
  rw [List.append_eq_nil_iff, List.append_eq_nil_iff] at hmissing
  obtain ⟨⟨hclassified, hlimited⟩, hconcluded⟩ := hmissing
  refine ⟨List.filterMap_eq_nil_iff.mp hclassified, List.filterMap_eq_nil_iff.mp hlimited, ?_⟩
  simpa using hconcluded

/-- A deficiency Gate 3 needs nothing about is classified by a reviewer. -/
theorem classified_of_clear {required : Bool} {v : EffectiveView}
    {states : Dict Str DecisionState}
    (hparts : ViewParts rt ctx decisions required v states active) (hclear : Gate3Clear v)
    {e : DeficiencyEvaluationSchema} (he : e ∈ ctx.evaluations) :
    ∃ d, active.get? (deficiencySlot .classify e.deficiencyId) = some d := by
  obtain ⟨first, hfirst, hid⟩ := (@Dict.exists_mem_firstBy _ _ _ (·.deficiencyId)) he
  obtain ⟨dv, hdv, hview⟩ := Except.exists_of_mapM_eq_ok hparts.deficiencies_eq first hfirst
  have hnone := hclear.classified dv hdv
  unfold deficiencyView at hview
  simp only [Except.bind_eq_ok_iff, Except.pure_eq_ok_iff] at hview
  obtain ⟨draft, -, effective, -, rfl⟩ := hview
  unfold missingClassification at hnone
  have hget : ∃ d, active.get? (value DecisionType.classify, value DecisionSubjectType.deficiency,
      first.deficiencyId) = some d := by
    rcases Option.eq_none_or_eq_some (active.get? (value DecisionType.classify,
      value DecisionSubjectType.deficiency, first.deficiencyId)) with hget | hget
    · simp [hget, Policy.gate3ClassifyEveryDeficiency] at hnone
    · exact hget
  rw [show first.deficiencyId = e.deficiencyId from hid] at hget
  exact hget

/-- A key control Gate 3 needs nothing about is tested, or reported as a scope limitation. -/
theorem tested_of_clear {required : Bool} {v : EffectiveView} {states : Dict Str DecisionState}
    (hparts : ViewParts rt ctx decisions required v states active) (hclear : Gate3Clear v)
    {controlId : Str} {f : AuditFindingSchema} (hf : ctx.finding controlId = some f)
    (hkey : FirstEntryKey ctx controlId) :
    (∃ fv ∈ v.findings, fv.controlId = controlId ∧
        fv.effective.result ≠ value FindingResult.notTested) ∨
      ∃ d, active.get? (scopeSlot controlId) = some d := by
  have hid := find?_controlId hf
  obtain ⟨fv, hfv, hview⟩ := exists_view_of_finding hparts.findings_eq hf
  have hnone := hclear.limited fv hfv
  by_cases hresult : fv.effective.result = value FindingResult.notTested
  · right
    have hlit : value FindingResult.notTested = lit "Not tested" := by decide
    unfold missingScopeLimitation Policy.findingNeedsScopeLimitation at hnone
    rw [hview.keyControl, hid, keyControl_of_firstEntryKey hkey, hresult, hview.scope, hid] at hnone
    cases hget : active.get? (scopeSlot controlId) with
    | none => simp [hget, hlit, Policy.gate3ScopeLimitationForUntestedKeyControls] at hnone
    | some d => exact ⟨d, rfl⟩
  · exact .inl ⟨fv, hfv, hview.controlId.trans hid, hresult⟩

theorem concluded_of_clear {required : Bool} {v : EffectiveView} {states : Dict Str DecisionState}
    (hparts : ViewParts rt ctx decisions required v states active) (hclear : Gate3Clear v) :
    ∃ d, active.get? conclusionSlot = some d := by
  have hnone := hclear.concluded
  rw [hparts.conclusion_eq] at hnone
  unfold missingConclusion at hnone
  cases hget : active.get? conclusionSlot with
  | none => simp [hget, Policy.gate3EngagementConclusion] at hnone
  | some d => exact ⟨d, rfl⟩

/-! ## Active decisions -/

def IsActive (rt : Runtime) (ctx : Context) (decisions : List ReviewDecision)
    (d : ReviewDecision) : Prop :=
  d ∈ decisions ∧ ∃ states, decisionStates rt ctx decisions = .ok states ∧
    states.get? d.decisionId = some .active

theorem isActive_of_get? (hactive : activeBySlot rt ctx decisions = .ok active) {key : SlotKey}
    (h : active.get? key = some d) : IsActive rt ctx decisions d ∧ slotKey d = key := by
  obtain ⟨-, states, -, hstates⟩ := exists_states hactive
  rw [activeBySlot_get? hstates hactive] at h
  have hmem := List.mem_of_getLast? h
  simp only [List.mem_filter, decide_eq_true_eq] at hmem
  obtain ⟨hd, hs, hkey⟩ := hmem
  exact ⟨⟨hd, states, hstates, hs⟩, hkey⟩

theorem IsActive.state (hlog : Consistent decisions) (h : IsActive rt ctx decisions d)
    {digests : Dict Str (Option Str)} (hdigests : ctx.digests rt = .ok digests) :
    stateOf digests decisions d = .active := by
  obtain ⟨hmem, states, hstates, hget⟩ := h
  rw [decisionStates_of_mem hdigests hstates (fun a ha => hlog.eq_of_id a ha d hmem) hmem] at hget
  exact Option.some.inj hget

theorem eq_of_slotOf {t t' : DecisionType} (h : slotOf t = value t') : t = t' := by
  revert h
  cases t <;> cases t' <;> decide

theorem of_slotKey {t : DecisionType} {s : DecisionSubjectType} {i : Str}
    (h : slotKey d = (value t, value s, i)) :
    d.decisionType = t ∧ d.subjectType = s ∧ d.subjectId = i :=
  ⟨eq_of_slotOf (Prod.mk.inj h).1, value_injective (Prod.mk.inj (Prod.mk.inj h).2).1,
    (Prod.mk.inj (Prod.mk.inj h).2).2⟩

theorem of_slotKey_review {i : Str} (h : slotKey d = reviewSlot i) :
    (d.decisionType = .signOff ∨ d.decisionType = .challenge) ∧ d.subjectType = .finding ∧
      d.subjectId = i := by
  refine ⟨?_, value_injective (Prod.mk.inj (Prod.mk.inj h).2).1, (Prod.mk.inj (Prod.mk.inj h).2).2⟩
  have hslot : slotOf d.decisionType = findingReview := (Prod.mk.inj h).1
  revert hslot
  cases d.decisionType <;> decide

end Decisions

end AuditSwarm
