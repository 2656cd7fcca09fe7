import AuditSwarm.Decisions.View

/-!
# Decisions up to the order of their values

The values of a decision are a dictionary, and the digest of a decision does not depend on the
order of its keys.  Sorting the keys gives one decision for each digest, and commutes with
everything the effective view reads.
-/

namespace AuditSwarm

open Python StrEnum

def ReviewDecision.sorted (d : ReviewDecision) : ReviewDecision :=
  { d with values := Dict.sortByKey d.values }

/-- Decisions are dumped to the same value exactly when they differ in the order of their values
only. -/
theorem ReviewDecision.same_toJson_iff {a b : ReviewDecision} :
    Json.Same a.toJson b.toJson ↔ a.sorted = b.sorted := by
  have hvalues : ∀ v w : Dict Str Str,
      Json.Same (.obj (v.mapValues .str)) (.obj (w.mapValues .str)) ↔
        Dict.sortByKey v = Dict.sortByKey w := by
    intro v w
    have hmembers : ∀ u : Dict Str Str, Json.sortMembers (u.mapValues .str) = u.mapValues .str := by
      intro u
      rw [Json.sortMembers_eq_mapValues]
      simp [Dict.mapValues, Json.sortKeys, Function.comp_def]
    have hinj : Function.Injective fun kv : Str × Str => (kv.1, Json.str kv.2) := by
      intro x y h
      simpa [Prod.ext_iff] using h
    simp only [Json.Same, Json.sortKeys, hmembers, Dict.sortByKey_mapValues, Json.obj.injEq]
    exact (List.map_injective_iff.mpr hinj).eq_iff
  rw [ReviewDecision.toJson, ReviewDecision.toJson, Json.same_obj_iff (by rfl) (by simp)]
  cases a; cases b
  simp [ReviewDecision.sorted, hvalues, faithful_dumpNat _ _]

namespace Decisions

variable {rt : Runtime} {ctx : Context} {decisions : List ReviewDecision}
  {active active' : Dict SlotKey ReviewDecision}

/-! ## Sorted records -/

def DecisionRef.sorted (r : DecisionRef) : DecisionRef := { r with values := Dict.sortByKey r.values }

def FindingView.sorted (v : FindingView) : FindingView :=
  { v with
    review := v.review.map DecisionRef.sorted
    scopeLimitation := v.scopeLimitation.map DecisionRef.sorted }

def DeficiencyView.sorted (v : DeficiencyView) : DeficiencyView :=
  { v with
    classificationDecision := v.classificationDecision.map DecisionRef.sorted
    writeup := v.writeup.map DecisionRef.sorted
    managementResponse := v.managementResponse.map DecisionRef.sorted
    remediationVerification := v.remediationVerification.map DecisionRef.sorted }

theorem ref_sorted (d : Option ReviewDecision) :
    (d.map ReviewDecision.sorted).map DecisionRef.of = (d.map DecisionRef.of).map DecisionRef.sorted := by
  cases d <;> rfl

/-! ## The view of sorted decisions -/

theorem reviewedConclusion_sorted (review : Option ReviewDecision) (field draft : Str) :
    reviewedConclusion (review.map ReviewDecision.sorted) field draft =
      reviewedConclusion review field draft := by
  cases review with
  | none => rfl
  | some d => simp [reviewedConclusion, ReviewDecision.sorted, Dict.getD]

theorem effectiveConclusions_sorted (f : AuditFindingSchema) (review : Option ReviewDecision) :
    effectiveConclusions rt f (review.map ReviewDecision.sorted) =
      effectiveConclusions rt f review := by
  unfold effectiveConclusions
  simp only [reviewedConclusion_sorted]

theorem findingView_sorted {keys : Dict Str (Option Bool)} {f : AuditFindingSchema}
    (h : ∀ key, active'.get? key = (active.get? key).map ReviewDecision.sorted) :
    findingView rt keys active' f = (findingView rt keys active f).map FindingView.sorted := by
  unfold findingView
  dsimp only
  rw [h, h, effectiveConclusions_sorted]
  cases effectiveConclusions rt f
      (active.get? (findingReview, value DecisionSubjectType.finding, f.controlId)) with
  | error e => rfl
  | ok x =>
      rw [ref_sorted, ref_sorted]
      cases active.get? (findingReview, value DecisionSubjectType.finding, f.controlId) with
      | none => rfl
      | some d => rfl

theorem classificationOf_sorted (values : Dict Str Str) :
    classificationOf rt (Dict.sortByKey values) = classificationOf rt values := by
  simp [classificationOf]

theorem deficiencyView_sorted {e : DeficiencyEvaluationSchema}
    (h : ∀ key, active'.get? key = (active.get? key).map ReviewDecision.sorted) :
    deficiencyView rt active' e = (deficiencyView rt active e).map DeficiencyView.sorted := by
  unfold deficiencyView
  dsimp only
  simp only [h, ref_sorted]
  cases classificationOf rt (draftClassification e) with
  | error err => rfl
  | ok draft =>
      simp only [Except.ok_bind]
      rcases Option.eq_none_or_eq_some (active.get? (value DecisionType.classify,
          value DecisionSubjectType.deficiency, e.deficiencyId)) with hclassify | ⟨d, hclassify⟩
      · simp only [hclassify, Option.map_none]
        cases classificationOf rt (draftClassification e) with
        | error err => rfl
        | ok effective => rfl
      · simp only [hclassify, Option.map_some, ReviewDecision.sorted, classificationOf_sorted]
        cases classificationOf rt d.values with
        | error err => rfl
        | ok effective => rfl

theorem findingViews_sorted
    (h : ∀ key, active'.get? key = (active.get? key).map ReviewDecision.sorted) :
    findingViews rt ctx active' = (findingViews rt ctx active).map (List.map FindingView.sorted) := by
  unfold findingViews
  rw [Except.map_mapM]
  exact Except.mapM_congr fun _ _ => findingView_sorted h

theorem deficiencyViews_sorted
    (h : ∀ key, active'.get? key = (active.get? key).map ReviewDecision.sorted) :
    deficiencyViews rt ctx active' =
      (deficiencyViews rt ctx active).map (List.map DeficiencyView.sorted) := by
  unfold deficiencyViews
  rw [Except.map_mapM]
  exact Except.mapM_congr fun _ _ => deficiencyView_sorted h

/-! ## The states of sorted decisions -/

theorem stateOf_sorted (digests : Dict Str (Option Str)) (d : ReviewDecision) :
    stateOf digests (decisions.map ReviewDecision.sorted) d.sorted = stateOf digests decisions d := by
  have hids : supersededIds (decisions.map ReviewDecision.sorted) = supersededIds decisions := by
    unfold supersededIds
    rw [List.filterMap_map]
    rfl
  unfold stateOf
  rw [hids]
  rfl

theorem decisionStates_sorted :
    decisionStates rt ctx (decisions.map ReviewDecision.sorted) = decisionStates rt ctx decisions := by
  unfold decisionStates
  simp only [List.foldl_map, stateOf_sorted]
  rfl

theorem activeBySlot_sorted (hactive : activeBySlot rt ctx decisions = .ok active)
    (hactive' : activeBySlot rt ctx (decisions.map ReviewDecision.sorted) = .ok active')
    (key : SlotKey) : active'.get? key = (active.get? key).map ReviewDecision.sorted := by
  obtain ⟨-, states, -, hstates⟩ := exists_states hactive
  have hstates' := ((@decisionStates_sorted _ _ decisions)).trans hstates
  rw [activeBySlot_get? hstates hactive, activeBySlot_get? hstates' hactive', List.filter_map,
    List.getLast?_map]
  rfl

/-! ## Lists with the same decisions -/

theorem DecisionLog.sorted (h : DecisionLog decisions) :
    DecisionLog (decisions.map ReviewDecision.sorted) where
  wellFormed := h.wellFormed.map (fun _ => rfl) (fun _ => rfl) (fun _ => rfl) fun _ => rfl
  subjectType := by
    intro d hd
    obtain ⟨a, ha, rfl⟩ := List.mem_map.mp hd
    exact h.subjectType a ha
  artifact := by
    intro d hd
    obtain ⟨a, ha, rfl⟩ := List.mem_map.mp hd
    exact h.artifact a ha
  phase := by
    intro d hd
    obtain ⟨a, ha, rfl⟩ := List.mem_map.mp hd
    exact h.phase a ha

section
variable {decisions' : List ReviewDecision} {d : ReviewDecision}

theorem stateOf_congr (hmem : ∀ d, d ∈ decisions' ↔ d ∈ decisions)
    (digests : Dict Str (Option Str)) (d : ReviewDecision) :
    stateOf digests decisions' d = stateOf digests decisions d := by
  have hids : d.decisionId ∈ supersededIds decisions' ↔ d.decisionId ∈ supersededIds decisions := by
    rw [mem_supersededIds, mem_supersededIds]
    simp only [SupersessionScheme.Superseded, hmem]
  unfold stateOf
  simp only [hids]

/-- In consistent lists with the same decisions, slots have the same active decisions. -/
theorem Consistent.active_congr (h : Consistent decisions)
    (hmem : ∀ d, d ∈ decisions' ↔ d ∈ decisions)
    (hactive : activeBySlot rt ctx decisions = .ok active)
    (hactive' : activeBySlot rt ctx decisions' = .ok active') (key : SlotKey) :
    active'.get? key = active.get? key := by
  obtain ⟨digests, -, hdigests, -⟩ := exists_states hactive
  refine Option.ext ?_
  intro d
  rw [(h.congr hmem).active_iff hdigests hactive', h.active_iff hdigests hactive, hmem,
    stateOf_congr hmem]

/-- In consistent lists with the same decisions, ids have the same states. -/
theorem Consistent.states_congr (h : Consistent decisions)
    (hmem : ∀ d, d ∈ decisions' ↔ d ∈ decisions) {states states' : Dict Str DecisionState}
    {digests : Dict Str (Option Str)} (hdigests : ctx.digests rt = .ok digests)
    (hstates : decisionStates rt ctx decisions = .ok states)
    (hstates' : decisionStates rt ctx decisions' = .ok states') (i : Str) :
    states'.get? i = states.get? i := by
  refine Option.ext ?_
  intro s
  rw [decisionStates_eq_some_iff hdigests hstates' (h.congr hmem).eq_of_id,
    decisionStates_eq_some_iff hdigests hstates h.eq_of_id]
  simp only [hmem, stateOf_congr hmem]

end

/-! ## Views that are the same -/

/-- Views that differ in the order of the values of decisions and of the lists of stale and
superseded ids only. -/
structure SameView (v w : EffectiveView) : Prop where
  decisionsRequired : v.decisionsRequired = w.decisionsRequired
  deficiencyScale : v.deficiencyScale = w.deficiencyScale
  findings : v.findings.map FindingView.sorted = w.findings.map FindingView.sorted
  deficiencies : v.deficiencies.map DeficiencyView.sorted = w.deficiencies.map DeficiencyView.sorted
  engagementConclusion : v.engagementConclusion.map DecisionRef.sorted =
    w.engagementConclusion.map DecisionRef.sorted
  missingForGate : v.missingForGate = w.missingForGate
  reviewerChangeRate : v.reviewerChangeRate = w.reviewerChangeRate
  staleDecisionIds : ∀ i, i ∈ v.staleDecisionIds ↔ i ∈ w.staleDecisionIds
  supersededDecisionIds : ∀ i, i ∈ v.supersededDecisionIds ↔ i ∈ w.supersededDecisionIds

def SameOutcome (x y : Except Exn EffectiveView) : Prop :=
  match x, y with
  | .ok v, .ok w => SameView v w
  | .error e, .error e' => e = e'
  | _, _ => False

theorem changeRate_sorted (findings : List FindingView) (deficiencies : List DeficiencyView) :
    changeRate (findings.map FindingView.sorted) (deficiencies.map DeficiencyView.sorted) =
      changeRate findings deficiencies := by
  unfold changeRate
  simp only [List.countP_map, Function.comp_def, FindingView.sorted, DeficiencyView.sorted,
    Option.isSome_map]
  rfl

theorem missingReview_sorted (f : FindingView) : missingReview f.sorted = missingReview f := by
  have h : f.sorted.review.isNone = f.review.isNone := Option.isNone_map
  unfold missingReview
  simp only [h]
  rfl

theorem missingScopeLimitation_sorted (f : FindingView) :
    missingScopeLimitation f.sorted = missingScopeLimitation f := by
  have h : f.sorted.scopeLimitation.isNone = f.scopeLimitation.isNone := Option.isNone_map
  unfold missingScopeLimitation
  simp only [h]
  rfl

theorem missingClassification_sorted (d : DeficiencyView) :
    missingClassification d.sorted = missingClassification d := by
  have h : d.sorted.classificationDecision.isNone = d.classificationDecision.isNone :=
    Option.isNone_map
  unfold missingClassification
  simp only [h]
  rfl

theorem missingConclusion_sorted (conclusion : Option DecisionRef) :
    missingConclusion (conclusion.map DecisionRef.sorted) = missingConclusion conclusion := by
  unfold missingConclusion
  rw [Option.isNone_map]

/-- What a gate still needs does not depend on the order of values. -/
theorem missing_sorted (findings : List FindingView) (deficiencies : List DeficiencyView)
    (conclusion : Option DecisionRef) :
    missing ctx (findings.map FindingView.sorted) (deficiencies.map DeficiencyView.sorted)
        (conclusion.map DecisionRef.sorted) =
      missing ctx findings deficiencies conclusion := by
  unfold missing
  simp only [List.filterMap_map, Function.comp_def, missingReview_sorted,
    missingScopeLimitation_sorted, missingClassification_sorted, missingConclusion_sorted]

/-- The ids with a state, of two dictionaries with the same lookups. -/
theorem mem_ids_congr {states states' : Dict Str DecisionState} (h : (states.map Prod.fst).Nodup)
    (h' : (states'.map Prod.fst).Nodup) (hget : ∀ i, states'.get? i = states.get? i)
    (s : DecisionState) (i : Str) :
    i ∈ (states'.filter (·.2 = s)).map (·.1) ↔ i ∈ (states.filter (·.2 = s)).map (·.1) := by
  have hmem : ∀ kv : Str × DecisionState, kv ∈ states' ↔ kv ∈ states := by
    rintro ⟨k, v⟩
    rw [Dict.mem_iff_get? h', Dict.mem_iff_get? h, hget]
  simp only [List.mem_map, List.mem_filter, hmem]

section
variable {stored : List ReviewDecision} {states states' : Dict Str DecisionState}
  {v w : EffectiveView} {required : Bool}

/-- Views of slots with the same active decisions, up to the order of values. -/
theorem ViewParts.sameView (hv : ViewParts rt ctx stored required v states' active')
    (hw : ViewParts rt ctx decisions required w states active)
    (hfindings : v.findings.map FindingView.sorted = w.findings.map FindingView.sorted)
    (hdeficiencies : v.deficiencies.map DeficiencyView.sorted =
      w.deficiencies.map DeficiencyView.sorted)
    (hactive : ∀ key, (active'.get? key).map ReviewDecision.sorted =
      (active.get? key).map ReviewDecision.sorted)
    (hstates : ∀ i, states'.get? i = states.get? i) : SameView v w := by
  have hconclusion : v.engagementConclusion.map DecisionRef.sorted =
      w.engagementConclusion.map DecisionRef.sorted := by
    rw [hv.conclusion_eq, hw.conclusion_eq, ← ref_sorted, ← ref_sorted, hactive]
  exact
    { decisionsRequired := hv.required_eq.trans hw.required_eq.symm
      deficiencyScale := hv.scale_eq.trans hw.scale_eq.symm
      findings := hfindings
      deficiencies := hdeficiencies
      engagementConclusion := hconclusion
      missingForGate := by
        rw [hv.missing_eq, hw.missing_eq, ← missing_sorted, ← missing_sorted w.findings,
          hfindings, hdeficiencies, hconclusion]
      reviewerChangeRate := by
        rw [hv.rate_eq, hw.rate_eq, ← changeRate_sorted, ← changeRate_sorted w.findings,
          hfindings, hdeficiencies]
      staleDecisionIds := by
        rw [hv.stale_eq, hw.stale_eq]
        exact mem_ids_congr (nodup_states hw.states_eq) (nodup_states hv.states_eq) hstates _
      supersededDecisionIds := by
        rw [hv.superseded_eq, hw.superseded_eq]
        exact mem_ids_congr (nodup_states hw.states_eq) (nodup_states hv.states_eq) hstates _ }

/-- A list with the decisions of a log, in any order, any number of times and with their values in
any order, gives the view of the log. -/
theorem sameOutcome_of_members (hlog : DecisionLog decisions)
    (hmem : ∀ d, d ∈ stored.map ReviewDecision.sorted ↔ d ∈ decisions.map ReviewDecision.sorted)
    (ctx : Context) (required : Bool) :
    SameOutcome (effectiveView rt ctx stored required)
      (effectiveView rt ctx decisions required) := by
  cases hdigests : ctx.digests rt with
  | error e => simp [SameOutcome, effectiveView, decisionStates, hdigests]
  | ok digests =>
      obtain ⟨states, active, hstates, hactive⟩ := exists_active hdigests decisions
      obtain ⟨states', active', hstates', hactive'⟩ := exists_active hdigests stored
      obtain ⟨ss, as, hss, has⟩ := exists_active hdigests (decisions.map ReviewDecision.sorted)
      obtain ⟨ss', as', hss', has'⟩ := exists_active hdigests (stored.map ReviewDecision.sorted)
      have hcons := hlog.sorted.consistent
      have hslots : ∀ key, as'.get? key = as.get? key := hcons.active_congr hmem has has'
      have hsorted := activeBySlot_sorted hactive has
      have hsorted' := activeBySlot_sorted hactive' has'
      have hids : ∀ i, states'.get? i = states.get? i := by
        intro i
        have hsame := hcons.states_congr hmem hdigests hss hss' i
        rw [decisionStates_sorted] at hss hss'
        obtain rfl := Except.ok.inj (hss.symm.trans hstates)
        obtain rfl := Except.ok.inj (hss'.symm.trans hstates')
        exact hsame
      have hfindings : (findingViews rt ctx active').map (List.map FindingView.sorted) =
          (findingViews rt ctx active).map (List.map FindingView.sorted) := by
        rw [← findingViews_sorted hsorted, ← findingViews_sorted hsorted']
        exact findingViews_congr rfl rfl (fun _ => hslots _) fun _ => hslots _
      have hdeficiencies : (deficiencyViews rt ctx active').map (List.map DeficiencyView.sorted) =
          (deficiencyViews rt ctx active).map (List.map DeficiencyView.sorted) := by
        rw [← deficiencyViews_sorted hsorted, ← deficiencyViews_sorted hsorted']
        exact deficiencyViews_congr fun _ _ => hslots _
      cases hf : findingViews rt ctx active with
      | error e =>
          rw [hf] at hfindings
          have hf' := Except.map_eq_error_iff.mp hfindings
          simp [SameOutcome, effectiveView, hstates, hstates', hactive, hactive', hf, hf']
      | ok findings =>
          rw [hf] at hfindings
          obtain ⟨findings', hf', hsame⟩ := Except.map_eq_ok_iff.mp hfindings
          cases hd : deficiencyViews rt ctx active with
          | error e =>
              rw [hd] at hdeficiencies
              have hd' := Except.map_eq_error_iff.mp hdeficiencies
              simp [SameOutcome, effectiveView, hstates, hstates', hactive, hactive', hf, hf', hd,
                hd']
          | ok deficiencies =>
              rw [hd] at hdeficiencies
              obtain ⟨deficiencies', hd', hsame'⟩ := Except.map_eq_ok_iff.mp hdeficiencies
              obtain ⟨w, hw, hwparts⟩ := exists_effectiveView hstates hactive hf hd required
              obtain ⟨v, hv, hvparts⟩ := exists_effectiveView hstates' hactive' hf' hd' required
              rw [hv, hw]
              refine hvparts.sameView hwparts ?_ ?_ ?_ hids
              · rw [Except.ok.inj (hvparts.findings_eq.symm.trans hf'),
                  Except.ok.inj (hwparts.findings_eq.symm.trans hf), hsame]
              · rw [Except.ok.inj (hvparts.deficiencies_eq.symm.trans hd'),
                  Except.ok.inj (hwparts.deficiencies_eq.symm.trans hd), hsame']
              · intro key
                rw [← hsorted, ← hsorted', hslots]

end

end Decisions

end AuditSwarm
