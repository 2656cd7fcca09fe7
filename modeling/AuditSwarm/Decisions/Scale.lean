import AuditSwarm.Decisions.View

/-!
# Deficiency scales

A classification is on the ICFR scale, on the risk-rating scale, or ("Not a deficiency") on both.
A set of classifications lies on one scale exactly when any two of them do.
-/

namespace AuditSwarm

open Python StrEnum

namespace Decisions

variable {rt : Runtime} {ctx : Context} {decisions : List ReviewDecision} {d : ReviewDecision}

/-! ## Scales -/

def ShareScale (c c' : DeficiencyClassification) : Prop :=
  ∃ s, c ∈ scaleClassifications s ∧ c' ∈ scaleClassifications s

theorem exists_scale (c : DeficiencyClassification) : ∃ s, c ∈ scaleClassifications s := by
  cases c with
  | controlDeficiency => exact ⟨.icfr, by decide⟩
  | significantDeficiency => exact ⟨.icfr, by decide⟩
  | materialWeakness => exact ⟨.icfr, by decide⟩
  | low => exact ⟨.riskRating, by decide⟩
  | medium => exact ⟨.riskRating, by decide⟩
  | high => exact ⟨.riskRating, by decide⟩
  | notADeficiency => exact ⟨.icfr, by decide⟩

theorem ShareScale.refl (c : DeficiencyClassification) : ShareScale c c := by
  obtain ⟨s, hs⟩ := exists_scale c
  exact ⟨s, hs, hs⟩

theorem ShareScale.symm {c c' : DeficiencyClassification} (h : ShareScale c c') :
    ShareScale c' c := by
  obtain ⟨s, hc, hc'⟩ := h
  exact ⟨s, hc', hc⟩

theorem notADeficiency_mem (s : DeficiencyScale) :
    DeficiencyClassification.notADeficiency ∈ scaleClassifications s := by
  cases s <;> decide

theorem exists_common_scale {p : DeficiencyClassification → Prop}
    (h : ∀ c, p c → ∀ c', p c' → ShareScale c c') :
    ∃ s, ∀ c, p c → c ∈ scaleClassifications s := by
  by_cases hall : ∀ c, p c → c ∈ scaleClassifications .icfr
  · exact ⟨.icfr, hall⟩
  · obtain ⟨c, hc⟩ := not_forall.mp hall
    obtain ⟨hpc, hnot⟩ := Classical.not_imp.mp hc
    refine ⟨.riskRating, ?_⟩
    intro c' hpc'
    obtain ⟨s, hs, hs'⟩ := h c hpc c' hpc'
    cases s with
    | icfr => exact absurd hs hnot
    | riskRating => exact hs'

/-! ## Drafts -/

theorem onScale_of_valid {report : FinalReportSchema} (h : report.Valid) {s : DeficiencyScale}
    (hs : report.deficiencyScale = some s) :
    ∀ e ∈ report.deficiencyEvaluations, e.classification ∈ scaleClassifications s := by
  have hcheck := h.2
  rw [hs] at hcheck
  unfold checkScale at hcheck
  dsimp only at hcheck
  split at hcheck
  · rename_i hall
    simpa using hall
  · cases hcheck

/-- A valid report without a scale classifies nothing as a deficiency. -/
theorem notADeficiency_of_valid {report : FinalReportSchema} (h : report.Valid)
    (hs : report.deficiencyScale = none) :
    ∀ e ∈ report.deficiencyEvaluations, e.classification = .notADeficiency := by
  have hcheck := h.2
  rw [hs] at hcheck
  unfold checkScale at hcheck
  simp only [List.filter_cons, List.filter_nil] at hcheck
  intro e he
  cases hicfr : report.deficiencyEvaluations.all
      fun e => (scaleClassifications .icfr).contains e.classification with
  | false =>
      cases hrisk : report.deficiencyEvaluations.all
          fun e => (scaleClassifications .riskRating).contains e.classification with
      | false => simp only [hicfr, hrisk] at hcheck; cases hcheck
      | true => simp only [hicfr, hrisk] at hcheck; cases hcheck
  | true =>
      cases hrisk : report.deficiencyEvaluations.all
          fun e => (scaleClassifications .riskRating).contains e.classification with
      | false => simp only [hicfr, hrisk] at hcheck; cases hcheck
      | true =>
          have h1 := List.all_eq_true.mp hicfr e he
          have h2 := List.all_eq_true.mp hrisk e he
          revert h1 h2
          cases e.classification <;> decide

/-! ## Recorded classifications -/

/-- What a recorded classification has been checked for. -/
structure Classified (rt : Runtime) (ctx : Context) (req : Request) (d : ReviewDecision)
    (report : FinalReportSchema) (c : DeficiencyClassification) (l m : RiskRating) : Prop where
  report_eq : ctx.report = some report
  subjectId : d.subjectId = strip req.subjectId
  asked : ∃ l' m', parseFields rt (req.values.getD []) .classify = some (.classify c l' m')
  values : d.values = [(lit "classification", value c), (lit "likelihood", value l),
    (lit "magnitude", value m)]
  onScale : ∀ s, report.deficiencyScale = some s → c ∈ scaleClassifications s
  supported : DeficiencyEvaluationSchema.unsupportedMaterialWeakness c l m = false

theorem mem_of_offScale {s : DeficiencyScale} {c : DeficiencyClassification}
    (h : offScale (some s) c = none) : c ∈ scaleClassifications s := by
  unfold offScale at h
  dsimp only at h
  split at h
  · rename_i hmem
    simpa using hmem
  · cases h

theorem modelValidate_eq_ok {dtype : DecisionType} {values : Dict Str Json}
    {parsed : DecisionValues} (h : modelValidate rt dtype values = .ok parsed) :
    parseFields rt values dtype = some parsed := by
  unfold modelValidate at h
  dsimp only at h
  split at h
  · rename_i hparsed
    rw [hparsed, Except.ok.inj h]
  · cases h

theorem parseFields_classify {values : Dict Str Json} {parsed : DecisionValues}
    (h : parseFields rt values .classify = some parsed) :
    ∃ c l m, parsed = .classify c l m := by
  unfold parseFields at h
  simp only [Option.bind_eq_bind, Option.bind_eq_some_iff] at h
  obtain ⟨c, -, l, -, m, -, hparsed⟩ := h
  exact ⟨c, l, m, (Option.some.inj hparsed).symm⟩

/-- A decision that classifies has been checked against the report's scale. -/
theorem buildDecision_classified {status : Str} {preparers : List Str} {req : Request}
    {now clock uuid : Str}
    (h : buildDecision rt ctx status preparers decisions req now clock uuid = .ok d)
    (hclassify : d.decisionType = .classify) :
    ∃ report c l m, Classified rt ctx req d report c l m := by
  unfold buildDecision at h
  simp only [Except.bind_eq_ok_iff, Except.orRaise_eq_ok_iff, Except.ensure_eq_ok_iff,
    Except.raiseSome_eq_ok_iff, Except.pure_eq_ok_iff, Option.map_eq_none_iff] at h
  obtain ⟨dtype, -, _, -, source, -, _, -, _, -, _, -, subjectId, hsubject, artifact,
    -, parsed, hparsed, active, -, stored, hstored, _, -, _, -, digest, -, rfl⟩ := h
  obtain rfl : dtype = .classify := hclassify
  have hasked := modelValidate_eq_ok hparsed
  obtain ⟨c, l, m, rfl⟩ := parseFields_classify hasked
  have hid : subjectId = strip req.subjectId := by
    unfold checkSubjectId at hsubject
    simp only [Except.bind_eq_ok_iff, Except.ensure_eq_ok_iff, Except.pure_eq_ok_iff] at hsubject
    obtain ⟨_, -, _, -, hid⟩ := hsubject
    exact hid.symm
  unfold storedValues at hstored
  simp only [subjectForType] at hstored
  split at hstored
  · rename_i evaluation report _ hreport
    unfold classifyValues at hstored
    simp only [Except.bind_eq_ok_iff, Except.ensure_eq_ok_iff, Except.raiseSome_eq_ok_iff,
      Except.pure_eq_ok_iff] at hstored
    obtain ⟨_, ⟨_, hscale, _, hsupported, rfl⟩, _, -, rfl⟩ := hstored
    refine ⟨report, c, _, _, ⟨hreport, hid, ⟨l, m, hasked⟩, rfl, ?_, ?_⟩⟩
    · intro s hs
      rw [hs] at hscale
      exact mem_of_offScale hscale
    · simpa using hsupported
  · cases hstored

/-! ## The classifications that stand -/

/-- A classification made on a report. -/
structure ClassifiedOn (rt : Runtime) (d : ReviewDecision) (report : FinalReportSchema)
    (c : DeficiencyClassification) (l m : RiskRating) : Prop where
  digest : Trail.artifactDigest rt report.toJson = .ok d.draftDigest
  values : d.values = [(lit "classification", value c), (lit "likelihood", value l),
    (lit "magnitude", value m)]
  onScale : ∀ s, report.deficiencyScale = some s → c ∈ scaleClassifications s
  supported : DeficiencyEvaluationSchema.unsupportedMaterialWeakness c l m = false

/-- The classifications that stand on a report without a scale share one two by two. -/
structure ScaleKept (rt : Runtime) (decisions : List ReviewDecision) : Prop where
  classified : ∀ d ∈ decisions, d.decisionType = .classify →
    ∃ report c l m, ClassifiedOn rt d report c l m
  shared : ∀ a b, decisionScheme.Standing decisions a → decisionScheme.Standing decisions b →
    ∀ report c l m c' l' m', ClassifiedOn rt a report c l m → ClassifiedOn rt b report c' l' m' →
      a.decisionType = .classify → b.decisionType = .classify →
      report.deficiencyScale = none → ShareScale c c'

/-- A classification asked for while the report has no scale shares one with every classification
that is active on another deficiency. -/
def FitsOthers (rt : Runtime) (ctx : Context) (decisions : List ReviewDecision) (req : Request) :
    Prop :=
  ∀ report, ctx.report = some report → report.deficiencyScale = none →
    ∀ c l m, parseFields rt (req.values.getD []) .classify = some (.classify c l m) →
    ∀ active, activeBySlot rt ctx decisions = .ok active →
    ∀ i, i ≠ strip req.subjectId → ∀ a c',
      active.get? (deficiencySlot .classify i) = some a →
      a.values.get? (lit "classification") = some (value c') → ShareScale c c'

theorem scaleKept_nil : ScaleKept rt [] where
  classified := by simp
  shared := by
    intro a b ha
    exact absurd ha.mem (by simp)

@[simp] theorem ClassifiedOn.classification {report : FinalReportSchema}
    {c : DeficiencyClassification} {l m : RiskRating} (h : ClassifiedOn rt d report c l m) :
    d.values.get? (lit "classification") = some (value c) := by
  rw [h.values, Dict.get?_cons, if_pos rfl]

theorem ClassifiedOn.report_unique (hcf : rt.CollisionFree) {report report' : FinalReportSchema}
    {c : DeficiencyClassification} {l m : RiskRating} (h : ClassifiedOn rt d report c l m)
    (hdigest : Trail.artifactDigest rt report'.toJson = .ok d.draftDigest) : report = report' :=
  (FinalReportSchema.faithful_toJson report report').mp
    (Trail.same_of_artifactDigest hcf h.digest hdigest)

/-- A classification that stands on the current report is the active one of its deficiency. -/
theorem active_of_standing (hlog : DecisionLog decisions) {report : FinalReportSchema}
    {active : Dict SlotKey ReviewDecision} (hactive : activeBySlot rt ctx decisions = .ok active)
    (hreport : ctx.report = some report)
    (hdigest : Trail.artifactDigest rt report.toJson = .ok d.draftDigest)
    (hd : decisionScheme.Standing decisions d) (htype : d.decisionType = .classify) :
    active.get? (deficiencySlot .classify d.subjectId) = some d := by
  obtain ⟨digests, -, hdigests, -⟩ := exists_states hactive
  have hsubject : d.subjectType = .deficiency := by
    rw [hlog.subjectType d hd.mem, htype]
    rfl
  refine (hlog.consistent.active_iff hdigests hactive).mpr ⟨hd.mem, ?_, ?_⟩
  · refine stateOf_eq_active_iff.mpr ⟨hd.not_superseded, ?_⟩
    rw [hlog.artifact d hd.mem, hsubject]
    refine digests_get? hdigests ?_ hdigest
    rw [artifact_deficiency, hreport, Option.map_some]
  · unfold slotKey deficiencySlot
    rw [htype, hsubject]
    rfl

theorem Classified.on {status : Str} {preparers : List Str} {uuid : Str} {req : Request}
    {report : FinalReportSchema} {c : DeficiencyClassification} {l m : RiskRating}
    (h : Classified rt ctx req d report c l m)
    (hbuilt : Built rt ctx status preparers decisions uuid d) (htype : d.decisionType = .classify) :
    ClassifiedOn rt d report c l m := by
  obtain ⟨dumped, hdumped, hdigest⟩ := hbuilt.digest
  have hsubject : d.subjectType = .deficiency := by
    rw [hbuilt.subjectType, htype]
    rfl
  rw [hbuilt.artifact, hsubject, artifact_deficiency, h.report_eq, Option.map_some] at hdumped
  obtain rfl := Option.some.inj hdumped
  exact ⟨hdigest, h.values, h.onScale, h.supported⟩

/-- A new classification shares a scale with one that stands on the same report. -/
theorem shareScale_of_fits {status : Str} {preparers : List Str}
    {uuid : Str} {req : Request} {a : ReviewDecision} {report : FinalReportSchema}
    {c c' : DeficiencyClassification} {l m l' m' : RiskRating} (hlog : DecisionLog decisions)
    (hbuilt : Built rt ctx status preparers decisions uuid d)
    (hclassified : Classified rt ctx req d report c l m) (hfits : FitsOthers rt ctx decisions req)
    (hnone : report.deficiencyScale = none) (ha : decisionScheme.Standing decisions a)
    (hon : ClassifiedOn rt a report c' l' m') (htype : a.decisionType = .classify)
    (hother : a.subjectId ≠ d.subjectId) : ShareScale c c' := by
  obtain ⟨active, -, -, hactive, -, -⟩ := hbuilt.values
  obtain ⟨l₀, m₀, hasked⟩ := hclassified.asked
  have hget := active_of_standing hlog hactive hclassified.report_eq hon.digest ha htype
  rw [hclassified.subjectId] at hother
  exact hfits report hclassified.report_eq hnone c l₀ m₀ hasked active hactive a.subjectId hother
    a c' hget hon.classification

/-- Recording a classification that fits keeps the classifications that stand on a scale. -/
theorem ScaleKept.append (hcf : rt.CollisionFree) {status : Str} {preparers : List Str}
    {req : Request} {now clock uuid : Str} (hlog : DecisionLog decisions)
    (h : ScaleKept rt decisions)
    (hd : buildDecision rt ctx status preparers decisions req now clock uuid = .ok d)
    (hfresh : ∀ a ∈ decisions, a.decisionId ≠ uuid)
    (hfits : d.decisionType = .classify → FitsOthers rt ctx decisions req) :
    ScaleKept rt (decisions ++ [d]) := by
  have hbuilt := buildDecision_eq_ok hd
  have hlog' := hlog.append hbuilt hfresh
  have hslot : ∀ a, a ∈ decisions ++ [d] → a.decisionType = .classify →
      slotKey a = deficiencySlot .classify a.subjectId := by
    intro a ha htype
    unfold slotKey deficiencySlot
    rw [hlog'.subjectType a ha, htype]
    rfl
  -- a classification that stands beside the new one is about another deficiency
  have hshared : ∀ a, decisionScheme.Standing (decisions ++ [d]) a →
      decisionScheme.Standing (decisions ++ [d]) d → decisionScheme.Standing decisions a →
      ∀ report c l m c' l' m', ClassifiedOn rt d report c l m → ClassifiedOn rt a report c' l' m' →
        d.decisionType = .classify → a.decisionType = .classify →
        report.deficiencyScale = none → ShareScale c c' := by
    intro a ha hstanding hold report c l m c' l' m' hon hon' htype htype' hnone
    obtain ⟨report', c₀, l₀, m₀, hclassified⟩ := buildDecision_classified hd htype
    have hon₀ := hclassified.on hbuilt htype
    obtain rfl := hon₀.report_unique hcf hon.digest
    obtain rfl : c₀ = c := value_injective
      (Option.some.inj (hon₀.classification.symm.trans hon.classification))
    by_cases hid : a.subjectId = d.subjectId
    · have hsame : slotKey a = slotKey d := by
        rw [hslot a ha.mem htype', hslot d hstanding.mem htype, hid]
      have hdraft : a.draftDigest = d.draftDigest := by
        have hdigest := hon.digest
        rw [hon'.digest] at hdigest
        exact Except.ok.inj hdigest
      obtain rfl := hlog'.wellFormed.unique ha hstanding hsame hdraft
      obtain rfl : c₀ = c' := value_injective
        (Option.some.inj (hon₀.classification.symm.trans hon'.classification))
      exact .refl c₀
    · exact shareScale_of_fits hlog hbuilt hclassified (hfits htype) hnone hold hon' htype' hid
  constructor
  · intro a ha htype
    rcases List.mem_append.mp ha with ha | ha
    · exact h.classified a ha htype
    · obtain rfl := List.mem_singleton.mp ha
      obtain ⟨report, c, l, m, hclassified⟩ := buildDecision_classified hd htype
      exact ⟨report, c, l, m, hclassified.on hbuilt htype⟩
  · intro a b ha hb report c l m c' l' m' hona honb hta htb hnone
    rcases ha.of_append with hold | rfl
    · rcases hb.of_append with hold' | rfl
      · exact h.shared a b hold hold' report c l m c' l' m' hona honb hta htb hnone
      · exact (hshared a ha hb hold report c' l' m' c l m honb hona htb hta hnone).symm
    · rcases hb.of_append with hold' | rfl
      · exact hshared b hb ha hold' report c l m c' l' m' hona honb hta htb hnone
      · obtain rfl : c = c' := value_injective
          (Option.some.inj (hona.classification.symm.trans honb.classification))
        exact .refl c

/-! ## Classifications of the view -/

/-- What an effective classification is: the draft's, or that of a classification that stands on
the report. -/
theorem effective_cases (hcf : rt.CollisionFree) (hlog : DecisionLog decisions)
    (hkept : ScaleKept rt decisions) {report : FinalReportSchema}
    (hreport : ctx.report = some report) {active : Dict SlotKey ReviewDecision}
    (hactive : activeBySlot rt ctx decisions = .ok active) {e : DeficiencyEvaluationSchema}
    {v : DeficiencyView} (h : deficiencyView rt active e = .ok v) :
    v.effective = ⟨value e.classification, value e.likelihood, value e.magnitude⟩ ∨
      ∃ d c l m, decisionScheme.Standing decisions d ∧ d.decisionType = .classify ∧
        ClassifiedOn rt d report c l m ∧ v.effective = ⟨value c, value l, value m⟩ := by
  unfold deficiencyView at h
  simp only [Except.bind_eq_ok_iff, Except.pure_eq_ok_iff] at h
  obtain ⟨draft, -, effective, heffective, rfl⟩ := h
  dsimp only
  rcases Option.eq_none_or_eq_some (active.get? (value DecisionType.classify,
    value DecisionSubjectType.deficiency, e.deficiencyId)) with hget | ⟨d, hget⟩
  · rw [hget] at heffective
    exact .inl (Except.ok.inj heffective).symm
  · right
    rw [hget] at heffective
    obtain ⟨digests, -, hdigests, -⟩ := exists_states hactive
    obtain ⟨hmem, hstate, hslot⟩ := (hlog.consistent.active_iff hdigests hactive).mp hget
    obtain ⟨hns, hdraft⟩ := stateOf_eq_active_iff.mp hstate
    have hsubject : d.subjectType = .deficiency :=
      value_injective (Prod.mk.inj (Prod.mk.inj hslot).2).1
    have htype : d.decisionType = .classify := by
      have hof : slotOf d.decisionType = value DecisionType.classify := (Prod.mk.inj hslot).1
      revert hof
      cases d.decisionType <;> decide
    obtain ⟨report', c, l, m, hon⟩ := hkept.classified d hmem htype
    have hof := digestOf_eq_ok hdigests .deficiency
    rw [hlog.artifact d hmem, hsubject] at hdraft
    unfold Context.digestOf at hof
    rw [artifact_deficiency, hreport, hdraft] at hof
    obtain ⟨digest, hdigest, hsome⟩ := Except.map_eq_ok_iff.mp hof
    obtain rfl := Option.some.inj hsome
    obtain rfl := hon.report_unique hcf hdigest
    refine ⟨d, c, l, m, ⟨hmem, hns⟩, htype, hon, ?_⟩
    dsimp only at heffective
    rw [hon.values] at heffective
    exact (Except.ok.inj heffective).symm

end Decisions

end AuditSwarm
