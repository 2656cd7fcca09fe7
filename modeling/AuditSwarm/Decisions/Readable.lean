import AuditSwarm.Decisions.Reviews
import AuditSwarm.Decisions.Scale
import AuditSwarm.Lib.Returns

/-!
# What is recorded can be shown

The effective view reads the conclusions of the challenges and the ratings of the classifications.
What `build_decision` stores of them are values of their enums, so that the view can fail in one way
only: a digest that is not computed.
-/

namespace AuditSwarm

open Python StrEnum

namespace Decisions

variable {rt : Runtime} {ctx : Context} {decisions : List ReviewDecision} {d : ReviewDecision}
  {active : Dict SlotKey ReviewDecision}

/-! ## Values that can be read -/

/-- A conclusion, where the values have one, is one of its enum. -/
def ReadsAs (α : Type) [StrEnum α] (values : Dict Str Str) (field : Str) : Prop :=
  ∀ s, values.get? field = some s → ∃ c : α, s = value c

/-- What a view reads of a decision can be read. -/
structure Readable (d : ReviewDecision) : Prop where
  tod : d.decisionType = .challenge → ReadsAs DesignConclusion d.values (lit "tod_conclusion")
  toe : d.decisionType = .challenge → ReadsAs OperatingConclusion d.values (lit "toe_conclusion")
  classification : d.decisionType = .classify →
    ∃ (c : DeficiencyClassification) (l m : RiskRating), d.values =
      [(lit "classification", value c), (lit "likelihood", value l), (lit "magnitude", value m)]

/-- A conclusion that withdraws a draft is one of the enum of the draft. -/
theorem readsAs_of_withdraws {α : Type} [StrEnum α] {values : Dict Str Str} {field : Str}
    {draft : α} (notTested : α) (hnot : value notTested = lit "Not tested")
    (h : Withdraws (value draft) (values.getD field (value draft))) : ReadsAs α values field := by
  intro s hs
  unfold Dict.getD at h
  rw [hs, Option.getD_some] at h
  rcases h with hsame | ⟨-, hnew⟩
  · exact ⟨draft, hsame⟩
  · exact ⟨notTested, hnew.trans hnot.symm⟩

theorem buildDecision_readable {status : Str} {preparers : List Str} {req : Request}
    {now clock uuid : Str}
    (h : buildDecision rt ctx status preparers decisions req now clock uuid = .ok d) :
    Readable d := by
  have hbuilt := buildDecision_eq_ok h
  constructor
  · intro htype
    rcases hbuilt.challenges (.inr htype) with ⟨f, -, hchallenges⟩
    exact readsAs_of_withdraws DesignConclusion.notTested (by decide)
      hchallenges.tod
  · intro htype
    rcases hbuilt.challenges (.inr htype) with ⟨f, -, hchallenges⟩
    exact readsAs_of_withdraws OperatingConclusion.notTested (by decide)
      hchallenges.toe
  · intro htype
    rcases buildDecision_classified h htype with ⟨report, c, l, m, hclassified⟩
    exact ⟨c, l, m, hclassified.values⟩

/-! ## The views of one subject -/

theorem exists_reviewedConclusion {α : Type} [StrEnum α] {review : Option ReviewDecision}
    {field : Str} (draft : α)
    (h : ∀ d, review = some d → d.decisionType = .challenge → ReadsAs α d.values field) :
    ∃ c : α, reviewedConclusion review field (value draft) = value c := by
  unfold reviewedConclusion
  cases review with
  | none => exact ⟨draft, rfl⟩
  | some d =>
      dsimp only
      by_cases htype : d.decisionType = .challenge
      · rw [if_pos htype]
        unfold Dict.getD
        cases hget : d.values.get? field with
        | none => exact ⟨draft, rfl⟩
        | some s => exact h d rfl htype s hget
      · rw [if_neg htype]
        exact ⟨draft, rfl⟩

theorem exists_effectiveConclusions {f : AuditFindingSchema} {review : Option ReviewDecision}
    (h : ∀ d, review = some d → Readable d) :
    ∃ x, effectiveConclusions rt f review = .ok x := by
  have htod := exists_reviewedConclusion f.todConclusion
    fun d hd htype => (h d hd).tod htype
  have htoe := exists_reviewedConclusion f.toeConclusion
    fun d hd htype => (h d hd).toe htype
  rcases htod with ⟨tod, htod⟩
  rcases htoe with ⟨toe, htoe⟩
  unfold effectiveConclusions
  dsimp only
  rw [htod, htoe, ofValue?_value, ofValue?_value]
  exact ⟨_, rfl⟩

theorem exists_findingView {keys : Dict Str (Option Bool)} {f : AuditFindingSchema}
    (h : ∀ key d, active.get? key = some d → Readable d) :
    ∃ v, findingView rt keys active f = .ok v := by
  have hconclusions := @exists_effectiveConclusions rt f
    (active.get? (findingReview, value DecisionSubjectType.finding, f.controlId))
    fun d hd => h _ d hd
  rcases hconclusions with ⟨x, hx⟩
  unfold findingView
  dsimp only
  rw [hx]
  exact ⟨_, rfl⟩

theorem exists_deficiencyView {e : DeficiencyEvaluationSchema}
    (h : ∀ key d, active.get? key = some d → Readable d ∧ slotKey d = key) :
    ∃ v, deficiencyView rt active e = .ok v := by
  have hdraft : Except.Returns (classificationOf rt (draftClassification e)) :=
    ⟨⟨value e.classification, value e.likelihood, value e.magnitude⟩, rfl⟩
  unfold deficiencyView
  dsimp only
  refine hdraft.bind_iff.mpr fun draft _ =>
    (Except.returns_bind_of_total fun effective => Except.returns_pure _).mpr ?_
  cases hget : active.get? (value DecisionType.classify, value DecisionSubjectType.deficiency,
      e.deficiencyId) with
  | none => exact ⟨_, rfl⟩
  | some d =>
      rcases h _ d hget with ⟨hreadable, hslot⟩
      have htype : d.decisionType = .classify := by
        have hof : slotOf d.decisionType = value DecisionType.classify := (Prod.mk.inj hslot).1
        revert hof
        cases d.decisionType <;> decide
      rcases hreadable.classification htype with ⟨c, l, m, hvalues⟩
      dsimp only
      rw [hvalues]
      exact ⟨_, rfl⟩

/-! ## The view -/

/-- Decisions that can be read have a view whenever the digests of the artifacts are computed. -/
theorem exists_view {digests : Dict Str (Option Str)} (h : ∀ d ∈ decisions, Readable d)
    (hdigests : ctx.digests rt = .ok digests) (required : Bool) :
    ∃ states v, decisionStates rt ctx decisions = .ok states ∧
      effectiveView rt ctx decisions required = .ok v := by
  rcases exists_active hdigests decisions with ⟨states, active, hstates, hactive⟩
  have hmem : ∀ key d, active.get? key = some d → d ∈ decisions ∧ slotKey d = key := by
    intro key d hget
    rw [activeBySlot_get? hstates hactive] at hget
    have hfound := List.mem_filter.mp (List.mem_of_getLast? hget)
    exact ⟨hfound.1, (of_decide_eq_true hfound.2).2⟩
  have hreadable : ∀ key d, active.get? key = some d → Readable d ∧ slotKey d = key :=
    fun key d hget => ⟨h d (hmem key d hget).1, (hmem key d hget).2⟩
  have hfindings : ∃ findings, findingViews rt ctx active = .ok findings :=
    Except.exists_mapM_eq_ok fun f _ =>
      exists_findingView fun key d hget => (hreadable key d hget).1
  have hdeficiencies : ∃ deficiencies, deficiencyViews rt ctx active = .ok deficiencies :=
    Except.exists_mapM_eq_ok fun e _ => exists_deficiencyView hreadable
  rcases hfindings with ⟨findings, hfindings⟩
  rcases hdeficiencies with ⟨deficiencies, hdeficiencies⟩
  rcases exists_effectiveView hstates hactive hfindings hdeficiencies required with ⟨v, hv, -⟩
  exact ⟨states, v, hstates, hv⟩

end Decisions

end AuditSwarm
