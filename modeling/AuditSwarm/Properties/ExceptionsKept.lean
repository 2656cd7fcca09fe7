import AuditSwarm.Decisions.Reviews
import AuditSwarm.Model.Assessment
import AuditSwarm.Properties.GateCoverage
import AuditSwarm.Run.Current

/-!
# Exceptions in the conclusion of record

No review removes an exception from the finding it judges.  But one view stands for all findings of
a control, that of the first: an exception behind a finding without one is not exported as such.
-/

namespace AuditSwarm

open Python StrEnum Decisions

namespace AuditFlow

variable {rt : Runtime} {f : AuditFlow} {d : ReviewDecision}

/-! ## Views of a run -/

/-- The review of a control was built on the first finding of the current working papers. -/
theorem challenges_of_active (hcf : rt.CollisionFree)
    {past : List (Transition AuditFlow Call (Except Exn Unit))} (h : DecisionHistory rt past f)
    {active : Dict SlotKey ReviewDecision}
    (hactive : activeBySlot rt f.decisionContext f.state.reviewDecisions = .ok active)
    {first : AuditFindingSchema} {controlId : Str}
    (hfirst : f.decisionContext.finding controlId = some first)
    (hd : active.get? (reviewSlot controlId) = some d) : Challenges d.values first := by
  obtain ⟨digests, -, hdigests, -⟩ := exists_states hactive
  obtain ⟨hmem, hstate, hslot⟩ := (h.log.consistent.active_iff hdigests hactive).mp hd
  obtain ⟨htype, hsubject, hid⟩ := of_slotKey_review hslot
  obtain ⟨t, -, hrec⟩ := h.recorded d hmem
  have hsame := ((hrec.active_iff hcf hdigests).mp hstate).2
  rw [hsubject] at hsame
  obtain ⟨first', hfirst', hchallenges⟩ := hrec.built.challenges htype
  have hpapers : t.before.decisionContext.papers = f.decisionContext.papers := hsame
  unfold Context.finding Context.findings at hfirst hfirst'
  rw [hpapers, hid, hfirst] at hfirst'
  obtain rfl := Option.some.inj hfirst'
  exact hchallenges

/-- The conclusions a view has for the findings of a control, those a review leaves of its first. -/
structure EffectiveFirst (ctx : Context) (fv : FindingView) (first : AuditFindingSchema)
    (tod : DesignConclusion) (toe : OperatingConclusion) : Prop where
  first_eq : ctx.finding fv.controlId = some first
  reviewed : Reviewed first tod toe
  tod_eq : fv.effective.todConclusion = value tod
  toe_eq : fv.effective.toeConclusion = value toe
  result_eq : fv.effective.result = value (deriveResult tod toe first.exceptionsNoted)

theorem effectiveFirst_of_mem (hcf : rt.CollisionFree)
    {past : List (Transition AuditFlow Call (Except Exn Unit))} (h : DecisionHistory rt past f)
    {view : EffectiveView} (hview : f.effectiveView rt = .ok view) {fv : FindingView}
    (hfv : fv ∈ view.findings) :
    ∃ first tod toe, EffectiveFirst f.decisionContext fv first tod toe := by
  obtain ⟨states, active, hparts⟩ := effectiveView_eq_ok hview
  obtain ⟨first, hmem, hok⟩ := Except.mem_of_mapM_eq_ok hparts.findings_eq fv hfv
  have hviewed := findingView_eq_ok hok
  have hfirst : f.decisionContext.finding fv.controlId = some first := by
    unfold Context.finding
    rw [hviewed.controlId]
    exact Dict.mem_firstBy_iff.mp hmem
  obtain ⟨tod, toe, result, hconclusions, heffective⟩ := hviewed.effective
  obtain ⟨tod', toe', hreviewed, hconclusions'⟩ := @effectiveConclusions_of_challenges rt first
    (active.get? (reviewSlot first.controlId)) (by
      intro d hd
      rw [← hviewed.controlId] at hd
      exact challenges_of_active hcf h hparts.active_eq hfirst hd)
  rw [hconclusions] at hconclusions'
  obtain ⟨rfl, htail⟩ := Prod.mk.inj (Except.ok.inj hconclusions')
  obtain ⟨rfl, rfl⟩ := Prod.mk.inj htail
  refine ⟨first, tod', toe', hfirst, hreviewed, ?_, ?_, ?_⟩ <;> rw [heffective]

/-- The result of record of a control is an exception when its first finding is one. -/
theorem EffectiveFirst.exception_iff {fv : FindingView} {first : AuditFindingSchema}
    {tod : DesignConclusion} {toe : OperatingConclusion}
    (h : EffectiveFirst f.decisionContext fv first tod toe) {papers : ValidPapers}
    (hpapers : f.state.workingPapers = some papers) :
    deriveResult tod toe first.exceptionsNoted = .exception ↔
      FirstFindingException f.decisionContext fv.controlId := by
  have hmem : first ∈ papers.1.findings := by
    have hfind := List.mem_of_find?_eq_some h.first_eq
    unfold Context.findings decisionContext at hfind
    rw [hpapers] at hfind
    exact hfind
  have hresult := (papers.2 first hmem).result_eq
  rw [h.reviewed.exception_iff]
  constructor
  · intro hderived
    exact ⟨first, h.first_eq, by rw [hresult, hderived]⟩
  · intro hexception
    obtain ⟨first', hfirst', hexc⟩ := hexception
    obtain rfl := Option.some.inj (h.first_eq.symm.trans hfirst')
    exact Option.some.inj (hresult.symm.trans hexc)

/-! ## The export -/

theorem assessedFinding_of_record {view : EffectiveView} {finding : AuditFindingSchema}
    {key : Str} {fv : FindingView} {r : FindingResult}
    (hfind : view.finding finding.controlId = some fv) (hresult : fv.effective.result = value r) :
    (∃ a, Oscal.assessedFinding (some view) finding key = some a ∧
      a.status.state = lit "not-satisfied") ↔ r = .exception := by
  have hrecord : Oscal.conclusionsOfRecord (some view) finding = fv.effective := by
    unfold Oscal.conclusionsOfRecord
    rw [Option.bind_some, hfind]
  unfold Oscal.assessedFinding
  dsimp only
  rw [hrecord, hresult]
  cases r with
  | exception =>
      rw [if_neg (by decide)]
      unfold Oscal.targetStatus
      rw [hresult]
      have hne : value FindingResult.exception ≠ value FindingResult.noException := by decide
      refine iff_of_true ⟨_, rfl, ?_⟩ rfl
      dsimp only
      rw [if_neg hne]
  | noException =>
      rw [if_neg (by decide)]
      unfold Oscal.targetStatus
      rw [hresult]
      refine iff_of_false ?_ (by decide)
      intro h
      obtain ⟨a, ha, hstate⟩ := h
      obtain rfl := Option.some.inj ha
      revert hstate
      dsimp only
      rw [if_pos rfl]
      decide
  | notTested =>
      rw [if_pos (.inl rfl)]
      refine iff_of_false ?_ (by decide)
      intro h
      obtain ⟨a, ha, -⟩ := h
      cases ha

/-! ## The effective working papers -/

theorem overlay_eq_ok {finding : AuditFindingSchema} {eff : FindingConclusions}
    {tod : DesignConclusion} {toe : OperatingConclusion} {r : FindingResult}
    (htod : eff.todConclusion = value tod) (htoe : eff.toeConclusion = value toe)
    (hresult : eff.result = value r) :
    ∃ kept, overlay finding eff = .ok kept ∧ kept.result = some r := by
  unfold overlay
  rw [htod, htoe, hresult, ofValue?_value, ofValue?_value, ofValue?_value]
  exact ⟨_, rfl, rfl⟩

theorem overlaid_finding (hcf : rt.CollisionFree)
    {past : List (Transition AuditFlow Call (Except Exn Unit))} (h : DecisionHistory rt past f)
    {view : EffectiveView} (hview : f.effectiveView rt = .ok view) {papers : ValidPapers}
    (hpapers : f.state.workingPapers = some papers) (finding : AuditFindingSchema) :
    ∃ kept, (match changedView view finding.controlId with
        | none => pure finding
        | some fv => overlay finding fv.effective : Except Exn AuditFindingSchema) = .ok kept ∧
      (finding.result = some .exception →
        FirstFindingException f.decisionContext finding.controlId →
          kept.result = some .exception) := by
  cases hchanged : changedView view finding.controlId with
  | none => exact ⟨finding, rfl, fun hresult _ => hresult⟩
  | some fv =>
      unfold changedView at hchanged
      have hmem := List.mem_of_getLast? hchanged
      simp only [List.mem_filter, Bool.and_eq_true, decide_eq_true_eq] at hmem
      obtain ⟨hfv, -, hid⟩ := hmem
      obtain ⟨first, tod, toe, hfirst⟩ := effectiveFirst_of_mem hcf h hview hfv
      obtain ⟨kept, hkept, hresult⟩ :=
        @overlay_eq_ok finding _ _ _ _ hfirst.tod_eq hfirst.toe_eq hfirst.result_eq
      refine ⟨kept, hkept, ?_⟩
      intro _ hexception
      rw [hresult, (hfirst.exception_iff hpapers).mpr (hid ▸ hexception)]

theorem exists_effectiveWorkingPapers (hcf : rt.CollisionFree)
    {past : List (Transition AuditFlow Call (Except Exn Unit))} (h : DecisionHistory rt past f)
    {view : EffectiveView} (hview : f.effectiveView rt = .ok view) {papers : ValidPapers}
    (hpapers : f.state.workingPapers = some papers) :
    ∃ eff, f.effectiveWorkingPapers rt = .ok (some eff) ∧
      ∀ (i : Nat) (finding : AuditFindingSchema), papers.1.findings[i]? = some finding →
        finding.result = some .exception →
        FirstFindingException f.decisionContext finding.controlId →
          ∃ kept : AuditFindingSchema, eff.findings[i]? = some kept ∧ kept.result = some .exception := by
  unfold effectiveWorkingPapers
  rw [hpapers]
  dsimp only
  split
  · exact ⟨papers.1, rfl, fun i finding hi hresult _ => ⟨finding, hi, hresult⟩⟩
  · rw [hview, Except.ok_bind]
    split
    · exact ⟨papers.1, rfl, fun i finding hi hresult _ => ⟨finding, hi, hresult⟩⟩
    · obtain ⟨findings, hfindings⟩ := Except.exists_mapM_eq_ok fun finding _ =>
        (overlaid_finding hcf h hview hpapers finding).imp fun kept hkept => hkept.1
      refine ⟨{ papers.1 with findings := findings }, ?_, ?_⟩
      · exact Except.bind_eq_ok_iff.mpr ⟨findings, hfindings, rfl⟩
      · intro i finding hi hresult hexception
        obtain ⟨kept, hkept, hok⟩ := Except.getElem?_of_mapM_eq_ok hfindings hi
        obtain ⟨kept', hok', hkeeps⟩ := overlaid_finding hcf h hview hpapers finding
        obtain rfl := Except.ok.inj (hok.symm.trans hok')
        exact ⟨kept, hkept, hkeeps hresult hexception⟩

/-- No exception is lost where it comes first: over every run, an exception is one in the effective
working papers and exported as a finding that is not satisfied exactly when the first finding of
its control is an exception. -/
theorem exception_kept_iff (rt : Runtime) (hcf : rt.CollisionFree) (theme businessContext : Str)
    (frameworks : List Str) (sessionId : Option Str) (calls : List Call)
    (hfresh : FreshIds calls) :
    let f := after rt (.fresh theme businessContext frameworks sessionId) calls
    ∀ papers, f.state.workingPapers = some papers → ∀ view, f.effectiveView rt = .ok view →
      ∃ eff, f.effectiveWorkingPapers rt = .ok (some eff) ∧
        ∀ (i : Nat) (finding : AuditFindingSchema) (key : Str),
          papers.1.findings[i]? = some finding →
          (Oscal.occurrenceKeys papers.1.findings)[i]? = some key →
          finding.result = some .exception →
          (((∃ kept : AuditFindingSchema, eff.findings[i]? = some kept ∧
                kept.result = some .exception) ∧
              ∃ a ∈ Oscal.assessedFindings (some view) papers.1, a.key = key ∧
                a.status.state = lit "not-satisfied") ↔
            FirstFindingException f.decisionContext finding.controlId) := by
  intro f papers hpapers view hview
  have h := @decisionHistory_run rt theme businessContext frameworks sessionId calls hfresh
  obtain ⟨eff, heff, hkept⟩ := exists_effectiveWorkingPapers hcf h hview hpapers
  refine ⟨eff, heff, ?_⟩
  intro i finding key hi hkey hresult
  obtain ⟨fv, hfv⟩ : ∃ fv, view.finding finding.controlId = some fv := by
    obtain ⟨states, active, hparts⟩ := effectiveView_eq_ok hview
    have hmem : finding ∈ f.decisionContext.findings := by
      unfold Context.findings decisionContext
      rw [hpapers]
      exact List.mem_of_getElem? hi
    obtain ⟨first, hfirst⟩ := exists_first_finding hmem
    obtain ⟨fv, hfv, hviewed⟩ := exists_view_of_finding hparts.findings_eq hfirst
    have hid := hviewed.controlId.trans (find?_controlId hfirst)
    unfold EffectiveView.finding
    cases hfind : view.findings.find? fun g => g.controlId = finding.controlId with
    | none => exact absurd hid (by simpa using List.find?_eq_none.mp hfind fv hfv)
    | some g => exact ⟨g, rfl⟩
  have hid : fv.controlId = finding.controlId := by simpa using List.find?_some hfv
  obtain ⟨first, tod, toe, hfirst⟩ :=
    effectiveFirst_of_mem hcf h hview (List.mem_of_find?_eq_some hfv)
  have hexception := hfirst.exception_iff hpapers
  rw [hid] at hexception
  have hexport := @assessedFinding_of_record view finding key fv _ hfv hfirst.result_eq
  constructor
  · intro hlost
    obtain ⟨-, a, ha, hakey, hstate⟩ := hlost
    have hassessed := (Oscal.mem_assessedFindings_iff hi hkey).mp ⟨ha, hakey⟩
    exact hexception.mp (hexport.mp ⟨a, hassessed, hstate⟩)
  · intro hfirstException
    obtain ⟨a, hassessed, hstate⟩ := hexport.mpr (hexception.mpr hfirstException)
    obtain ⟨ha, hakey⟩ := (Oscal.mem_assessedFindings_iff hi hkey).mpr hassessed
    exact ⟨hkept i finding hi hresult hfirstException, a, ha, hakey, hstate⟩

/-- A signed-off exception in the conclusion of record. -/
theorem exception_kept_signed :
    let f := after Sample.transparent (.fresh (lit "Access") (lit "A bank") [] none) Sample.signed
    ∀ papers, f.state.workingPapers = some papers →
      ∀ view, f.effectiveView Sample.transparent = .ok view →
      ∃ eff, f.effectiveWorkingPapers Sample.transparent = .ok (some eff) ∧
        ∀ (i : Nat) (finding : AuditFindingSchema) (key : Str),
          papers.1.findings[i]? = some finding →
          (Oscal.occurrenceKeys papers.1.findings)[i]? = some key →
          finding.result = some .exception →
          (((∃ kept : AuditFindingSchema, eff.findings[i]? = some kept ∧
                kept.result = some .exception) ∧
              ∃ a ∈ Oscal.assessedFindings (some view) papers.1, a.key = key ∧
                a.status.state = lit "not-satisfied") ↔
            FirstFindingException f.decisionContext finding.controlId) :=
  exception_kept_iff Sample.transparent Runtime.collisionFree_transparent (lit "Access")
    (lit "A bank") [] none Sample.signed (by decide +kernel)

end AuditFlow

namespace Sample

/-- An audit that finds a control effective first and an exception in it then, whose reviewer
withdraws the first conclusion. -/
def withdrawn : List Call :=
  doubled ++
    [⟨doubledEnv "u5", .record (.recordDecision (request "challenge" "C1" "B"
      [(lit "toe_conclusion", .str (lit "Not tested"))]))⟩]

end Sample

namespace AuditFlow

/-- The results of the effective working papers, and the states of the exported findings. -/
def HasOutcome (f : AuditFlow) (papers : ValidPapers) (results : List (Option FindingResult))
    (states : List Str) : Prop :=
  f.state.workingPapers = some papers ∧
    (f.effectiveWorkingPapers Sample.rt).map (Option.map fun p => p.findings.map (·.result)) =
      .ok (some results) ∧
    (f.effectiveView Sample.rt).map (fun v =>
      (Oscal.assessedFindings (some v) papers.1).map (·.status.state)) = .ok states

/-- The exception behind the withdrawn conclusion is lost, in both. -/
theorem exception_lost :
    Sample.doubledPapers.1.findings.map (·.result) = [some .noException, some .exception] ∧
      HasOutcome (after Sample.rt (.fresh (lit "Access") (lit "A bank") [] none) Sample.withdrawn)
        Sample.doubledPapers [some .noException, some .noException]
        [lit "satisfied", lit "satisfied"] := by
  unfold HasOutcome
  decide +kernel

end AuditFlow

end AuditSwarm
