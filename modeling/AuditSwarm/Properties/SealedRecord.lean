import AuditSwarm.Decisions.View
import AuditSwarm.Run.Decisions
import AuditSwarm.Properties.GateOrder

/-!
# The sealed record

A gate approval seals the decisions of its phase: no call records one afterwards, and no later
decision touches their slots.  So the reviewed findings are final once Gate 2 is approved, and
everything but the follow-up of the deficiencies once the audit is completed.
-/

namespace AuditSwarm

open Python StrEnum Decisions

namespace Decisions

def sealedTypes : Phase → List DecisionType
  | .planning => []
  | .fieldwork => [.signOff, .challenge]
  | .reporting => [.classify, .scopeLimitation, .engagementConclusion, .writeup]

/-- A sealed type may be recorded only at the gate that seals it. -/
theorem recordable_of_sealed {p : Phase} {t : DecisionType} (h : t ∈ sealedTypes p) :
    Policy.decisionRecordableStatuses t = [.waitingHumanGate p] := by
  revert h
  cases p <;> cases t <;> decide

/-- What is not sealed by the end is the follow-up of a deficiency. -/
theorem followUp_of_unsealed {t : DecisionType} (hfieldwork : t ∉ sealedTypes .fieldwork)
    (hreporting : t ∉ sealedTypes .reporting) :
    t = .managementResponse ∨ t = .remediationVerification := by
  revert hfieldwork hreporting
  cases t <;> decide

theorem mem_sealedTypes_of_slotOf {p : Phase} {t t' : DecisionType} (h : t ∈ sealedTypes p)
    (hslot : slotOf t' = slotOf t) : t' ∈ sealedTypes p := by
  revert h hslot
  cases p <;> cases t <;> cases t' <;> decide +kernel

end Decisions

namespace AuditFlow

variable {rt : Runtime} {f g : AuditFlow} {d : ReviewDecision} {p : Phase}

/-! ## No decision of a sealed type is recorded -/

theorem not_sealed_of_built {ctx : Context} {preparers : List Str} {decisions : List ReviewDecision}
    {uuid : Str} (hf : GateInv f) (hp : some p.gateLabel ∈ approvedGates f.state.approvalTrail)
    (h : Built rt ctx f.machine.status.value preparers decisions uuid d) :
    d.decisionType ∉ sealedTypes p := by
  intro hsealed
  have hallowed := h.status
  unfold Policy.decisionStatusViolation at hallowed
  rw [recordable_of_sealed hsealed] at hallowed
  have hstatus : f.machine.status = .waitingHumanGate p := by
    by_contra hne
    have hvalue : f.machine.status.value ≠ (AuditStatus.waitingHumanGate p).value :=
      fun heq => hne (AuditStatus.value_injective heq)
    simp [hvalue] at hallowed
  rw [hf.gates, hstatus] at hp
  exact not_closed_of_running p hp

/-- A flow some calls after a gate was approved. -/
structure SealedSince (f : AuditFlow) (p : Phase) (g : AuditFlow) : Prop where
  inv : GateInv g
  gate : some p.gateLabel ∈ approvedGates g.state.approvalTrail
  decisions : ∃ new, g.state.reviewDecisions = f.state.reviewDecisions ++ new ∧
    ∀ d ∈ new, d.decisionType ∉ sealedTypes p

theorem sealedSince_step {c : Call} (hdigest : ∀ cause, (step rt g c).1 ≠ .error (.digest cause))
    (h : SealedSince f p g) : SealedSince f p (step rt g c).2 := by
  refine ⟨gateInv_step hdigest h.inv, approvedGates_step.subset h.gate, ?_⟩
  obtain ⟨new, hnew, htypes⟩ := h.decisions
  rcases @decision_step rt g c with hsame | ⟨d, hd⟩
  · exact ⟨new, hsame.trans hnew, htypes⟩
  · refine ⟨new ++ [d], ?_, ?_⟩
    · rw [← List.append_assoc, ← hnew]
      exact hd.appended
    · intro a ha
      rcases List.mem_append.mp ha with ha | ha
      · exact htypes a ha
      · rw [List.mem_singleton.mp ha]
        exact not_sealed_of_built h.inv h.gate hd.built

theorem sealedSince_after {calls : List Call} (hdigest : DigestsSucceed rt f calls)
    (hf : GateInv f) (hp : some p.gateLabel ∈ approvedGates f.state.approvalTrail) :
    SealedSince f p (after rt f calls) :=
  LabelledRun.invariant (step rt) (P := fun t => ∀ c, t.result ≠ .error (.digest c))
    (fun _ _ => sealedSince_step) hdigest ⟨hf, hp, [], (List.append_nil _).symm, by simp⟩

/-- No decision recorded after a gate is in a slot it sealed. -/
theorem slotKey_ne_of_unsealed {t : DecisionType} {key : SlotKey}
    (ht : t ∈ sealedTypes p) (hkey : key.1 = slotOf t) (hd : d.decisionType ∉ sealedTypes p) :
    slotKey d ≠ key := by
  rintro rfl
  exact hd (mem_sealedTypes_of_slotOf ht hkey)

theorem planning_closed {s : AuditStatus}
    (h : some Phase.fieldwork.gateLabel ∈ s.closedGates.map fun q => some q.gateLabel) :
    some Phase.planning.gateLabel ∈ s.closedGates.map fun q => some q.gateLabel := by
  have hbefore : ∀ q : Phase, some Phase.fieldwork.gateLabel ∈
      (q.before.map fun q => some q.gateLabel) →
        some Phase.planning.gateLabel ∈ q.before.map fun q => some q.gateLabel := by
    intro q
    cases q <;> decide
  cases s with
  | waitingForScope => exact absurd h (by decide)
  | running q => exact hbefore q h
  | waitingHumanGate q => exact hbefore q h
  | qaRejected q => exact hbefore q h
  | error q => exact hbefore q h
  | completed => decide

/-! ## The artifacts a gate approved -/

theorem racm_of_storedModel (h : storedModel g.state .planning = storedModel f.state .planning) :
    f.decisionContext.racm = g.decisionContext.racm := by
  unfold storedModel at h
  unfold decisionContext
  cases hf : f.state.racmPlan <;> cases hg : g.state.racmPlan <;> simp_all

theorem papers_of_storedModel (h : storedModel g.state .fieldwork = storedModel f.state .fieldwork) :
    f.decisionContext.papers = g.decisionContext.papers := by
  unfold storedModel at h
  unfold decisionContext
  cases hf : f.state.workingPapers <;> cases hg : g.state.workingPapers <;> simp_all

theorem report_of_storedModel (h : storedModel g.state .reporting = storedModel f.state .reporting) :
    f.decisionContext.report = g.decisionContext.report := by
  unfold storedModel at h
  unfold decisionContext
  cases hf : f.state.finalReport <;> cases hg : g.state.finalReport <;> simp_all

/-! ## The property -/

/-- What completion seals of the effective view. -/
structure RecordSealed (v w : EffectiveView) : Prop where
  /-- The findings, their reviews and their scope limitations. -/
  findings : w.findings = v.findings
  /-- The classifications and the write-ups. -/
  deficiencies : w.deficiencies.map DeficiencyView.concluded =
    v.deficiencies.map DeficiencyView.concluded
  conclusion : w.engagementConclusion = v.engagementConclusion

section
variable {active active' : Dict SlotKey ReviewDecision}

theorem SealedSince.active_eq (h : SealedSince f p g) (hlog : DecisionLog g.state.reviewDecisions)
    (hactive : activeBySlot rt f.decisionContext f.state.reviewDecisions = .ok active)
    (hactive' : activeBySlot rt g.decisionContext g.state.reviewDecisions = .ok active')
    {t : DecisionType} {key : SlotKey} (ht : t ∈ sealedTypes p) (hkey : key.1 = slotOf t)
    (hartifact : ∀ stype, key.2.1 = value stype →
      g.decisionContext.artifact (artifactForSubject stype) =
        f.decisionContext.artifact (artifactForSubject stype)) :
    active.get? key = active'.get? key := by
  obtain ⟨new, hnew, htypes⟩ := h.decisions
  rw [hnew] at hlog hactive'
  have hslot : ∀ d ∈ new, slotKey d ≠ key :=
    fun d hd => slotKey_ne_of_unsealed ht hkey (htypes d hd)
  exact (activeBySlot_append hlog hactive hactive' hslot hartifact).symm

theorem SealedSince.findings (h : SealedSince f .fieldwork g)
    (hlog : DecisionLog g.state.reviewDecisions)
    (hracm : f.decisionContext.racm = g.decisionContext.racm)
    (hpapers : f.decisionContext.papers = g.decisionContext.papers) {v w : EffectiveView}
    (hv : f.effectiveView rt = .ok v) (hw : g.effectiveView rt = .ok w) :
    w.findings.map FindingView.reviewed = v.findings.map FindingView.reviewed := by
  obtain ⟨states, active, hparts⟩ := effectiveView_eq_ok hv
  obtain ⟨states', active', hparts'⟩ := effectiveView_eq_ok hw
  have hreview : ∀ c, active.get? (reviewSlot c) = active'.get? (reviewSlot c) := by
    intro c
    have htype : DecisionType.signOff ∈ sealedTypes .fieldwork := by decide
    refine h.active_eq hlog hparts.active_eq hparts'.active_eq htype rfl ?_
    intro stype hstype
    obtain rfl : DecisionSubjectType.finding = stype := value_injective hstype
    unfold Context.artifact artifactForSubject
    rw [if_pos rfl, if_pos rfl, hpapers]
  have hviews := (@findingViews_reviewed_congr rt) hracm hpapers hreview
  rw [hparts.findings_eq, hparts'.findings_eq] at hviews
  exact (Except.ok.inj hviews).symm

/-- Once the audit is completed, only the follow-up of a deficiency gets new decisions. -/
theorem active_eq_of_completed (hseal : ∀ p, SealedSince f p g)
    (hlog : DecisionLog g.state.reviewDecisions) (hcontext : g.decisionContext = f.decisionContext)
    (hactive : activeBySlot rt f.decisionContext f.state.reviewDecisions = .ok active)
    (hactive' : activeBySlot rt g.decisionContext g.state.reviewDecisions = .ok active')
    {key : SlotKey} (hresponse : key.1 ≠ value DecisionType.managementResponse)
    (hverification : key.1 ≠ value DecisionType.remediationVerification) :
    active'.get? key = active.get? key := by
  obtain ⟨new, hnew, hfieldwork⟩ := (hseal .fieldwork).decisions
  obtain ⟨new', hnew', hreporting⟩ := (hseal .reporting).decisions
  obtain rfl : new = new' := List.append_cancel_left (hnew.symm.trans hnew')
  rw [hnew] at hlog hactive'
  refine activeBySlot_append hlog hactive hactive' ?_ fun _ _ => by rw [hcontext]
  rintro d hd rfl
  rcases followUp_of_unsealed (hfieldwork d hd) (hreporting d hd) with ht | ht
  · exact hresponse (by rw [slotKey, ht]; rfl)
  · exact hverification (by rw [slotKey, ht]; rfl)

/-- Once the audit is completed, its record is final but for the follow-up. -/
theorem recordSealed_of_completed (hseal : ∀ p, SealedSince f p g)
    (hlog : DecisionLog g.state.reviewDecisions) (hcontext : g.decisionContext = f.decisionContext)
    {v : EffectiveView} (hv : f.effectiveView rt = .ok v) :
    ∃ w, g.effectiveView rt = .ok w ∧ RecordSealed v w := by
  obtain ⟨states, active, hparts⟩ := effectiveView_eq_ok hv
  obtain ⟨digests, -, hdigests, -⟩ := exists_states hparts.active_eq
  obtain ⟨states', active', hstates', hactive'⟩ := exists_active (hcontext ▸ hdigests)
    g.state.reviewDecisions
  have hget : ∀ key : SlotKey, key.1 ≠ value DecisionType.managementResponse →
      key.1 ≠ value DecisionType.remediationVerification → active.get? key = active'.get? key :=
    fun key h h' =>
      (active_eq_of_completed hseal hlog hcontext hparts.active_eq hactive' h h').symm
  have hreview : ∀ c, active.get? (reviewSlot c) = active'.get? (reviewSlot c) := fun c =>
    hget _ (by decide : findingReview ≠ value DecisionType.managementResponse)
      (by decide : findingReview ≠ value DecisionType.remediationVerification)
  have htype : ∀ t key, t ∈ sealedTypes .reporting → key.1 = value t →
      active.get? key = active'.get? key := by
    intro t key ht hkey
    refine hget key ?_ ?_
    · rw [hkey]
      revert ht
      cases t <;> decide
    · rw [hkey]
      revert ht
      cases t <;> decide
  have hfindings : findingViews rt g.decisionContext active' = .ok v.findings := by
    rw [← hparts.findings_eq, hcontext]
    exact (findingViews_congr rfl rfl hreview
      fun c => htype .scopeLimitation (scopeSlot c) (by decide) rfl).symm
  have hdeficiencies := (@deficiencyViews_concluded_congr rt f.decisionContext)
    (fun c => htype .classify (deficiencySlot .classify c) (by decide) rfl)
    fun c => htype .writeup (deficiencySlot .writeup c) (by decide) rfl
  rw [hparts.deficiencies_eq, ← hcontext] at hdeficiencies
  obtain ⟨deficiencies, hok, hsame⟩ := Except.map_eq_ok_iff.mp hdeficiencies.symm
  obtain ⟨w, hw, hparts'⟩ := exists_effectiveView hstates' hactive' hfindings hok
    g.reviewDecisionsRequired
  refine ⟨w, hw, ?_, ?_, ?_⟩
  · exact Except.ok.inj (hparts'.findings_eq.symm.trans hfindings)
  · rw [← hsame, Except.ok.inj (hparts'.deficiencies_eq.symm.trans hok)]
  · rw [hparts'.conclusion_eq, hparts.conclusion_eq,
      htype .engagementConclusion conclusionSlot (by decide) rfl]

end

theorem decisionContext_eq (h : ∀ p, storedModel g.state p = storedModel f.state p) :
    g.decisionContext = f.decisionContext := by
  have hracm := racm_of_storedModel (h .planning)
  have hpapers := papers_of_storedModel (h .fieldwork)
  have hreport := report_of_storedModel (h .reporting)
  cases hf : f.decisionContext
  cases hg : g.decisionContext
  simp_all

theorem GateInv.gate_of_completed (hf : GateInv f) (hs : f.machine.status = .completed) (p : Phase) :
    some p.gateLabel ∈ approvedGates f.state.approvalTrail := by
  rw [hf.gates, hs]
  refine List.mem_map_of_mem ?_
  cases p <;> simp [AuditStatus.closedGates]

/-- Sealed record: over every run with fresh decision ids and no digest failure, the findings and
their reviews never change once Gate 2 is approved; and once the audit is completed nothing of the
record changes, and no slot either, but the management responses and remediation verifications. -/
theorem record_sealed (rt : Runtime) (theme businessContext : Str) (frameworks : List Str)
    (sessionId : Option Str) (calls more : List Call) (hfresh : FreshIds (calls ++ more))
    (hdigest : DigestsSucceed rt (.fresh theme businessContext frameworks sessionId)
      (calls ++ more)) :
    let start := AuditFlow.fresh theme businessContext frameworks sessionId
    let f := after rt start calls
    let g := after rt start (calls ++ more)
    (some Phase.fieldwork.gateLabel ∈ approvedGates f.state.approvalTrail →
      ∀ v w, f.effectiveView rt = .ok v → g.effectiveView rt = .ok w →
        w.findings.map FindingView.reviewed = v.findings.map FindingView.reviewed) ∧
    (f.machine.status = .completed →
      (∀ v, f.effectiveView rt = .ok v → ∃ w, g.effectiveView rt = .ok w ∧ RecordSealed v w) ∧
      ∀ active active', activeBySlot rt f.decisionContext f.state.reviewDecisions = .ok active →
        activeBySlot rt g.decisionContext g.state.reviewDecisions = .ok active' →
        ∀ key : SlotKey, key.1 ≠ value DecisionType.managementResponse →
          key.1 ≠ value DecisionType.remediationVerification →
          active'.get? key = active.get? key) := by
  intro start f g
  have hinv : GateInv f :=
    gateInv_after hdigest.left (gateInv_fresh theme businessContext frameworks sessionId)
  have hg : g = after rt f more := LabelledRun.final_append _ _ _ _
  have hlog : DecisionLog g.state.reviewDecisions :=
    (decisionHistory_run theme businessContext frameworks sessionId hfresh).log
  have hkept : ∀ p, some p.gateLabel ∈ approvedGates f.state.approvalTrail →
      storedModel g.state p = storedModel f.state p := by
    intro p hp
    rw [hg]
    exact storedModel_after hdigest.right hinv hp
  have hseal : ∀ p, some p.gateLabel ∈ approvedGates f.state.approvalTrail →
      SealedSince f p g := by
    intro p hp
    rw [hg]
    exact sealedSince_after hdigest.right hinv hp
  constructor
  · intro hgate v w hv hw
    have hplanning : some Phase.planning.gateLabel ∈ approvedGates f.state.approvalTrail := by
      rw [hinv.gates] at hgate ⊢
      exact planning_closed hgate
    exact (hseal .fieldwork hgate).findings hlog (racm_of_storedModel (hkept .planning hplanning))
      (papers_of_storedModel (hkept .fieldwork hgate)) hv hw
  · intro hs
    have hall := hinv.gate_of_completed hs
    have hcontext := decisionContext_eq fun p => hkept p (hall p)
    have hsealed : ∀ p, SealedSince f p g := fun p => hseal p (hall p)
    constructor
    · intro v hv
      exact recordSealed_of_completed hsealed hlog hcontext hv
    · intro active active' hactive hactive' key hresponse hverification
      exact active_eq_of_completed hsealed hlog hcontext hactive hactive' hresponse hverification

/-- A completed audit, before a remediation is verified. -/
theorem record_sealed_completed :
    let start := AuditFlow.fresh (lit "Access") (lit "A bank") [] none
    let f := after Sample.rt start Sample.completed
    let g := after Sample.rt start (Sample.completed ++ [Sample.verification])
    f.machine.status = .completed ∧ ∀ v, f.effectiveView Sample.rt = .ok v →
      ∃ w, g.effectiveView Sample.rt = .ok w ∧ RecordSealed v w := by
  have hfresh : FreshIds (Sample.completed ++ [Sample.verification]) := by decide +kernel
  have hstatus : (after Sample.rt (.fresh (lit "Access") (lit "A bank") [] none)
      Sample.completed).machine.status = .completed := by decide +kernel
  exact ⟨hstatus, ((record_sealed Sample.rt (lit "Access") (lit "A bank") [] none
    Sample.completed [Sample.verification] hfresh
    digestsSucceed_completed).2 hstatus).1⟩

end AuditFlow

end AuditSwarm
