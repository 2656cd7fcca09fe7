import AuditSwarm.Properties.GateOrder
import AuditSwarm.Run.RecordedDecisions

/-!
# What the approvals of a run are of

`changed_since_approval` goes over the trail once: it collects the decisions recorded for each
phase and, for each artifact, its last approval.  In a run what it ends with is true of the flow:
the artifact of an approved gate is the one that was approved, and the decisions that were sealed
with it are still there.
-/

namespace AuditSwarm

open Python StrEnum Decisions

namespace Trail

variable {rt : Runtime} {trail : List Entry} {e : StrEntry}

/-! ## The scan, entry by entry -/

def scanned (rt : Runtime) (trail : List Entry) : ApprovalScan :=
  trail.foldl (approvalScan rt) ⟨[], []⟩

theorem scanned_concat (rt : Runtime) (trail : List Entry) (e : Entry) :
    scanned rt (trail ++ [e]) = approvalScan rt (scanned rt trail) e := by
  unfold scanned
  rw [List.foldl_append]
  rfl

theorem scanned_other (hdecision : e.get? (lit "action") ≠ some (lit "review_decision"))
    (happroval : e.get? (lit "action") ≠ some (lit "gate_approval")) :
    scanned rt (trail ++ [e.toEntry]) = scanned rt trail := by
  rw [scanned_concat]
  unfold approvalScan
  rw [fieldIs_toEntry, fieldIs_toEntry, decide_eq_false hdecision, decide_eq_false happroval]
  rfl

/-- The entry of a decision adds its id to those of its phase. -/
theorem scanned_decision {i phase : Str} {n : Int}
    (haction : e.get? (lit "action") = some (lit "review_decision"))
    (hphase : e.get? (lit "phase") = some phase) (hn : rt.intOfStr phase = some n)
    (hid : e.get? (lit "decision_id") = some i) :
    scanned rt (trail ++ [e.toEntry]) = ⟨(scanned rt trail).latest,
      (scanned rt trail).recorded.set n ((scanned rt trail).recorded.getD n [] ++ [i])⟩ := by
  rw [scanned_concat]
  unfold approvalScan
  rw [fieldIs_toEntry, decide_eq_true haction, if_pos rfl, fieldText_toEntry, fieldText_toEntry,
    Dict.getD, Dict.getD, hphase, hid, Option.getD_some, Option.getD_some, hn]

def approvalOf (rt : Runtime) (trail : List Entry) (field digest : Str) (e : StrEntry) :
    Approval where
  gate := e.getD (lit "gate") []
  digest := digest
  sealedDigest := if e.getD (lit "decisions_digest") [] = [] then none
    else some (e.getD (lit "decisions_digest") [])
  ids := (scanned rt trail).recorded.getD (artifactPhase field) []

theorem scanned_approval {field digest : Str}
    (haction : e.get? (lit "action") = some (lit "gate_approval"))
    (hfield : e.get? (lit "artifact") = some field)
    (hdigest : e.get? (lit "artifact_digest") = some digest) (hne : digest ≠ []) :
    scanned rt (trail ++ [e.toEntry]) =
      ⟨(scanned rt trail).latest.set field (approvalOf rt trail field digest e),
        (scanned rt trail).recorded⟩ := by
  have hdecision : e.get? (lit "action") ≠ some (lit "review_decision") := by
    rw [haction]
    decide
  have hd : e.getD (lit "artifact_digest") [] = digest := by
    rw [Dict.getD, hdigest, Option.getD_some]
  have hf : e.getD (lit "artifact") [] = field := by
    rw [Dict.getD, hfield, Option.getD_some]
  rw [scanned_concat]
  unfold approvalScan
  rw [fieldIs_toEntry, fieldIs_toEntry, decide_eq_false hdecision, decide_eq_true haction,
    fieldTruthy_toEntry, fieldTruthy_toEntry, hd, decide_eq_true hne]
  simp only [Bool.false_eq_true, if_false, Bool.and_true, if_true, fieldText_toEntry, hd, hf]
  unfold approvalOf
  by_cases hsealed : e.getD (lit "decisions_digest") [] = []
  · simp only [hsealed, ne_eq, not_true_eq_false, decide_false, Bool.false_eq_true, if_false,
      if_true]
  · simp only [hsealed, ne_eq, not_false_eq_true, decide_true, if_true, if_false]

end Trail

namespace AuditFlow

variable {rt : Runtime} {env : Env} {f g : AuditFlow} {r : Except Exn Unit} {e : StrEntry}

/-! ## What the scan of a flow's trail means -/

def scan (rt : Runtime) (f : AuditFlow) : Trail.ApprovalScan :=
  Trail.scanned rt (f.state.approvalTrail.map StrEntry.toEntry)

/-- The decisions an approval was sealed with are decisions of the flow. -/
def SealHeld (rt : Runtime) (f : AuditFlow) (a : Trail.Approval) : Prop :=
  ∀ digest, a.sealedDigest = some digest → ∃ ds : List ReviewDecision,
    (∀ d ∈ ds, d ∈ f.state.reviewDecisions) ∧ a.ids = ds.map (·.decisionId) ∧
      Trail.decisionsDigest rt (ds.map ReviewDecision.toJson) = .ok digest

/-- The last approval of an artifact is of the artifact of an approved gate. -/
structure ApprovalHeld (rt : Runtime) (f : AuditFlow) (field : Str) (a : Trail.Approval) (p : Phase)
    (artifact : Json) : Prop where
  field_eq : field = p.artifactField
  closed : some p.gateLabel ∈ approvedGates f.state.approvalTrail
  artifact_eq : f.state.artifact p = some artifact
  digest : Trail.artifactDigest rt artifact = .ok a.digest
  sealHeld : SealHeld rt f a

/-- What the scan of the trail says is true of the flow. -/
structure ApprovalsHeld (rt : Runtime) (f : AuditFlow) : Prop where
  recorded : ∀ p : Phase, (scan rt f).recorded.getD (p.number : Int) [] =
    (f.phaseDecisions p).map (·.decisionId)
  latest : ∀ field a, (scan rt f).latest.get? field = some a →
    ∃ p artifact, ApprovalHeld rt f field a p artifact

def ReadsPhases (rt : Runtime) : Prop := ∀ p : Phase, rt.intOfStr p.digits = some (p.number : Int)

theorem artifact_congr {p : Phase} (h : storedModel g.state p = storedModel f.state p) :
    g.state.artifact p = f.state.artifact p := by
  cases p with
  | planning =>
      have hmodel : g.state.racmPlan = f.state.racmPlan := by
        unfold storedModel at h
        cases hf : f.state.racmPlan <;> cases hg : g.state.racmPlan <;> simp_all
      unfold AuditState.artifact
      rw [hmodel]
  | fieldwork =>
      have hmodel : g.state.workingPapers = f.state.workingPapers := by
        unfold storedModel at h
        cases hf : f.state.workingPapers <;> cases hg : g.state.workingPapers <;> simp_all
      unfold AuditState.artifact
      rw [hmodel]
  | reporting =>
      have hmodel : g.state.finalReport = f.state.finalReport := by
        unfold storedModel at h
        cases hf : f.state.finalReport <;> cases hg : g.state.finalReport <;> simp_all
      unfold AuditState.artifact
      rw [hmodel]

/-- What keeps the artifacts of the approved gates, the approvals and the decisions there are keeps
what an approval is of. -/
theorem ApprovalHeld.mono {field : Str} {a : Trail.Approval} {p : Phase} {artifact : Json}
    (h : ApprovalHeld rt f field a p artifact)
    (hgates : approvedGates f.state.approvalTrail <+: approvedGates g.state.approvalTrail)
    (hartifact : some p.gateLabel ∈ approvedGates f.state.approvalTrail →
      g.state.artifact p = f.state.artifact p)
    (hdecisions : ∀ d ∈ f.state.reviewDecisions, d ∈ g.state.reviewDecisions) :
    ApprovalHeld rt g field a p artifact where
  field_eq := h.field_eq
  closed := hgates.subset h.closed
  artifact_eq := (hartifact h.closed).trans h.artifact_eq
  digest := h.digest
  sealHeld := by
    intro digest hdigest
    rcases h.sealHeld digest hdigest with ⟨ds, hds, hids, hseal⟩
    exact ⟨ds, fun d hd => hdecisions d (hds d hd), hids, hseal⟩

theorem ApprovalsHeld.congr (h : ApprovalsHeld rt f) (hscan : scan rt g = scan rt f)
    (hgates : approvedGates f.state.approvalTrail <+: approvedGates g.state.approvalTrail)
    (hartifact : ∀ p : Phase, some p.gateLabel ∈ approvedGates f.state.approvalTrail →
      g.state.artifact p = f.state.artifact p)
    (hdecisions : g.state.reviewDecisions = f.state.reviewDecisions) : ApprovalsHeld rt g where
  recorded := by
    intro p
    unfold phaseDecisions
    rw [hscan, hdecisions]
    exact h.recorded p
  latest := by
    intro field a ha
    rw [hscan] at ha
    rcases h.latest field a ha with ⟨p, artifact, hheld⟩
    exact ⟨p, artifact, hheld.mono hgates (hartifact p) fun d hd => by rw [hdecisions]; exact hd⟩

/-! ## Recording a decision -/

theorem scan_decision {d : ReviewDecision} {q : Phase} (hints : ReadsPhases rt)
    (haction : e.get? (lit "action") = some (lit "review_decision"))
    (hphase : e.get? (lit "phase") = some (decimal d.phase)) (hq : d.phase = q.number)
    (hid : e.get? (lit "decision_id") = some d.decisionId)
    (htrail : g.state.approvalTrail = f.state.approvalTrail ++ [e]) :
    scan rt g = ⟨(scan rt f).latest, (scan rt f).recorded.set (q.number : Int)
      ((scan rt f).recorded.getD (q.number : Int) [] ++ [d.decisionId])⟩ := by
  have hdigits : decimal d.phase = q.digits := by
    rw [hq]
    cases q <;> rfl
  rw [hdigits] at hphase
  unfold scan
  rw [htrail, List.map_append, List.map_singleton]
  exact Trail.scanned_decision haction hphase (hints q) hid

theorem phase_number_injective {p q : Phase} (h : p.number = q.number) : p = q := by
  cases p <;> cases q <;> first | rfl | cases h

theorem ApprovalsHeld.record (h : ApprovalsHeld rt f) (hints : ReadsPhases rt)
    {req : Request} {d : ReviewDecision} {q : Phase}
    (he : EntryOf rt env (.recordDecision req) f d e) (hq : d.phase = q.number)
    (hdecisions : g.state.reviewDecisions = f.state.reviewDecisions ++ [d])
    (htrail : g.state.approvalTrail = f.state.approvalTrail ++ [e])
    (hartifact : ∀ p : Phase, g.state.artifact p = f.state.artifact p) : ApprovalsHeld rt g := by
  rcases entryOf_decision he with ⟨digest, -, hid, -, hphase⟩
  have hscan : scan rt g = ⟨(scan rt f).latest, (scan rt f).recorded.set (q.number : Int)
      ((scan rt f).recorded.getD (q.number : Int) [] ++ [d.decisionId])⟩ :=
    scan_decision hints he.stamped.action hphase hq hid htrail
  have hgates : approvedGates f.state.approvalTrail <+: approvedGates g.state.approvalTrail := by
    rw [htrail, approvedGates_append_other he.stamped (by simp)]
  refine ⟨fun p => ?_, fun field a ha => ?_⟩
  · unfold phaseDecisions
    rw [hscan, hdecisions, List.filter_append, List.map_append]
    by_cases hp : p = q
    · rw [hp]
      dsimp only
      rw [Dict.getD, Dict.get?_set_self, Option.getD_some, h.recorded q]
      have hkept : [d].filter (fun d => decide (d.phase = q.number)) = [d] :=
        List.filter_cons_of_pos (decide_eq_true hq)
      rw [hkept]
      rfl
    · have hne : (p.number : Int) ≠ q.number := by
        intro heq
        exact hp (phase_number_injective (Int.ofNat_inj.mp heq))
      have hnot : d.phase ≠ p.number := by
        intro heq
        exact hp (phase_number_injective (heq.symm.trans hq))
      dsimp only
      rw [Dict.getD, Dict.get?_set_of_ne _ _ hne]
      have hdropped : [d].filter (fun d => decide (d.phase = p.number)) = [] := by
        rw [List.filter_cons_of_neg (by rw [decide_eq_true_eq]; exact hnot), List.filter_nil]
      rw [hdropped, List.map_nil, List.append_nil]
      exact h.recorded p
  · rw [hscan] at ha
    rcases h.latest field a ha with ⟨p, artifact, hheld⟩
    refine ⟨p, artifact, hheld.mono hgates (fun _ => hartifact p) fun d' hd' => ?_⟩
    rw [hdecisions]
    exact List.mem_append_left _ hd'

/-! ## Approving a gate -/

structure ApprovalEntry (rt : Runtime) (f : AuditFlow) (gate : Phase) (plan : ApprovalPlan)
    (e : StrEntry) : Prop where
  artifact : e.get? (lit "artifact") = some gate.artifactField
  digest : ∃ digest, e.get? (lit "artifact_digest") = some digest ∧
    Trail.artifactDigest rt plan.artifact = .ok digest
  sealed : ∀ digest, e.get? (lit "decisions_digest") = some digest →
    Trail.decisionsDigest rt ((f.phaseDecisions gate).map ReviewDecision.toJson) = .ok digest

theorem get?_runProvenanceExtra (f : AuditFlow) (p : Phase) {k : Str}
    (h : k ∉ [lit "generation_run_id", lit "generation_prompt_fingerprint",
      lit "generation_model"]) : (f.runProvenanceExtra p).get? k = none := by
  simp only [List.mem_cons, List.not_mem_nil, or_false, not_or] at h
  rcases provenance_cases f p with hp | ⟨run, -, hp⟩
  · rw [hp]
    rfl
  · rw [hp]
    simp only [Dict.get?_cons, Dict.get?_nil, if_neg (Ne.symm h.1), if_neg (Ne.symm h.2.1),
      if_neg (Ne.symm h.2.2)]

theorem get?_sealedFields {gate : Phase} {fields : StrEntry}
    (h : sealedFields rt f gate = .ok fields) {digest : Str}
    (hdigest : fields.get? (lit "decisions_digest") = some digest) :
    Trail.decisionsDigest rt ((f.phaseDecisions gate).map ReviewDecision.toJson) = .ok digest := by
  unfold sealedFields at h
  by_cases hgate : gate = .planning
  · rw [if_pos hgate] at h
    cases h
    cases hdigest
  · rw [if_neg hgate] at h
    rcases Except.bind_eq_ok_iff.mp h with ⟨digest', hdigest', h⟩
    cases Except.ok.inj h
    rw [Dict.get?_cons, if_pos rfl] at hdigest
    cases hdigest
    exact hdigest'

theorem entryOf_approval {gate : Phase} {humanId source : Str} {plan : ApprovalPlan}
    (hk : checkApproval rt env gate humanId source f = .ok plan)
    (h : EntryOf rt env (.approveGate gate humanId source) f plan e) :
    ApprovalEntry rt f gate plan e := by
  rcases h.extra with ⟨x, hx, hget⟩
  have hx' : (do
      let digest ← Trail.artifactDigest rt plan.artifact
      return [(lit "artifact", gate.artifactField), (lit "artifact_digest", digest)] ++
        plan.sealedFields ++ (f.moveTo (AuditStateMachine.approvalTarget gate)).runProvenanceExtra
          gate : Except Exn StrEntry) = .ok x := hx
  rcases Except.bind_eq_ok_iff.mp hx' with ⟨digest, hdigest, hextra⟩
  have hfields := Except.pure_eq_ok_iff.mp hextra
  refine ⟨?_, ⟨digest, ?_, hdigest⟩, ?_⟩
  · rw [hget _ (by simp [commonKeys, Trail.hashFields]), ← hfields]
    rfl
  · rw [hget _ (by simp [commonKeys, Trail.hashFields]), ← hfields]
    rfl
  · intro sealDigest hseal
    rw [hget _ (by simp [commonKeys, Trail.hashFields]), ← hfields, Dict.get?_append,
      get?_runProvenanceExtra _ _ (by decide), Option.or_none, Dict.get?_append] at hseal
    exact get?_sealedFields (checkApproval_sealedFields hk) hseal

theorem artifactPhase_artifactField (p : Phase) :
    Trail.artifactPhase p.artifactField = (p.number : Int) := by
  cases p <;> rfl

theorem digest_ne_nil {j : Json} {digest : Str} (h : Trail.artifactDigest rt j = .ok digest) :
    digest ≠ [] := by
  rcases Trail.artifactDigest_eq_ok_iff.mp h with ⟨data, -, hdigest⟩
  rw [hdigest]
  exact hexdigest_ne_nil (rt.digest_ne_nil _)

theorem ApprovalsHeld.approve (h : ApprovalsHeld rt f) {gate : Phase} {humanId source : Str}
    {plan : ApprovalPlan} (hk : checkApproval rt env gate humanId source f = .ok plan)
    (he : EntryOf rt env (.approveGate gate humanId source) f plan e)
    (hdecisions : g.state.reviewDecisions = f.state.reviewDecisions)
    (htrail : g.state.approvalTrail = f.state.approvalTrail ++ [e])
    (hartifact : ∀ p : Phase, g.state.artifact p = f.state.artifact p) : ApprovalsHeld rt g := by
  have hfields := entryOf_approval hk he
  rcases hfields.digest with ⟨digest, hdigest, hcomputed⟩
  have hscan : scan rt g = ⟨(scan rt f).latest.set gate.artifactField
      (Trail.approvalOf rt (f.state.approvalTrail.map StrEntry.toEntry) gate.artifactField digest
        e),
      (scan rt f).recorded⟩ := by
    unfold scan
    rw [htrail, List.map_append, List.map_singleton]
    exact Trail.scanned_approval he.stamped.action hfields.artifact hdigest
      (digest_ne_nil hcomputed)
  have hclosed : approvedGates g.state.approvalTrail =
      approvedGates f.state.approvalTrail ++ [some gate.gateLabel] := by
    rw [htrail]
    exact approvedGates_append_approval he.stamped
  have hgates : approvedGates f.state.approvalTrail <+: approvedGates g.state.approvalTrail := by
    rw [hclosed]
    exact List.prefix_append _ _
  refine ⟨fun p => ?_, fun field a ha => ?_⟩
  · unfold phaseDecisions
    rw [hscan, hdecisions]
    exact h.recorded p
  · rw [hscan, Dict.get?_set] at ha
    by_cases hfield : gate.artifactField = field
    · rw [if_pos hfield] at ha
      cases Option.some.inj ha
      refine ⟨gate, plan.artifact, hfield.symm, ?_, ?_, hcomputed, ?_⟩
      · rw [hclosed]
        exact List.mem_append_right _ List.mem_cons_self
      · rw [hartifact]
        exact (checkApproval_eq_ok hk).artifact
      · intro sealDigest hseal
        refine ⟨f.phaseDecisions gate, fun d hd => ?_, ?_, ?_⟩
        · rw [hdecisions]
          exact List.mem_of_mem_filter hd
        · show (scan rt f).recorded.getD (Trail.artifactPhase gate.artifactField) [] = _
          rw [artifactPhase_artifactField]
          exact h.recorded gate
        · unfold Trail.approvalOf at hseal
          dsimp only at hseal
          cases hget : e.get? (lit "decisions_digest") with
          | none =>
              rw [Dict.getD, hget, Option.getD_none, if_pos rfl] at hseal
              cases hseal
          | some sealDigest' =>
              rw [Dict.getD, hget, Option.getD_some] at hseal
              split at hseal
              · cases hseal
              · cases hseal
                exact hfields.sealed _ hget
    · rw [if_neg hfield] at ha
      rcases h.latest field a ha with ⟨p, artifact, hheld⟩
      exact ⟨p, artifact, hheld.mono hgates (fun _ => hartifact p) fun d hd => by
        rw [hdecisions]; exact hd⟩

/-! ## Every call -/

theorem approvalsHeld_act {a : RecordedAction} (hints : ReadsPhases rt)
    (h : act rt env a f = (r, g)) (hdigest : ∀ c, r ≠ .error (.digest c))
    (hf : ApprovalsHeld rt f) : ApprovalsHeld rt g := by
  have hframe := act_artifactFrame h
  have hartifact : ∀ p : Phase, g.state.artifact p = f.state.artifact p :=
    fun p => artifact_congr (hframe.storedModel p)
  rcases act_entry h with ⟨err, -, -, rfl⟩ | ⟨k, err, hk, hseal, hr, -⟩ | ⟨k, e, hk, he, -, rfl⟩
  · exact hf
  · rcases sealOf_cases hk ((recorded rt env a).mutate k f) with ⟨c, hc⟩ | ⟨e, he, -⟩
    · rw [hseal] at hc
      rw [Except.error.inj hc] at hr
      exact absurd hr (hdigest c)
    · cases hseal.symm.trans he
  · have htrail := @act_trail rt env f a k e
    have hother : (recorded rt env a).action ≠ lit "review_decision" →
        (recorded rt env a).action ≠ lit "gate_approval" →
        ((recorded rt env a).conclude k (pushEntry e
          ((recorded rt env a).mutate k f))).state.reviewDecisions = f.state.reviewDecisions →
        ApprovalsHeld rt ((recorded rt env a).conclude k (pushEntry e
          ((recorded rt env a).mutate k f))) := by
      intro hdecision happroval hsame
      refine hf.congr ?_ ?_ (fun p _ => hartifact p) hsame
      · unfold scan
        rw [htrail, List.map_append, List.map_singleton]
        refine Trail.scanned_other ?_ ?_
        · rw [he.stamped.action]
          exact fun heq => hdecision (Option.some.inj heq)
        · rw [he.stamped.action]
          exact fun heq => happroval (Option.some.inj heq)
      · rw [htrail, approvedGates_append_other he.stamped happroval]
    cases a with
    | recordDecision req =>
        have hbuilt := Decisions.buildDecision_eq_ok hk
        have hq : ∃ q : Phase, k.phase = q.number := by
          rw [hbuilt.phase]
          cases k.decisionType with
          | signOff => exact ⟨.fieldwork, rfl⟩
          | challenge => exact ⟨.fieldwork, rfl⟩
          | _ => exact ⟨.reporting, rfl⟩
        rcases hq with ⟨q, hq⟩
        exact hf.record hints he hq rfl htrail hartifact
    | approveGate gate humanId source => exact hf.approve hk he rfl htrail hartifact
    | recordPreparer preparedBy required source =>
        exact hother (by simp) (by simp) rfl
    | retryPhase phase humanId source =>
        exact hother (by simp) (by simp) rfl
    | returnForRework phase humanId notes source =>
        exact hother (by simp) (by simp) rfl
    | overrideQaRejection phase humanId reason source =>
        exact hother (by simp) (by simp) rfl

theorem approvalsHeld_step {c : Call} (hints : ReadsPhases rt)
    (hdigest : ∀ cause, (step rt f c).1 ≠ .error (.digest cause)) (hgate : GateInv f)
    (hf : ApprovalsHeld rt f) : ApprovalsHeld rt (step rt f c).2 := by
  have hartifact : ∀ p : Phase, some p.gateLabel ∈ approvedGates f.state.approvalTrail →
      (step rt f c).2.state.artifact p = f.state.artifact p :=
    fun p hp => artifact_congr (storedModel_step hgate hp)
  have hgates : approvedGates f.state.approvalTrail <+:
      approvedGates (step rt f c).2.state.approvalTrail := approvedGates_step
  rcases c with ⟨env, op⟩
  cases op with
  | record a => exact approvalsHeld_act (r := (act rt env a f).1) hints rfl hdigest hf
  | beginPhase1 =>
      have hstep : step rt f ⟨env, .beginPhase1⟩ = beginPhase1.exec f := rfl
      rcases exec_beginPhase1 f with ⟨-, h⟩ | ⟨_, _, h⟩
      · rw [hstep, h] at hgates hartifact ⊢
        exact hf.congr rfl hgates hartifact rfl
      · rw [hstep, h]
        exact hf
  | generate q =>
      rcases @generate_cases rt env f _ _ q rfl with ⟨e, -, h⟩ | ⟨-, ks, -, hframe, -⟩
      · rw [show (step rt f ⟨env, .generate q⟩).2 = f from h]
        exact hf
      · refine hf.congr ?_ hgates hartifact hframe.decisions
        exact congrArg (fun trail => Trail.scanned rt (trail.map StrEntry.toEntry)) hframe.trail

theorem approvalsHeld_fresh (theme businessContext : Str) (frameworks : List Str)
    (sessionId : Option Str) :
    ApprovalsHeld rt (.fresh theme businessContext frameworks sessionId) where
  recorded := fun p => rfl
  latest := fun field a ha => by cases ha

end AuditFlow

end AuditSwarm
