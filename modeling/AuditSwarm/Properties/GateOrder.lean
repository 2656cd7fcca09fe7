import AuditSwarm.Run.Steps

/-!
# Gate order

Over every run, the gates are approved in order, the status says how many of them are, and what a
gate approved is not replaced afterwards.  One invariant ties the three together: the gates
approved in the trail are those closed by the status.
-/

namespace AuditSwarm

open Python StrEnum

def Phase.before : Phase → List Phase
  | planning => []
  | fieldwork => [planning]
  | reporting => [planning, fieldwork]

def AuditStatus.closedGates : AuditStatus → List Phase
  | waitingForScope => []
  | running p | waitingHumanGate p | qaRejected p | error p => p.before
  | completed => [.planning, .fieldwork, .reporting]

def AuditStatus.ofPhase (s : AuditStatus) (p : Phase) : Prop :=
  s = running p ∨ s = waitingHumanGate p ∨ s = qaRejected p ∨ s = error p

namespace AuditFlow

def isApproval (e : StrEntry) : Bool := e.get? (lit "action") = some (lit "gate_approval")

/-- The gates of the approvals in a trail, in order. -/
def approvedGates (trail : List StrEntry) : List (Option Str) :=
  (trail.filter isApproval).map fun e => e.get? (lit "gate")

def gateLabels : List (Option Str) :=
  [Phase.planning, .fieldwork, .reporting].map fun p => some p.gateLabel

/-- The status is mirrored, and the gates approved in the trail are those it closes. -/
structure GateInv (f : AuditFlow) : Prop where
  mirrored : f.Mirrored
  gates : approvedGates f.state.approvalTrail =
    f.machine.status.closedGates.map fun p => some p.gateLabel

variable {rt : Runtime} {env : Env} {f g : AuditFlow} {r : Except Exn Unit} {p : Phase}

theorem approvedGates_append_approval {trail : List StrEntry} {e : StrEntry} {gate human : Str}
    (h : Stamped gate human (lit "gate_approval") e) :
    approvedGates (trail ++ [e]) = approvedGates trail ++ [some gate] := by
  simp [approvedGates, isApproval, h.action, h.gate]

theorem approvedGates_append_other {trail : List StrEntry} {e : StrEntry}
    {gate human action : Str} (h : Stamped gate human action e)
    (hne : action ≠ lit "gate_approval") :
    approvedGates (trail ++ [e]) = approvedGates trail := by
  simp [approvedGates, isApproval, h.action, hne]

theorem closedGates_approvalTarget (p : Phase) :
    (AuditStateMachine.approvalTarget p).closedGates =
      (AuditStatus.waitingHumanGate p).closedGates ++ [p] := by
  cases p <;> rfl

theorem gateInv_fresh (theme businessContext : Str) (frameworks : List Str)
    (sessionId : Option Str) : GateInv (.fresh theme businessContext frameworks sessionId) :=
  ⟨rfl, rfl⟩

/-- What appends one entry other than a gate approval, and stays before the same gate. -/
theorem GateInv.other (hf : GateInv f) {e : StrEntry} {gate human action : Str}
    (he : Stamped gate human action e) (hne : action ≠ lit "gate_approval") (hg : g.Mirrored)
    (htrail : g.state.approvalTrail = f.state.approvalTrail ++ [e])
    (hstatus : g.machine.status.closedGates = f.machine.status.closedGates) : GateInv g := by
  refine ⟨hg, ?_⟩
  rw [htrail, approvedGates_append_other he hne, hstatus]
  exact hf.gates

theorem gateInv_act {a : RecordedAction} (h : act rt env a f = (r, g))
    (hdigest : ∀ c, r ≠ .error (.digest c)) (hf : GateInv f) : GateInv g := by
  rcases act_ok h hdigest with rfl | ⟨k, e, hk, he, rfl⟩
  · exact hf
  cases a with
  | recordPreparer preparedBy required source =>
      exact hf.other he (by simp) hf.mirrored rfl rfl
  | recordDecision req => exact hf.other he (by simp) hf.mirrored rfl rfl
  | approveGate gate humanId source =>
      have hstatus := (checkApproval_eq_ok hk).status
      refine ⟨rfl, ?_⟩
      rw [act_trail, approvedGates_append_approval he, hf.gates, hstatus]
      have htarget := congrArg (List.map fun p => some p.gateLabel)
        (closedGates_approvalTarget gate)
      rw [List.map_append] at htarget
      exact htarget.symm
  | retryPhase phase humanId source =>
      refine hf.other he (by simp) rfl rfl ?_
      rcases (retryAction_check_eq_ok hk).2 with hs | hs
      · rw [hs]
        rfl
      · rw [hs]
        rfl
  | returnForRework phase humanId notes source =>
      refine hf.other he (by simp) rfl rfl ?_
      rw [(checkRework_eq_ok hk).status]
      rfl
  | overrideQaRejection phase humanId reason source =>
      refine hf.other he (by simp) rfl rfl ?_
      rw [(checkOverride_eq_ok hk).status]
      rfl

theorem gateInv_moveTo {s : AuditStatus} (hf : GateInv f) (hg : g.Mirrored)
    (htrail : g.state.approvalTrail = f.state.approvalTrail) (hs : g.machine.status = s)
    (hclosed : s.closedGates = f.machine.status.closedGates) : GateInv g := by
  refine ⟨hg, ?_⟩
  rw [htrail, hs, hclosed]
  exact hf.gates

theorem gateInv_started (hf : GateInv f) : GateInv (started p f) := by
  unfold started
  split
  · rename_i h
    exact gateInv_moveTo hf rfl rfl rfl (by rw [h.2]; rfl)
  · exact hf

theorem gateInv_generate (h : (generate rt env p).exec f = (r, g)) (hf : GateInv f) :
    GateInv g := by
  rcases generate_cases h with ⟨e, -, rfl⟩ | ⟨hs, ks, -, hframe, hend⟩
  · exact hf
  have hf' := gateInv_started (p := p) hf
  have htrail : g.state.approvalTrail = (started p f).state.approvalTrail := by
    rw [hframe.trail]
    unfold started
    split <;> rfl
  cases hend with
  | stuck e _ _ hm hst _ _ =>
      refine gateInv_moveTo hf' ?_ htrail (congrArg _ hm) rfl
      unfold Mirrored
      rw [hm, hst]
      exact hf'.mirrored
  | ended _ _ hmir hcrew =>
      cases hcrew with
      | failed hst _ => exact gateInv_moveTo hf' hmir htrail hst (by rw [hs]; rfl)
      | rejected hst _ _ => exact gateInv_moveTo hf' hmir htrail hst (by rw [hs]; rfl)
      | approved hst _ _ => exact gateInv_moveTo hf' hmir htrail hst (by rw [hs]; rfl)

theorem gateInv_step {c : Call} (hdigest : ∀ cause, (step rt f c).1 ≠ .error (.digest cause))
    (hf : GateInv f) : GateInv (step rt f c).2 := by
  obtain ⟨env, op⟩ := c
  cases op with
  | record a => exact gateInv_act (a := a) (r := (act rt env a f).1) rfl hdigest hf
  | beginPhase1 =>
      rcases exec_beginPhase1 f with ⟨hs, h⟩ | ⟨_, _, h⟩
      · rw [show (step rt f ⟨env, .beginPhase1⟩) = beginPhase1.exec f from rfl, h]
        exact gateInv_moveTo hf rfl rfl rfl (by rw [hs]; rfl)
      · rw [show (step rt f ⟨env, .beginPhase1⟩) = beginPhase1.exec f from rfl, h]
        exact hf
  | generate phase =>
      exact gateInv_generate (r := ((generate rt env phase).exec f).1) rfl hf

theorem gateInv_after {calls : List Call} (hdigest : DigestsSucceed rt f calls)
    (hf : GateInv f) : GateInv (after rt f calls) :=
  LabelledRun.invariant (step rt) (P := fun t => ∀ c, t.result ≠ .error (.digest c))
    (fun _ _ => gateInv_step) hdigest hf

/-! ## What a gate approved stays -/

/-- A phase run works on a phase whose gate is still open. -/
theorem not_closed_of_running (p : Phase) :
    some p.gateLabel ∉ (AuditStatus.running p).closedGates.map fun q => some q.gateLabel := by
  cases p <;> simp [AuditStatus.closedGates, Phase.before, Phase.gateLabel]

theorem storedModel_step {c : Call} (hf : GateInv f)
    (hp : some p.gateLabel ∈ approvedGates f.state.approvalTrail) :
    storedModel (step rt f c).2.state p = storedModel f.state p := by
  obtain ⟨env, op⟩ := c
  cases op with
  | record a => exact (act_artifactFrame (r := (act rt env a f).1) rfl).storedModel p
  | beginPhase1 =>
      rcases exec_beginPhase1 f with ⟨-, h⟩ | ⟨_, _, h⟩
      · rw [show (step rt f ⟨env, .beginPhase1⟩) = beginPhase1.exec f from rfl, h]
        exact storedModel_congr rfl rfl rfl p
      · rw [show (step rt f ⟨env, .beginPhase1⟩) = beginPhase1.exec f from rfl, h]
  | generate q =>
      rcases @generate_cases rt env f _ ((generate rt env q).exec f).1 q rfl with ⟨e, -, h⟩ | ⟨hs, ks, -, hframe, -⟩
      · rw [show (step rt f ⟨env, .generate q⟩).2 = f from h]
      · refine hframe.artifacts p ?_
        rintro rfl
        have hgates := (gateInv_started (p := p) hf).gates
        rw [hs] at hgates
        refine not_closed_of_running p (hgates ▸ ?_)
        unfold started
        split <;> exact hp

theorem approvedGates_step {c : Call} :
    approvedGates f.state.approvalTrail <+: approvedGates (step rt f c).2.state.approvalTrail :=
  ((trail_step f c).filter isApproval).map _

/-- What a gate approved is what every later point of the run has. -/
theorem storedModel_after {calls : List Call} (hdigest : DigestsSucceed rt f calls)
    (hf : GateInv f) (hp : some p.gateLabel ∈ approvedGates f.state.approvalTrail) :
    storedModel (after rt f calls).state p = storedModel f.state p := by
  have hinv := LabelledRun.invariant (step rt)
    (I := fun g => GateInv g ∧ some p.gateLabel ∈ approvedGates g.state.approvalTrail ∧
      storedModel g.state p = storedModel f.state p)
    (P := fun t => ∀ c, t.result ≠ .error (.digest c))
    (fun g c hstep ⟨hg, hmem, hsame⟩ =>
      ⟨gateInv_step hstep hg, approvedGates_step.subset hmem, (storedModel_step hg hmem).trans hsame⟩)
    hdigest ⟨hf, hp, rfl⟩
  exact hinv.2.2

/-! ## The property -/

/-- The gates are approved in order, and the status and its mirror agree with them. -/
structure GateOrder (f : AuditFlow) : Prop where
  ordered : approvedGates f.state.approvalTrail <+: gateLabels
  phase : ∀ p, f.machine.status.ofPhase p →
    (approvedGates f.state.approvalTrail).length = p.number - 1
  completed : f.machine.status = .completed → approvedGates f.state.approvalTrail = gateLabels
  mirrored : f.state.status = f.machine.status.value

theorem closedGates_prefix (s : AuditStatus) :
    (s.closedGates.map fun p => some p.gateLabel) <+: gateLabels := by
  have hbefore : ∀ p : Phase, (p.before.map fun q => some q.gateLabel) <+: gateLabels := by
    intro p
    cases p
    · exact ⟨_, rfl⟩
    · exact ⟨[some Phase.fieldwork.gateLabel, some Phase.reporting.gateLabel], rfl⟩
    · exact ⟨[some Phase.reporting.gateLabel], rfl⟩
  cases s with
  | waitingForScope => exact ⟨_, rfl⟩
  | running p => exact hbefore p
  | waitingHumanGate p => exact hbefore p
  | qaRejected p => exact hbefore p
  | error p => exact hbefore p
  | completed => exact List.prefix_refl _

theorem closedGates_length {s : AuditStatus} {p : Phase} (h : s.ofPhase p) :
    s.closedGates.length = p.number - 1 := by
  rcases h with rfl | rfl | rfl | rfl <;> cases p <;> rfl

theorem GateInv.gateOrder (hf : GateInv f) : GateOrder f where
  ordered := by
    rw [hf.gates]
    exact closedGates_prefix _
  phase p hp := by
    rw [hf.gates, List.length_map]
    exact closedGates_length hp
  completed hs := by
    rw [hf.gates, hs]
    rfl
  mirrored := hf.mirrored

/-- At every point of every run of a fresh flow in which no digest fails, the gates are approved in
order and agree with the status, and what a gate has approved no longer changes. -/
theorem gates_in_order (rt : Runtime) (theme businessContext : Str) (frameworks : List Str)
    (sessionId : Option Str) (calls more : List Call)
    (hdigest : DigestsSucceed rt (.fresh theme businessContext frameworks sessionId)
      (calls ++ more)) :
    GateOrder (after rt (.fresh theme businessContext frameworks sessionId) calls) ∧
      ∀ p, some p.gateLabel ∈ approvedGates
          (after rt (.fresh theme businessContext frameworks sessionId) calls).state.approvalTrail →
        storedModel (after rt (.fresh theme businessContext frameworks sessionId)
            (calls ++ more)).state p =
          storedModel (after rt (.fresh theme businessContext frameworks sessionId) calls).state p := by
  have hinv := gateInv_after hdigest.left (gateInv_fresh theme businessContext frameworks sessionId)
  refine ⟨hinv.gateOrder, ?_⟩
  intro p hp
  rw [after, LabelledRun.final_append]
  exact storedModel_after hdigest.right hinv hp

/-- The gates of an audit whose first gate is approved before its fieldwork runs. -/
theorem gates_in_order_planned :
    GateOrder (after Sample.rt (.fresh (lit "Access") (lit "A bank") [] none) Sample.planned) ∧
      ∀ p, some p.gateLabel ∈ approvedGates
          (after Sample.rt (.fresh (lit "Access") (lit "A bank") [] none)
            Sample.planned).state.approvalTrail →
        storedModel (after Sample.rt (.fresh (lit "Access") (lit "A bank") [] none)
            (Sample.planned ++ [⟨Sample.smallEnv "u4", .generate .fieldwork⟩])).state p =
          storedModel (after Sample.rt (.fresh (lit "Access") (lit "A bank") [] none)
            Sample.planned).state p :=
  gates_in_order Sample.rt (lit "Access") (lit "A bank") [] none Sample.planned
    [⟨Sample.smallEnv "u4", .generate .fieldwork⟩] (by decide +kernel)

end AuditFlow

end AuditSwarm
