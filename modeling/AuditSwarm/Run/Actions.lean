import AuditSwarm.Model.System
import AuditSwarm.Trail.Append

/-!
# What a recorded action can do

Each of the actions that write the approval trail checks, mutates, computes the trail entry and
records it.  This module says so as an equation with a `SealedProc`, so that everything an action
can do to the flow is read off `SealedProc.run_cases`.
-/

namespace AuditSwarm

open Python StrEnum

namespace AuditFlow

variable (rt : Runtime) (env : Env)

/-! ## State changes -/

@[simp] def moveTo (s : AuditStatus) (f : AuditFlow) : AuditFlow :=
  { f with machine := ⟨s⟩, state := { f.state with status := s.value } }

@[simp] def withDossier (text : Str) (f : AuditFlow) : AuditFlow :=
  { f with state := { f.state with currentHumanDossier := text } }

@[simp] def withQaReason (reason : Option Str) (f : AuditFlow) : AuditFlow :=
  { f with state := { f.state with qaRejectionReason := reason } }

attribute [simp] pushEntry

theorem exec_transition (t : AuditStateMachine → Except Exn AuditStateMachine) (f : AuditFlow) :
    (transition t).exec f =
      match t f.machine with
      | .ok m => (.ok (), f.moveTo m.status)
      | .error e => (.error e, f) := by
  unfold transition
  simp only [Proc.exec_get_bind, Proc.exec_ofExcept_bind]
  cases t f.machine <;> rfl

@[simp] theorem exec_setDossier (text : Str) (f : AuditFlow) :
    (setDossier text).exec f = (.ok (), f.withDossier text) := rfl

@[simp] theorem exec_setQaRejectionReason (reason : Option Str) (f : AuditFlow) :
    (setQaRejectionReason reason).exec f = (.ok (), f.withQaReason reason) := rfl

theorem exec_stampTrail (gate human action source timestamp : Str) (extra : StrEntry)
    (f : AuditFlow) :
    (stampTrail rt env gate human action source timestamp extra).exec f =
      match f.stampEntry rt env gate human action source timestamp extra with
      | .ok e => (.ok (), pushEntry e f)
      | .error e => (.error e, f) := by
  unfold stampTrail
  simp only [Proc.exec_get_bind, Proc.exec_ofExcept_bind]
  cases f.stampEntry rt env gate human action source timestamp extra <;> rfl

section
variable {α : Type}

theorem exec_transition_bind (t : AuditStateMachine → Except Exn AuditStateMachine)
    (k : Unit → FlowM α) (f : AuditFlow) :
    (transition t >>= k).exec f =
      match t f.machine with
      | .ok m => (k ()).exec (f.moveTo m.status)
      | .error e => (.error e, f) := by
  rw [Proc.exec_bind, exec_transition]
  cases t f.machine <;> rfl

theorem exec_stampTrail_bind (gate human action source timestamp : Str) (extra : StrEntry)
    (k : Unit → FlowM α) (f : AuditFlow) :
    (stampTrail rt env gate human action source timestamp extra >>= k).exec f =
      match f.stampEntry rt env gate human action source timestamp extra with
      | .ok e => (k ()).exec (pushEntry e f)
      | .error e => (.error e, f) := by
  rw [Proc.exec_bind, exec_stampTrail]
  cases f.stampEntry rt env gate human action source timestamp extra <;> rfl

@[simp] theorem exec_setQaRejectionReason_bind (reason : Option Str) (k : Unit → FlowM α)
    (f : AuditFlow) :
    (setQaRejectionReason reason >>= k).exec f = (k ()).exec (f.withQaReason reason) := rfl

end

/-! ## The actions as sealed procedures -/

/-- A recorded action: what it checks, what it changes before the trail entry is computed, the
fields of that entry, and what it changes once the entry is appended. -/
structure Recorded where
  κ : Type
  check : AuditFlow → Except Exn κ
  mutate : κ → AuditFlow → AuditFlow
  gate : κ → Str
  human : κ → Str
  action : Str
  source : κ → Str
  timestamp : Str
  extra : κ → AuditFlow → Except Exn StrEntry
  conclude : κ → AuditFlow → AuditFlow

/-- The action in four parts: the seal is the trail entry. -/
def Recorded.proc (a : Recorded) : SealedProc AuditFlow Exn a.κ StrEntry where
  check := a.check
  mutate := a.mutate
  sealOf k f := do
    let extra ← a.extra k f
    f.stampEntry rt env (a.gate k) (a.human k) a.action (a.source k) a.timestamp extra
  finish k e f := a.conclude k (pushEntry e f)

def preparerAction (preparedBy : Str) (required : Bool) (source : Str) : Recorded where
  κ := PreparerPlan
  check := checkPreparer preparedBy source
  mutate plan f := { f with state := { f.state with
    preparedBy := plan.preparedBy
    reviewDecisionsRequired := required } }
  gate _ := lit "Audit created"
  human plan := plan.preparedBy
  action := lit "audit_created"
  source plan := plan.source
  timestamp := env.now 0
  extra _ _ := .ok (if required then [(lit "review_decisions_required", lit "true")] else [])
  conclude _ f := f

def decisionAction (req : Decisions.Request) : Recorded where
  κ := ReviewDecision
  check f := Decisions.buildDecision rt f.decisionContext f.machine.status.value f.preparers
    f.state.reviewDecisions req (env.now 0) (env.now 1) env.uuid
  mutate d f := { f with state := { f.state with
    reviewDecisions := f.state.reviewDecisions ++ [d] } }
  gate d := lit "Review decision (" ++ ((Phase.ofNumber? d.phase).map Phase.label).getD [] ++ lit ")"
  human d := d.decidedBy
  action := lit "review_decision"
  source d := value d.identitySource
  timestamp := env.now 2
  extra d _ := do
    let digest ← Trail.artifactDigest rt d.toJson
    return decisionExtra d digest
  conclude _ f := f

def approvalAction (gate : Phase) (humanId source : Str) : Recorded where
  κ := ApprovalPlan
  check := checkApproval rt env gate humanId source
  mutate _ f := f.moveTo (AuditStateMachine.approvalTarget gate)
  gate _ := gate.gateLabel
  human plan := plan.humanId
  action := lit "gate_approval"
  source plan := plan.source
  timestamp := env.now 0
  extra plan f := do
    let digest ← Trail.artifactDigest rt plan.artifact
    return [(lit "artifact", gate.artifactField), (lit "artifact_digest", digest)] ++
      plan.sealedFields ++ f.runProvenanceExtra gate
  conclude plan f := f.withDossier (approvalDossier plan.humanId gate)

def retryAction (phase : Int) (humanId source : Str) : Recorded where
  κ := RetryPlan
  check f := do
    let plan ← checkRetry phase humanId source f
    let _ ← f.machine.retryPhase plan.phase
    return plan
  mutate plan f := f.moveTo (.running plan.phase)
  gate plan := lit "Retry (" ++ plan.phase.label ++ lit ")"
  human plan := plan.humanId
  action := lit "retry"
  source plan := plan.source
  timestamp := env.now 0
  extra plan f := .ok ([(lit "previous_status", plan.previous),
      (lit "previous_reason", f.state.qaRejectionReason.getD [])] ++
    f.runProvenanceExtra plan.phase)
  conclude plan f := f.withDossier (plan.phase.label ++ lit " retry requested by " ++
    plan.humanId ++ lit "; the phase is running again.")

def reworkAction (phase : Int) (humanId notes source : Str) : Recorded where
  κ := ReworkPlan
  check := checkRework rt phase humanId notes source
  mutate plan f := f.moveTo (.running plan.phase)
  gate plan := lit "Return for rework (" ++ plan.phase.label ++ lit ")"
  human plan := plan.humanId
  action := lit "return_for_rework"
  source plan := plan.source
  timestamp := env.now 0
  extra plan f := reworkExtra rt f plan
  conclude plan f := (f.withQaReason none).withDossier (plan.phase.label ++
    lit " returned for rework by " ++ plan.humanId ++ lit ": " ++ plan.notes ++
    lit " The phase is re-running with these review notes.")

def overrideAction (phase : Int) (humanId reason source : Str) : Recorded where
  κ := OverridePlan
  check := checkOverride rt env phase humanId reason source
  mutate plan f := f.moveTo (.waitingHumanGate plan.phase)
  gate plan := lit "QA Override (" ++ plan.phase.label ++ lit ")"
  human plan := plan.humanId
  action := lit "qa_override"
  source plan := plan.source
  timestamp := env.now 0
  extra plan f := .ok (f.overrideExtra plan)
  conclude plan f := (f.withQaReason none).withDossier (plan.phase.label ++
    lit " QA rejection overridden by " ++ plan.humanId ++ lit ": " ++ plan.reason ++ lit "." ++
    (if plan.unverified = [] then []
      else lit " Accepted with unverified evidence for: " ++ join (lit ", ") plan.unverified ++
        lit ".") ++
    lit " Review the artifact before approving the gate.")

def recorded : RecordedAction → Recorded
  | .recordPreparer preparedBy required source => preparerAction env preparedBy required source
  | .recordDecision req => decisionAction rt env req
  | .approveGate gate humanId source => approvalAction rt env gate humanId source
  | .retryPhase phase humanId source => retryAction env phase humanId source
  | .returnForRework phase humanId notes source =>
      reworkAction rt env phase humanId notes source
  | .overrideQaRejection phase humanId reason source =>
      overrideAction rt env phase humanId reason source

section
variable {rt env} {f : AuditFlow} {p : Phase} {target source : AuditStatus}

theorem requireTransition_eq_ok_iff {u : Unit} :
    f.requireTransition target source = .ok u ↔
      f.machine.status = source ∧ target ∈ source.transitions := by
  unfold requireTransition AuditStateMachine.can
  rw [Except.ensure_eq_ok_iff]
  by_cases h : f.machine.status = source
  · simp [h]
  · simp [h]

end

/-! ## What the checks establish -/

section
variable {rt env} {f : AuditFlow}

theorem requireText_eq_ok_iff {v w : Str} {what : String} :
    requireText v what = .ok w ↔ strip v ≠ [] ∧ w = strip v := by
  unfold requireText
  simp only [Except.bind_eq_ok_iff, Except.ensure_eq_ok_iff, Except.pure_eq_ok_iff]
  constructor
  · rintro ⟨-, h, rfl⟩
    exact ⟨h, rfl⟩
  · rintro ⟨h, rfl⟩
    exact ⟨(), h, rfl⟩

theorem identitySource_eq_ok_iff {s t : Str} :
    identitySource s = .ok t ↔ ∃ i : IdentitySource, ofValue? s = some i ∧ t = value i := by
  unfold identitySource
  simp only [Except.bind_eq_ok_iff, Except.orRaise_eq_ok_iff, Except.pure_eq_ok_iff]
  constructor
  · rintro ⟨i, h, rfl⟩
    exact ⟨i, h, rfl⟩
  · rintro ⟨i, h, rfl⟩
    exact ⟨i, h, rfl⟩

@[simp] theorem identitySource_value (i : IdentitySource) :
    identitySource (value i) = .ok (value i) :=
  identitySource_eq_ok_iff.mpr ⟨i, ofValue?_value i, rfl⟩

theorem checkPreparer_eq_ok {preparedBy source : Str} {plan : PreparerPlan}
    (h : checkPreparer preparedBy source f = .ok plan) :
    strip preparedBy ≠ [] ∧ plan.preparedBy = strip preparedBy ∧
      (∃ i : IdentitySource, plan.source = value i) ∧ f.state.preparedBy = [] := by
  unfold checkPreparer at h
  simp only [Except.bind_eq_ok_iff, requireText_eq_ok_iff, identitySource_eq_ok_iff,
    Except.ensure_eq_ok_iff, Except.pure_eq_ok_iff] at h
  obtain ⟨w, ⟨hne, rfl⟩, t, ⟨i, -, rfl⟩, -, hempty, rfl⟩ := h
  exact ⟨hne, rfl, ⟨i, rfl⟩, hempty⟩

/-- What a gate approval has checked. -/
structure Approvable (rt : Runtime) (env : Env) (f : AuditFlow) (gate : Phase)
    (humanId : Str) (plan : ApprovalPlan) : Prop where
  human : plan.humanId = strip humanId
  source : ∃ i : IdentitySource, plan.source = value i
  status : f.machine.status = .waitingHumanGate gate
  sod : f.checkSod rt (lit "gate_approval") plan.humanId (some gate) = .ok ()
  evidence : f.checkEvidenceForGate rt env gate = .ok ()
  artifact : f.state.artifact gate = some plan.artifact
  decisions : f.checkReviewDecisions rt gate = .ok ()

theorem checkApproval_eq_ok {gate : Phase} {humanId source : Str} {plan : ApprovalPlan}
    (h : checkApproval rt env gate humanId source f = .ok plan) :
    Approvable rt env f gate humanId plan := by
  unfold checkApproval at h
  simp only [Except.bind_eq_ok_iff, requireText_eq_ok_iff, identitySource_eq_ok_iff,
    Except.orRaise_eq_ok_iff, Except.pure_eq_ok_iff, requireTransition_eq_ok_iff] at h
  obtain ⟨w, ⟨hne, rfl⟩, t, ⟨i, -, rfl⟩, _, ⟨hstatus, -⟩, _, hsod, _, hev, a, ha, _, hdec,
    sf, -, rfl⟩ := h
  exact ⟨rfl, ⟨i, rfl⟩, hstatus, hsod, hev, ha, hdec⟩

theorem checkRetry_eq_ok {phase : Int} {humanId source : Str} {plan : RetryPlan}
    (h : checkRetry phase humanId source f = .ok plan) :
    Phase.ofNumber? phase = some plan.phase ∧ strip humanId ≠ [] ∧
      plan.humanId = strip humanId ∧ (∃ i : IdentitySource, plan.source = value i) ∧
      plan.previous = f.machine.status.value := by
  unfold checkRetry requirePhase at h
  simp only [Except.bind_eq_ok_iff, requireText_eq_ok_iff, identitySource_eq_ok_iff,
    Except.orRaise_eq_ok_iff, Except.pure_eq_ok_iff] at h
  obtain ⟨p, hp, w, ⟨hne, rfl⟩, t, ⟨i, -, rfl⟩, rfl⟩ := h
  exact ⟨hp, hne, rfl, ⟨i, rfl⟩, rfl⟩

theorem retryAction_check_eq_ok {phase : Int} {humanId source : Str} {plan : RetryPlan}
    (h : (retryAction env phase humanId source).check f = .ok plan) :
    checkRetry phase humanId source f = .ok plan ∧
      (f.machine.status = .qaRejected plan.phase ∨ f.machine.status = .error plan.phase) := by
  unfold retryAction at h
  simp only [Except.bind_eq_ok_iff, Except.pure_eq_ok_iff,
    AuditStateMachine.retryPhase_eq_ok_iff] at h
  obtain ⟨plan', hplan, m, ⟨hstatus, -⟩, rfl⟩ := h
  exact ⟨hplan, hstatus⟩

/-- What a return for rework has checked. -/
structure Returnable (rt : Runtime) (f : AuditFlow) (phase : Int) (humanId notes : Str)
    (plan : ReworkPlan) : Prop where
  phase : Phase.ofNumber? phase = some plan.phase
  human : plan.humanId = strip humanId
  notes : plan.notes = strip notes
  source : ∃ i : IdentitySource, plan.source = value i
  status : f.machine.status = .waitingHumanGate plan.phase
  sod : f.checkSod rt (lit "return_for_rework") plan.humanId none = .ok ()

theorem checkRework_eq_ok {phase : Int} {humanId notes source : Str} {plan : ReworkPlan}
    (h : checkRework rt phase humanId notes source f = .ok plan) :
    Returnable rt f phase humanId notes plan := by
  unfold checkRework requirePhase at h
  simp only [Except.bind_eq_ok_iff, requireText_eq_ok_iff, identitySource_eq_ok_iff,
    Except.orRaise_eq_ok_iff, Except.pure_eq_ok_iff, requireTransition_eq_ok_iff] at h
  obtain ⟨p, hp, w, ⟨-, rfl⟩, n, ⟨-, rfl⟩, t, ⟨i, -, rfl⟩, _, ⟨hstatus, -⟩, _, hsod, rfl⟩ := h
  exact ⟨hp, rfl, rfl, ⟨i, rfl⟩, hstatus, hsod⟩

/-- What a QA override has checked. -/
structure Overridable (rt : Runtime) (env : Env) (f : AuditFlow) (phase : Int)
    (humanId reason : Str) (plan : OverridePlan) : Prop where
  phase : Phase.ofNumber? phase = some plan.phase
  human : plan.humanId = strip humanId
  reason_ne : plan.reason ≠ []
  reason : plan.reason = strip reason
  source : ∃ i : IdentitySource, plan.source = value i
  status : f.machine.status = .qaRejected plan.phase
  sod : f.checkSod rt (lit "qa_override") plan.humanId none = .ok ()
  artifact : ∃ dumped, f.state.artifact plan.phase = some dumped ∧
    Trail.artifactDigest rt dumped = .ok plan.digest
  unverified : (if plan.phase = .fieldwork then f.unverifiedEvidence rt env else .ok []) =
    .ok plan.unverified

theorem checkOverride_eq_ok {phase : Int} {humanId reason source : Str} {plan : OverridePlan}
    (h : checkOverride rt env phase humanId reason source f = .ok plan) :
    Overridable rt env f phase humanId reason plan := by
  unfold checkOverride requirePhase at h
  simp only [Except.bind_eq_ok_iff, requireText_eq_ok_iff, identitySource_eq_ok_iff,
    Except.orRaise_eq_ok_iff, Except.pure_eq_ok_iff, requireTransition_eq_ok_iff] at h
  obtain ⟨p, hp, w, ⟨-, rfl⟩, n, ⟨hn, rfl⟩, t, ⟨i, -, rfl⟩, _, ⟨hstatus, -⟩, _, hsod,
    a, ha, d, hd, u, hu, rfl⟩ := h
  exact ⟨hp, rfl, hn, rfl, ⟨i, rfl⟩, hstatus, hsod, ⟨a, ha, hd⟩, hu⟩

end

@[simp] theorem recorded_action (a : RecordedAction) :
    (recorded rt env a).action =
      match a with
      | .recordPreparer .. => lit "audit_created"
      | .recordDecision .. => lit "review_decision"
      | .approveGate .. => lit "gate_approval"
      | .retryPhase .. => lit "retry"
      | .returnForRework .. => lit "return_for_rework"
      | .overrideQaRejection .. => lit "qa_override" := by
  cases a <;> rfl

/-! ## The equations -/

section
variable {rt env}

theorem exec_recordPreparer (preparedBy : Str) (required : Bool) (source : Str)
    (f : AuditFlow) :
    (recordPreparer rt env preparedBy required source).exec f =
      reported (((preparerAction env preparedBy required source).proc rt env).run f) := by
  unfold recordPreparer reported SealedProc.run Recorded.proc preparerAction
  simp only [Proc.exec_get_bind, Proc.exec_ofExcept_bind]
  cases checkPreparer preparedBy source f with
  | error e => rfl
  | ok plan =>
      simp only [Proc.exec_modify_bind, exec_stampTrail, Except.ok_bind]
      split <;> simp_all [Except.map]

theorem exec_recordDecision (req : Decisions.Request) (f : AuditFlow) :
    (recordDecision rt env req).exec f = ((decisionAction rt env req).proc rt env).run f := by
  unfold recordDecision SealedProc.run Recorded.proc decisionAction
  simp only [Proc.exec_get_bind, Proc.exec_ofExcept_bind]
  cases Decisions.buildDecision rt f.decisionContext f.machine.status.value f.preparers
      f.state.reviewDecisions req (env.now 0) (env.now 1) env.uuid with
  | error e => rfl
  | ok d =>
      simp only [Proc.exec_modify_bind, Proc.exec_ofExcept_bind]
      cases Trail.artifactDigest rt d.toJson with
      | error e => rfl
      | ok digest =>
          simp only [exec_stampTrail_bind, Except.ok_bind, pure_bind]
          split <;> simp_all

theorem exec_approveGate (gate : Phase) (humanId source : Str) (f : AuditFlow) :
    (approveGate rt env gate humanId source).exec f =
      reported (((approvalAction rt env gate humanId source).proc rt env).run f) := by
  unfold approveGate reported SealedProc.run Recorded.proc approvalAction
  simp only [Proc.exec_get_bind, Proc.exec_ofExcept_bind]
  cases hc : checkApproval rt env gate humanId source f with
  | error e => rfl
  | ok plan =>
      have hm : f.machine.approveGate gate = .ok ⟨AuditStateMachine.approvalTarget gate⟩ :=
        AuditStateMachine.approveGate_eq_ok_iff.mpr ⟨(checkApproval_eq_ok hc).status, rfl⟩
      simp only [exec_transition_bind, hm, Proc.exec_get_bind, Proc.exec_ofExcept_bind]
      cases Trail.artifactDigest rt plan.artifact with
      | error e => rfl
      | ok digest =>
          simp only [exec_stampTrail_bind, Except.ok_bind, pure_bind]
          split <;> simp_all [Except.map]

theorem exec_retryPhase (phase : Int) (humanId source : Str) (f : AuditFlow) :
    (retryPhase rt env phase humanId source).exec f =
      reported (((retryAction env phase humanId source).proc rt env).run f) := by
  unfold retryPhase reported SealedProc.run Recorded.proc retryAction
  simp only [Proc.exec_get_bind, Proc.exec_ofExcept_bind]
  cases checkRetry phase humanId source f with
  | error e => rfl
  | ok plan =>
      simp only [exec_transition_bind, Except.ok_bind]
      cases hm : f.machine.retryPhase plan.phase with
      | error e => rfl
      | ok m =>
          obtain ⟨-, rfl⟩ := AuditStateMachine.retryPhase_eq_ok_iff.mp hm
          simp only [Proc.exec_get_bind, exec_stampTrail_bind, Except.ok_bind, pure, Except.pure]
          split <;> simp_all [Except.map]

theorem exec_returnForRework (phase : Int) (humanId notes source : Str) (f : AuditFlow) :
    (returnForRework rt env phase humanId notes source).exec f =
      reported (((reworkAction rt env phase humanId notes source).proc rt env).run f) := by
  unfold returnForRework reported SealedProc.run Recorded.proc reworkAction
  simp only [Proc.exec_get_bind, Proc.exec_ofExcept_bind]
  cases hc : checkRework rt phase humanId notes source f with
  | error e => rfl
  | ok plan =>
      have hm : f.machine.returnForRework plan.phase = .ok ⟨.running plan.phase⟩ :=
        AuditStateMachine.returnForRework_eq_ok_iff.mpr ⟨(checkRework_eq_ok hc).status, rfl⟩
      simp only [exec_transition_bind, hm, Proc.exec_get_bind, Proc.exec_ofExcept_bind]
      cases hx : reworkExtra rt (f.moveTo (.running plan.phase)) plan with
      | error e => rfl
      | ok extra =>
          simp only [exec_stampTrail_bind, Except.ok_bind]
          split <;> simp_all [Except.map]

theorem exec_overrideQaRejection (phase : Int) (humanId reason source : Str) (f : AuditFlow) :
    (overrideQaRejection rt env phase humanId reason source).exec f =
      reported (((overrideAction rt env phase humanId reason source).proc rt env).run f) := by
  unfold overrideQaRejection reported SealedProc.run Recorded.proc overrideAction
  simp only [Proc.exec_get_bind, Proc.exec_ofExcept_bind]
  cases hc : checkOverride rt env phase humanId reason source f with
  | error e => rfl
  | ok plan =>
      have hm : f.machine.overrideQa plan.phase = .ok ⟨.waitingHumanGate plan.phase⟩ :=
        AuditStateMachine.overrideQa_eq_ok_iff.mpr ⟨(checkOverride_eq_ok hc).status, rfl⟩
      simp only [exec_transition_bind, hm, Proc.exec_get_bind, exec_stampTrail_bind,
        Except.ok_bind]
      split <;> simp_all [Except.map]

theorem act_eq (a : RecordedAction) (f : AuditFlow) :
    act rt env a f = reported (((recorded rt env a).proc rt env).run f) := by
  cases a with
  | recordPreparer preparedBy required source => exact exec_recordPreparer ..
  | recordDecision req => exact congrArg reported (exec_recordDecision req f)
  | approveGate gate humanId source => exact exec_approveGate ..
  | retryPhase phase humanId source => exact exec_retryPhase ..
  | returnForRework phase humanId notes source => exact exec_returnForRework ..
  | overrideQaRejection phase humanId reason source => exact exec_overrideQaRejection ..

end

/-! ## The entries they append -/

/-- The fields of an entry besides the extra ones and the hash fields. -/
def commonKeys : List Str :=
  [lit "gate", lit "human", lit "timestamp", lit "action", lit "identity_source"]

/-- An entry with the given gate, human and action. -/
structure Stamped (gate human action : Str) (e : StrEntry) : Prop where
  gate : e.get? (lit "gate") = some gate
  human : e.get? (lit "human") = some human
  action : e.get? (lit "action") = some action

/-- Extra fields that replace no other field, and none of their own. -/
structure Additional (extra : StrEntry) : Prop where
  fresh : ∀ kv ∈ extra, kv.1 ∉ commonKeys ++ Trail.hashFields
  nodup : (extra.map Prod.fst).Nodup

section
variable {rt env} {f g : AuditFlow} {gate human action timestamp : Str} {extra e : StrEntry}

theorem Additional.get?_eq_none (h : Additional extra) {k : Str} (hk : k ∈ commonKeys) :
    extra.get? k = none := by
  cases hget : extra.get? k with
  | none => rfl
  | some v =>
      exact absurd (List.mem_append_left _ hk) (h.fresh _ (Dict.mem_of_get? hget))

theorem stampEntry_eq_ok (i : IdentitySource) (hextra : Additional extra)
    (h : f.stampEntry rt env gate human action (value i) timestamp extra = .ok e) :
    Stamped gate human action e := by
  unfold stampEntry at h
  rw [identitySource_value, Except.ok_bind] at h
  constructor
  · rw [Trail.get?_appendEntry h (by simp [Trail.hashFields]),
      Dict.get?_update_of_get?_eq_none _ (hextra.get?_eq_none (by simp [commonKeys]))]
    simp [Dict.get?]
  · rw [Trail.get?_appendEntry h (by simp [Trail.hashFields]),
      Dict.get?_update_of_get?_eq_none _ (hextra.get?_eq_none (by simp [commonKeys]))]
    simp [Dict.get?]
  · rw [Trail.get?_appendEntry h (by simp [Trail.hashFields]),
      Dict.get?_update_of_get?_eq_none _ (hextra.get?_eq_none (by simp [commonKeys]))]
    simp [Dict.get?]

theorem stampEntry_eq_error (i : IdentitySource) {err : Exn}
    (h : f.stampEntry rt env gate human action (value i) timestamp extra = .error err) :
    ∃ c, err = .digest c := by
  unfold stampEntry at h
  rw [identitySource_value, Except.ok_bind] at h
  exact Trail.appendEntry_eq_error h

/-! ## The extra fields of each action -/

theorem provenance_cases (f : AuditFlow) (p : Phase) :
    f.runProvenanceExtra p = [] ∨ ∃ run, f.latestRunForPhase p = some run ∧
      f.runProvenanceExtra p = [(lit "generation_run_id", run.runId),
        (lit "generation_prompt_fingerprint", run.promptFingerprint),
        (lit "generation_model", run.provider ++ lit "/" ++ run.model)] := by
  unfold runProvenanceExtra
  cases f.latestRunForPhase p with
  | none => exact .inl rfl
  | some run => exact .inr ⟨run, rfl, rfl⟩

theorem sealedFields_cases {gate : Phase} {fields : StrEntry}
    (h : sealedFields rt f gate = .ok fields) :
    fields = [] ∨ ∃ digest, fields = [(lit "decisions_digest", digest),
      (lit "decisions_count", decimal (f.phaseDecisions gate).length)] := by
  unfold sealedFields at h
  split at h
  · cases h
    exact .inl rfl
  · simp only [Except.bind_eq_ok_iff, Except.pure_eq_ok_iff] at h
    obtain ⟨digest, -, rfl⟩ := h
    exact .inr ⟨digest, rfl⟩

theorem checkApproval_sealedFields {gate : Phase} {humanId source : Str} {plan : ApprovalPlan}
    (h : checkApproval rt env gate humanId source f = .ok plan) :
    sealedFields rt f gate = .ok plan.sealedFields := by
  unfold checkApproval at h
  simp only [Except.bind_eq_ok_iff, Except.pure_eq_ok_iff] at h
  obtain ⟨_, -, _, -, _, -, _, -, _, -, _, -, _, -, fields, hfields, rfl⟩ := h
  exact hfields

theorem digestField_cases {artifact : Option Json} {fields : StrEntry}
    (h : digestField rt artifact = .ok fields) :
    fields = [] ∨ ∃ digest, fields = [(lit "artifact_digest", digest)] := by
  unfold digestField at h
  split at h
  · cases h
    exact .inl rfl
  · simp only [Except.bind_eq_ok_iff, Except.pure_eq_ok_iff] at h
    obtain ⟨digest, -, rfl⟩ := h
    exact .inr ⟨digest, rfl⟩

theorem additional_of {extra : StrEntry}
    (h : ∀ k ∈ extra.map Prod.fst, k ∉ commonKeys ++ Trail.hashFields)
    (hnodup : (extra.map Prod.fst).Nodup) : Additional extra :=
  ⟨fun _ hkv => h _ (List.mem_map_of_mem hkv), hnodup⟩

theorem additional_decisionExtra (d : ReviewDecision) (digest : Str) :
    Additional (decisionExtra d digest) := by
  unfold decisionExtra
  cases d.supersedes with
  | none => exact additional_of (by simp [commonKeys, Trail.hashFields]) (by simp)
  | some s =>
      by_cases h : s = []
      · exact additional_of (by simp [h, commonKeys, Trail.hashFields]) (by simp [h])
      · exact additional_of (by simp [h, commonKeys, Trail.hashFields]) (by simp [h])

theorem additional_approvalExtra {gate : Phase} {humanId source : Str} {plan : ApprovalPlan}
    (h : checkApproval rt env gate humanId source f = .ok plan) (digest : Str) :
    Additional ([(lit "artifact", gate.artifactField), (lit "artifact_digest", digest)] ++
      plan.sealedFields ++ g.runProvenanceExtra gate) := by
  rcases sealedFields_cases (checkApproval_sealedFields h) with hs | ⟨d, hs⟩ <;>
    rcases provenance_cases g gate with hp | ⟨run, -, hp⟩ <;> rw [hs, hp] <;>
    exact additional_of (by simp [commonKeys, Trail.hashFields]) (by simp)

theorem additional_retryExtra (p : Phase) (previous reason : Str) :
    Additional ([(lit "previous_status", previous), (lit "previous_reason", reason)] ++
      g.runProvenanceExtra p) := by
  rcases provenance_cases g p with hp | ⟨run, -, hp⟩ <;> rw [hp] <;>
    exact additional_of (by simp [commonKeys, Trail.hashFields]) (by simp)

theorem additional_reworkExtra {plan : ReworkPlan} {extra : StrEntry}
    (h : reworkExtra rt g plan = .ok extra) : Additional extra := by
  unfold reworkExtra at h
  simp only [Except.bind_eq_ok_iff, Except.pure_eq_ok_iff] at h
  obtain ⟨fields, hfields, rfl⟩ := h
  rcases digestField_cases hfields with hd | ⟨digest, hd⟩ <;>
    rcases provenance_cases g plan.phase with hp | ⟨run, -, hp⟩ <;> rw [hd, hp] <;>
    exact additional_of (by simp [commonKeys, Trail.hashFields]) (by simp)

theorem additional_overrideExtra (plan : OverridePlan) : Additional (g.overrideExtra plan) := by
  unfold overrideExtra
  by_cases hu : plan.unverified = [] <;>
    rcases provenance_cases g plan.phase with hp | ⟨run, -, hp⟩ <;> rw [hp] <;>
    exact additional_of (by simp [hu, commonKeys, Trail.hashFields]) (by simp [hu])

theorem digestField_eq_error {artifact : Option Json} {err : Exn}
    (h : digestField rt artifact = .error err) : ∃ c, err = .digest c := by
  unfold digestField at h
  split at h
  · cases h
  · rcases Except.bind_eq_error_iff.mp h with h | ⟨_, -, h⟩
    · exact ⟨_, (Trail.artifactDigest_eq_error h).1⟩
    · cases h

variable {a : RecordedAction}

/-- The identity source of an action that passed its checks is one of the known ones. -/
theorem source_of_check {k : (recorded rt env a).κ} (hk : (recorded rt env a).check f = .ok k) :
    ∃ i : IdentitySource, (recorded rt env a).source k = value i := by
  cases a with
  | recordPreparer preparedBy required source => exact (checkPreparer_eq_ok hk).2.2.1
  | recordDecision req => exact ⟨_, rfl⟩
  | approveGate gate humanId source => exact (checkApproval_eq_ok hk).source
  | retryPhase phase humanId source =>
      exact (checkRetry_eq_ok (retryAction_check_eq_ok hk).1).2.2.2.1
  | returnForRework phase humanId notes source => exact (checkRework_eq_ok hk).source
  | overrideQaRejection phase humanId reason source => exact (checkOverride_eq_ok hk).source

/-- The extra fields of an action that passed its checks fail only where a digest does. -/
theorem extra_cases {k : (recorded rt env a).κ} (hk : (recorded rt env a).check f = .ok k)
    (g : AuditFlow) :
    (∃ c, (recorded rt env a).extra k g = .error (.digest c)) ∨
      ∃ x, (recorded rt env a).extra k g = .ok x ∧ Additional x := by
  cases a with
  | recordPreparer preparedBy required source =>
      refine .inr ⟨_, rfl, ?_⟩
      cases required
      · exact additional_of (by simp) (by simp)
      · exact additional_of (by simp [commonKeys, Trail.hashFields]) (by simp)
  | recordDecision req =>
      simp only [recorded, decisionAction]
      cases hd : Trail.artifactDigest rt k.toJson with
      | error err =>
          obtain rfl := (Trail.artifactDigest_eq_error hd).1
          exact .inl ⟨_, rfl⟩
      | ok digest => exact .inr ⟨_, rfl, additional_decisionExtra k digest⟩
  | approveGate gate humanId source =>
      simp only [recorded, approvalAction]
      cases hd : Trail.artifactDigest rt k.artifact with
      | error err =>
          obtain rfl := (Trail.artifactDigest_eq_error hd).1
          exact .inl ⟨_, rfl⟩
      | ok digest => exact .inr ⟨_, rfl, additional_approvalExtra hk digest⟩
  | retryPhase phase humanId source => exact .inr ⟨_, rfl, additional_retryExtra _ _ _⟩
  | returnForRework phase humanId notes source =>
      simp only [recorded, reworkAction]
      cases hx : reworkExtra rt g k with
      | ok extra => exact .inr ⟨_, rfl, additional_reworkExtra hx⟩
      | error err =>
          unfold reworkExtra at hx
          rcases Except.bind_eq_error_iff.mp hx with hd | ⟨_, -, hd⟩
          · obtain ⟨c, rfl⟩ := digestField_eq_error hd
            exact .inl ⟨c, rfl⟩
          · cases hd
  | overrideQaRejection phase humanId reason source =>
      exact .inr ⟨_, rfl, additional_overrideExtra k⟩

/-- The seal of an action that passed its checks fails only where a digest does, and otherwise
is an entry of the action. -/
theorem sealOf_cases {k : (recorded rt env a).κ} (hk : (recorded rt env a).check f = .ok k)
    (g : AuditFlow) :
    (∃ c, ((recorded rt env a).proc rt env).sealOf k g = .error (.digest c)) ∨
      ∃ e, ((recorded rt env a).proc rt env).sealOf k g = .ok e ∧
        Stamped ((recorded rt env a).gate k) ((recorded rt env a).human k)
          (recorded rt env a).action e := by
  obtain ⟨i, hi⟩ := source_of_check hk
  simp only [Recorded.proc, hi]
  rcases extra_cases hk g with ⟨c, hc⟩ | ⟨x, hx, hadd⟩
  · exact .inl ⟨c, by rw [hc]; rfl⟩
  · rw [hx, Except.ok_bind]
    cases h : g.stampEntry rt env ((recorded rt env a).gate k) ((recorded rt env a).human k)
        (recorded rt env a).action (value i) (recorded rt env a).timestamp x with
    | error err =>
        obtain ⟨c, rfl⟩ := stampEntry_eq_error i h
        exact .inl ⟨c, rfl⟩
    | ok e => exact .inr ⟨e, rfl, stampEntry_eq_ok i hadd h⟩

/-- Everything a recorded action can do: a check refuses and nothing changes, the digest of the
entry fails after the mutation, or the entry is appended. -/
theorem act_cases {r : Except Exn Unit} (h : act rt env a f = (r, g)) :
    (∃ err, (recorded rt env a).check f = .error err ∧ r = .error err ∧ g = f) ∨
    (∃ k c, (recorded rt env a).check f = .ok k ∧ r = .error (.digest c) ∧
      g = (recorded rt env a).mutate k f) ∨
    (∃ k e, (recorded rt env a).check f = .ok k ∧
      Stamped ((recorded rt env a).gate k) ((recorded rt env a).human k)
        (recorded rt env a).action e ∧
      r = .ok () ∧
      g = (recorded rt env a).conclude k (pushEntry e ((recorded rt env a).mutate k f))) := by
  rw [act_eq] at h
  obtain ⟨rfl, rfl⟩ := Prod.mk.inj h
  set proc := (recorded rt env a).proc rt env with hproc
  rcases SealedProc.run_cases (a := proc) (s := f) (r := (proc.run f).1) (t := (proc.run f).2)
      rfl with ⟨err, hcheck, hr, hs⟩ | ⟨k, err, hcheck, hseal, hr, hs⟩ |
        ⟨k, e, hcheck, hseal, hr, hs⟩
  · exact .inl ⟨err, hcheck, by rw [hr]; rfl, hs⟩
  · rcases sealOf_cases hcheck (proc.mutate k f) with ⟨c, hc⟩ | ⟨e, he, -⟩
    · obtain rfl : err = .digest c := Except.error.inj (hseal.symm.trans hc)
      exact .inr (.inl ⟨k, c, hcheck, by rw [hr]; rfl, hs⟩)
    · cases hseal.symm.trans he
  · rcases sealOf_cases hcheck (proc.mutate k f) with ⟨c, hc⟩ | ⟨e', he, hst⟩
    · cases hseal.symm.trans hc
    · obtain rfl : e = e' := Except.ok.inj (hseal.symm.trans he)
      exact .inr (.inr ⟨k, e, hcheck, hst, by rw [hr]; rfl, hs⟩)

end

end AuditFlow

end AuditSwarm
