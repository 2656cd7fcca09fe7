import AuditSwarm.Lib.Proc
import AuditSwarm.Python.Runtime

/-!
# Audit lifecycle

The statuses of `state/machine.py`, the table of allowed transitions and the transitions of
`AuditStateMachine`, together with the exceptions the flow raises.
-/

namespace AuditSwarm

open Python

/-- The three phases of an audit, each closed by the human gate of the same number. -/
inductive Phase where
  | planning
  | fieldwork
  | reporting
  deriving DecidableEq, Repr

namespace Phase

def number : Phase → Nat
  | planning => 1
  | fieldwork => 2
  | reporting => 3

/-- `phase in _PHASE_LABELS`. -/
def ofNumber? (n : Int) : Option Phase :=
  if n = 1 then some planning
  else if n = 2 then some fieldwork
  else if n = 3 then some reporting
  else none

/-- `_PHASE_LABELS` -/
def label : Phase → Str
  | planning => lit "Planning"
  | fieldwork => lit "Fieldwork"
  | reporting => lit "Reporting"

def gateLabel : Phase → Str
  | planning => lit "Gate 1 (Planning)"
  | fieldwork => lit "Gate 2 (Fieldwork)"
  | reporting => lit "Gate 3 (Reporting)"

def artifactField : Phase → Str
  | planning => lit "racm_plan"
  | fieldwork => lit "working_papers"
  | reporting => lit "final_report"

/-- `str(phase)` -/
def digits : Phase → Str
  | planning => lit "1"
  | fieldwork => lit "2"
  | reporting => lit "3"

theorem gateLabel_injective : Function.Injective gateLabel := by
  intro p q h
  cases p <;> cases q <;> first | rfl | simp [gateLabel] at h

end Phase

inductive AuditStatus where
  | waitingForScope
  | running (p : Phase)
  | waitingHumanGate (p : Phase)
  | qaRejected (p : Phase)
  | error (p : Phase)
  | completed
  deriving DecidableEq, Repr

namespace AuditStatus

/-- The text of a status, as stored in `state.status`. -/
def value : AuditStatus → Str
  | waitingForScope => lit "WAITING_FOR_SCOPE"
  | running p => lit "RUNNING_PHASE_" ++ p.digits
  | waitingHumanGate p => lit "WAITING_HUMAN_GATE_" ++ p.digits
  | qaRejected p => lit "QA_REJECTED_PHASE_" ++ p.digits
  | error p => lit "ERROR_PHASE_" ++ p.digits
  | completed => lit "COMPLETED"

def transitions : AuditStatus → List AuditStatus
  | waitingForScope => [running .planning]
  | running p => [waitingHumanGate p, qaRejected p, error p]
  | waitingHumanGate .planning => [running .fieldwork, running .planning]
  | waitingHumanGate .fieldwork => [running .reporting, running .fieldwork]
  | waitingHumanGate .reporting => [completed, running .reporting]
  | qaRejected p => [running p, waitingHumanGate p]
  | error p => [running p]
  | completed => []

def members : List AuditStatus :=
  [waitingForScope, completed] ++ [Phase.planning, .fieldwork, .reporting].flatMap
    fun p => [running p, waitingHumanGate p, qaRejected p, error p]

theorem mem_members (a : AuditStatus) : a ∈ members := by
  rcases a with _ | p | p | p | p | _ <;> first | decide | (cases p <;> decide)

theorem value_injective : Function.Injective value := by
  have h : ∀ a ∈ members, ∀ b ∈ members, a.value = b.value → a = b := by decide +kernel
  exact fun a b => h a (mem_members a) b (mem_members b)

end AuditStatus

/-- One reviewer decision a gate still needs (`MissingDecision`). -/
structure MissingDecision where
  gate : Nat
  subjectType : Str
  subjectId : Str
  required : List Str
  reason : Str
  deriving DecidableEq

/-- Why a trail digest could not be computed. -/
inductive DigestError where
  /-- `binascii.Error`: the key is not Base64. -/
  | binascii (msg : Str)
  /-- `UnicodeEncodeError`: the text has no UTF-8 encoding. -/
  | unicodeEncode
  deriving DecidableEq

/-- Exceptions.  `digest` is what key derivation and canonical encoding raise, `other` anything
raised by code outside the flow. -/
inductive Exn where
  | valueError (msg : Str)
  | runtimeError (msg : Str)
  | typeError (msg : Str)
  | invalidTransition (current target : AuditStatus)
  | segregationOfDuties (msg : Str)
  | unverifiedEvidence (msg : Str)
  | missingReviewDecisions (msg : Str) (missing : List MissingDecision)
  | phaseArtifactMissing (msg : Str)
  | decisionValidation (msg : Str)
  | decisionConflict (msg : Str)
  | sameFamilyBias (msg : Str)
  | validation (msg : Str)
  | keyError (arg : Str)
  | digest (cause : DigestError)
  | other (className msg : Str)
  deriving DecidableEq

namespace Exn

/-- `str(exc)` -/
def text (rt : Runtime) : Exn → Str
  | valueError msg | runtimeError msg | typeError msg | segregationOfDuties msg
  | unverifiedEvidence msg | missingReviewDecisions msg _ | phaseArtifactMissing msg
  | decisionValidation msg | decisionConflict msg | sameFamilyBias msg | validation msg
  | other _ msg | digest (.binascii msg) => msg
  | invalidTransition current target =>
      lit "Invalid transition: " ++ current.value ++ lit " → " ++ target.value
  | keyError arg => rt.reprStr arg
  | digest .unicodeEncode => lit "'utf-8' codec can't encode: surrogates not allowed"

end Exn

/-! ## The state machine -/

structure AuditStateMachine where
  status : AuditStatus
  deriving DecidableEq

namespace AuditStateMachine

/-- `can(target, *sources)` -/
def can (m : AuditStateMachine) (target : AuditStatus) (sources : List AuditStatus) : Bool :=
  if !sources.isEmpty && !sources.contains m.status then false
  else m.status.transitions.contains target

/-- `_transition(target, *sources)` -/
def transition (m : AuditStateMachine) (target : AuditStatus) (sources : List AuditStatus) :
    Except Exn AuditStateMachine :=
  if m.can target sources then .ok ⟨target⟩ else .error (.invalidTransition m.status target)

def startPhase1 (m : AuditStateMachine) : Except Exn AuditStateMachine :=
  m.transition (.running .planning) [.waitingForScope]

def completePhase (m : AuditStateMachine) (p : Phase) : Except Exn AuditStateMachine :=
  m.transition (.waitingHumanGate p) [.running p]

def rejectPhase (m : AuditStateMachine) (p : Phase) : Except Exn AuditStateMachine :=
  m.transition (.qaRejected p) [.running p]

def errorPhase (m : AuditStateMachine) (p : Phase) : Except Exn AuditStateMachine :=
  m.transition (.error p) [.running p]

def retryPhase (m : AuditStateMachine) (p : Phase) : Except Exn AuditStateMachine :=
  m.transition (.running p) [.qaRejected p, .error p]

def returnForRework (m : AuditStateMachine) (p : Phase) : Except Exn AuditStateMachine :=
  m.transition (.running p) [.waitingHumanGate p]

def overrideQa (m : AuditStateMachine) (p : Phase) : Except Exn AuditStateMachine :=
  m.transition (.waitingHumanGate p) [.qaRejected p]

/-- The status a gate approval leads to: `RUNNING_PHASE_2`, `RUNNING_PHASE_3`, `COMPLETED`. -/
def approvalTarget : Phase → AuditStatus
  | .planning => .running .fieldwork
  | .fieldwork => .running .reporting
  | .reporting => .completed

def approveGate (m : AuditStateMachine) (p : Phase) : Except Exn AuditStateMachine :=
  m.transition (approvalTarget p) [.waitingHumanGate p]

/-- A named transition goes through exactly from one of its sources, when the table has it. -/
theorem transition_eq_ok_iff {m m' : AuditStateMachine} {target : AuditStatus}
    {sources : List AuditStatus} (hne : sources ≠ [])
    (htable : ∀ s ∈ sources, target ∈ s.transitions) :
    m.transition target sources = .ok m' ↔ m.status ∈ sources ∧ m' = ⟨target⟩ := by
  have hempty : sources.isEmpty = false := by
    cases sources with
    | nil => exact absurd rfl hne
    | cons s ss => rfl
  unfold transition can
  by_cases h : m.status ∈ sources
  · simp [hempty, h, htable _ h, eq_comm]
  · simp [hempty, h]

theorem transition_eq_error {m : AuditStateMachine} {target : AuditStatus}
    {sources : List AuditStatus} {e : Exn} (h : m.transition target sources = .error e) :
    e = .invalidTransition m.status target := by
  unfold transition at h
  split at h
  · cases h
  · exact (Except.error.inj h).symm

section
variable {m m' : AuditStateMachine} {p : Phase}

theorem startPhase1_eq_ok_iff :
    m.startPhase1 = .ok m' ↔ m.status = .waitingForScope ∧ m' = ⟨.running .planning⟩ := by
  rw [startPhase1, transition_eq_ok_iff (by simp) (by simp [AuditStatus.transitions])]
  simp

theorem completePhase_eq_ok_iff :
    m.completePhase p = .ok m' ↔ m.status = .running p ∧ m' = ⟨.waitingHumanGate p⟩ := by
  rw [completePhase, transition_eq_ok_iff (by simp) (by simp [AuditStatus.transitions])]
  simp

theorem rejectPhase_eq_ok_iff :
    m.rejectPhase p = .ok m' ↔ m.status = .running p ∧ m' = ⟨.qaRejected p⟩ := by
  rw [rejectPhase, transition_eq_ok_iff (by simp) (by simp [AuditStatus.transitions])]
  simp

theorem errorPhase_eq_ok_iff :
    m.errorPhase p = .ok m' ↔ m.status = .running p ∧ m' = ⟨.error p⟩ := by
  rw [errorPhase, transition_eq_ok_iff (by simp) (by simp [AuditStatus.transitions])]
  simp

theorem retryPhase_eq_ok_iff :
    m.retryPhase p = .ok m' ↔
      (m.status = .qaRejected p ∨ m.status = .error p) ∧ m' = ⟨.running p⟩ := by
  rw [retryPhase, transition_eq_ok_iff (by simp) (by simp [AuditStatus.transitions])]
  simp

theorem returnForRework_eq_ok_iff :
    m.returnForRework p = .ok m' ↔ m.status = .waitingHumanGate p ∧ m' = ⟨.running p⟩ := by
  rw [returnForRework, transition_eq_ok_iff (by simp) (by cases p <;> simp [AuditStatus.transitions])]
  simp

theorem overrideQa_eq_ok_iff :
    m.overrideQa p = .ok m' ↔ m.status = .qaRejected p ∧ m' = ⟨.waitingHumanGate p⟩ := by
  rw [overrideQa, transition_eq_ok_iff (by simp) (by simp [AuditStatus.transitions])]
  simp

theorem approveGate_eq_ok_iff :
    m.approveGate p = .ok m' ↔ m.status = .waitingHumanGate p ∧ m' = ⟨approvalTarget p⟩ := by
  rw [approveGate, transition_eq_ok_iff (by simp) (by cases p <;> simp [AuditStatus.transitions, approvalTarget])]
  simp

end

end AuditStateMachine

end AuditSwarm
