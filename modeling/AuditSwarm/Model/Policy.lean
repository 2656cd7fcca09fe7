import AuditSwarm.Model.Trail

/-!
# Review policy

`review_policy.py`: when two declared identities are the same person, who may perform which
review action or record which decision, and what a gate needs.
-/

namespace AuditSwarm

open Python StrEnum

namespace Policy

variable (rt : Runtime)

def preparerExcludedActions : List Str :=
  [lit "gate_approval", lit "qa_override", lit "return_for_rework"]

def distinctApproverGates : Phase → List Phase
  | .reporting => [.fieldwork]
  | _ => []

def normaliseIdentity (value : Option Str) : Str :=
  match value with
  | none => []
  | some s => rt.casefold (join (lit " ") (words s))

def samePerson (a b : Option Str) : Bool :=
  normaliseIdentity rt a ≠ [] && normaliseIdentity rt a = normaliseIdentity rt b

def gateApprover (trail : List StrEntry) (gate : Phase) : Option Str :=
  ((trail.filter fun e => e.get? (lit "action") = some (lit "gate_approval") &&
    e.get? (lit "gate") = some gate.gateLabel).getLast?).bind fun e => e.get? (lit "human")

def sodViolation (action humanId : Str) (preparedBy : Option Str) (trail : List StrEntry)
    (gate : Option Phase) : Option Str :=
  if preparerExcludedActions.contains action && samePerson rt (some humanId) preparedBy then
    some (lit "Segregation of duties: '" ++ humanId ++
      lit "' prepared this audit and cannot perform '" ++ action ++
      lit "' on it. A different reviewer must act.")
  else
    match gate with
    | none => none
    | some g =>
        if action = lit "gate_approval" then
          ((distinctApproverGates g).find? fun other =>
            samePerson rt (some humanId) (gateApprover trail other)).map fun other =>
              lit "Segregation of duties: '" ++ humanId ++ lit "' approved " ++
              other.gateLabel ++ lit ", so " ++ g.gateLabel ++
              lit " must be approved by someone else."
        else none

/-! ## Reviewer decisions -/

def preparerExcludedDecisions : List DecisionType :=
  [.signOff, .challenge, .classify, .scopeLimitation, .engagementConclusion,
    .remediationVerification]

def decisionRecordableStatuses : DecisionType → List AuditStatus
  | .signOff | .challenge => [.waitingHumanGate .fieldwork]
  | .classify | .scopeLimitation | .engagementConclusion | .writeup =>
      [.waitingHumanGate .reporting]
  | .managementResponse => [.completed, .waitingHumanGate .reporting]
  | .remediationVerification => [.completed]

def rationaleAlwaysRequired : List DecisionType :=
  [.challenge, .scopeLimitation, .engagementConclusion, .remediationVerification]

def conclusionDowngradeTarget : Str := lit "Not tested"

def conclusionDowngradeFrom : List Str := [lit "Effective"]

def engagementConclusionScale : List Str :=
  [lit "Satisfactory", lit "Needs improvement", lit "Unsatisfactory"]

def gate2ReviewExceptions : Bool := true
def gate2ReviewKeyControls : Bool := true
def gate3ClassifyEveryDeficiency : Bool := true
def gate3EngagementConclusion : Bool := true
def gate3ScopeLimitationForUntestedKeyControls : Bool := true

def decisionSodViolation (dtype : DecisionType) (humanId preparedBy : Str) : Option Str :=
  if preparerExcludedDecisions.contains dtype && samePerson rt (some humanId) (some preparedBy) then
    some (lit "Segregation of duties: '" ++ humanId ++
      lit "' prepared this audit and cannot record a '" ++ value dtype ++
      lit "' decision on it. A reviewer must.")
  else none

def decisionStatusViolation (dtype : DecisionType) (status : Str) : Option Str :=
  let allowed := (decisionRecordableStatuses dtype).map AuditStatus.value
  if allowed.contains status then none
  else some (lit "A '" ++ value dtype ++
    lit "' decision can only be recorded while the audit is " ++ join (lit " or ") allowed ++
    lit "; it is " ++ status ++ lit ".")

def conclusionChangeAllowed (draft new : Str) : Bool :=
  new = draft || (new = conclusionDowngradeTarget && conclusionDowngradeFrom.contains draft)

def findingNeedsReview (result : Str) (keyControl : Option Bool) : Bool :=
  (gate2ReviewExceptions && result = lit "Exception") ||
    (gate2ReviewKeyControls && keyControl.getD false)

def findingNeedsScopeLimitation (effectiveResult : Str) (keyControl : Option Bool) : Bool :=
  gate3ScopeLimitationForUntestedKeyControls && keyControl.getD false &&
    effectiveResult = lit "Not tested"

def classificationDiffers (draft new : Dict Str Str) : Bool :=
  [lit "classification", lit "likelihood", lit "magnitude"].any fun k =>
    new.getD k [] ≠ draft.getD k []

def managementResponseNeedsRebuttal (agreement : Str) : Bool := agreement = lit "disagree"

def managementResponseNeedsActionPlan (agreement : Str) : Bool :=
  agreement = lit "agree" || agreement = lit "partial"

/-! ## Identities -/

variable {rt}

@[simp] theorem normaliseIdentity_strip (s : Str) :
    normaliseIdentity rt (some (strip s)) = normaliseIdentity rt (some s) := by
  simp [normaliseIdentity]

/-- An action the preparer is excluded from is refused for every spelling of the preparer. -/
theorem sodViolation_of_preparer {action humanId : Str} {preparedBy : Option Str}
    {trail : List StrEntry} {gate : Option Phase} (ha : action ∈ preparerExcludedActions)
    (h : sodViolation rt action humanId preparedBy trail gate = none) :
    samePerson rt (some humanId) preparedBy = false := by
  by_contra hsame
  rw [Bool.not_eq_false] at hsame
  simp [sodViolation, ha, hsame] at h

/-- A gate approval that is not refused is by someone other than the approver of each gate its
gate must differ from. -/
theorem sodViolation_of_approver {humanId : Str} {preparedBy : Option Str}
    {trail : List StrEntry} {gate other : Phase} (hother : other ∈ distinctApproverGates gate)
    (h : sodViolation rt (lit "gate_approval") humanId preparedBy trail (some gate) = none) :
    samePerson rt (some humanId) (gateApprover trail other) = false := by
  unfold sodViolation at h
  split at h
  · cases h
  · simp only [if_true, Option.map_eq_none_iff, List.find?_eq_none] at h
    simpa using h other hother

/-- A decision of a type the preparer is excluded from is refused for every spelling of the
preparer. -/
theorem decisionSodViolation_of_preparer {dtype : DecisionType} {humanId preparedBy : Str}
    (ht : dtype ∈ preparerExcludedDecisions)
    (h : decisionSodViolation rt dtype humanId preparedBy = none) :
    samePerson rt (some humanId) (some preparedBy) = false := by
  by_contra hsame
  rw [Bool.not_eq_false] at hsame
  simp [decisionSodViolation, ht, hsame] at h

end Policy

end AuditSwarm
