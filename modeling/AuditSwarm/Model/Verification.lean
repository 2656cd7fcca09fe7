import AuditSwarm.Model.Anchors
import AuditSwarm.Model.Repository

/-!
# Verification of a session

`AuditFlow.verify_trail` of `audit_flow.py`: the trail of a flow against its own artifacts and
decisions.
-/

namespace AuditSwarm

open Python

namespace AuditFlow

def artifacts (f : AuditFlow) : Dict Str Json :=
  [Phase.planning, .fieldwork, .reporting].map fun p =>
    (p.artifactField, Json.ofOption id (f.state.artifact p))

def verifyTrail (rt : Runtime) (environ : Environ) (f : AuditFlow) (anchor : Trail.Anchor) :
    Except Exn Trail.Verification :=
  Trail.verifyTrail rt environ (f.state.approvalTrail.map StrEntry.toEntry) anchor
    (some f.artifacts) (some (f.state.reviewDecisions.map ReviewDecision.toJson))

variable {f : AuditFlow} {p : Phase} {artifact : Json}

theorem artifacts_get? (h : f.state.artifact p = some artifact) :
    f.artifacts.get? p.artifactField = some artifact := by
  have hget : f.artifacts.get? p.artifactField = some (Json.ofOption id (f.state.artifact p)) := by
    cases p <;> rfl
  rw [hget, h]
  rfl

theorem artifact_ne_null (h : f.state.artifact p = some artifact) : artifact ≠ .null := by
  rintro rfl
  cases p with
  | planning =>
      rcases Option.map_eq_some_iff.mp h with ⟨m, -, hm⟩
      cases hm
  | fieldwork =>
      rcases Option.map_eq_some_iff.mp h with ⟨m, -, hm⟩
      cases hm
  | reporting =>
      rcases Option.map_eq_some_iff.mp h with ⟨m, -, hm⟩
      cases hm

end AuditFlow

end AuditSwarm
