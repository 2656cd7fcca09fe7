import AuditSwarm.Model.OscalRisks
import AuditSwarm.Model.Verification

/-!
# The review state of an exported file

`ExportContext` of `exports.py`, and the part of `routers/exports.py` that comes before a file is
made: the flow is loaded, and its trail is verified.
-/

namespace AuditSwarm

open Python

namespace Exports

/-- `ExportContext.artifact_state` -/
def artifactState (status : Str) (phase : Phase) : Str :=
  let n := phase.digits
  if status = lit "QA_REJECTED_PHASE_" ++ n then lit "DRAFT REJECTED BY QA — not approved"
  else if status = lit "RUNNING_PHASE_" ++ n ∨ status = lit "ERROR_PHASE_" ++ n then
    lit "Previous draft — this phase is being re-run or failed"
  else if status = lit "WAITING_HUMAN_GATE_" ++ n then
    lit "Awaiting human approval at Gate " ++ n
  else lit "Approved at Gate " ++ n

/-- Why no file is made. -/
inductive ExportRefused where
  /-- 404 -/
  | noSession
  /-- 404 -/
  | noArtifacts
  /-- 409, with the status the verification found -/
  | tampered (status : Trail.Status)
  | raised (e : Exn)
  deriving DecidableEq

def verifiedTrail (rt : Runtime) (environ : Environ) (f : AuditFlow) (anchor : Trail.Anchor) :
    Except ExportRefused Trail.Verification := do
  let v ← (f.verifyTrail rt environ anchor).mapError ExportRefused.raised
  Except.ensure (v.status ∉ Trail.tamperStatuses) (.tampered v.status)
  return v

/-- The flow `_load` exports, given what `get_flow` returns: the live flow, else the stored one. -/
def exportedFlow (rt : Runtime) (co : Coercions) (env : Env) (sessions : Sessions) (id : Str) :
    Option AuditFlow → Except Exn (Option AuditFlow)
  | some f => .ok (some f)
  | none => (FlowRepository.load rt co env sessions id).map (Option.map LoadResult.flow)

/-- `_load`, given what `get_flow` returns -/
def load (rt : Runtime) (co : Coercions) (env : Env) (sessions : Sessions) (anchors : AnchorsFile)
    (live : Option AuditFlow) (id : Str) : Except ExportRefused (AuditFlow × Trail.Verification) := do
  let _ ← Except.orRaise ((sessions.get? id).filter (· ≠ [])) ExportRefused.noSession
  let flow ← (exportedFlow rt co env sessions id live).mapError ExportRefused.raised
  let found ← Except.orRaise flow ExportRefused.noArtifacts
  let v ← verifiedTrail rt env.environ found (anchors.getTrailAnchor id)
  return (found, v)

end Exports

end AuditSwarm
