import AuditSwarm.Model.OscalResults

/-!
# Drift between two documents

`evaluate_oscal_drift` of `oscal_ar.py`: what changed between the assessment results of a baseline
and those of a target.
-/

namespace AuditSwarm

open Python

namespace Oscal

/-- A dictionary filled pair by pair; a later pair with the same key overwrites. -/
def overwriting (pairs : List (Str × Str)) : Dict Str Str :=
  pairs.foldl (fun out kv => out.set kv.1 kv.2) []

def findingsMap (d : Document) : Dict Str Str :=
  match d.results with
  | [] => []
  | r :: _ => overwriting ((r.findings.map fun f => (f.target.targetId, f.target.status.state)).filter
      fun kv => kv.1 ≠ [] ∧ kv.2 ≠ [])

def propValue (ps : List Property) (name : Str) : Option Str :=
  (ps.reverse.find? fun p => p.name = name).map Property.value

/-- `props.get("deficiency-id") or r.get("title") or ""` -/
def riskName (r : DocumentRisk) : Str :=
  match propValue r.props (lit "deficiency-id") with
  | none => r.title
  | some v => if v = [] then r.title else v

def risksMap (d : Document) : Dict Str Str :=
  match d.results with
  | [] => []
  | r :: _ => overwriting ((r.risks.map fun k => (riskName k, k.status)).filter fun kv => kv.1 ≠ [])

structure DriftReport where
  passed : Bool
  regressedControls : List Str
  improvedControls : List Str
  remediatedRisks : List Str
  newOpenRisks : List Str

/-- The keys of a map whose entry passes a test, sorted. -/
def keysWhere (m : Dict Str Str) (p : Str → Str → Bool) : List Str :=
  ((m.filter fun kv => p kv.1 kv.2).map Prod.fst).insertionSort (· ≤ ·)

def evaluateOscalDrift (baseline target : Document) : DriftReport :=
  let satisfied := lit "satisfied"
  let notSatisfied := lit "not-satisfied"
  let baseF := findingsMap baseline
  let targF := findingsMap target
  let regressed := keysWhere baseF fun c s => s = satisfied && targF.get? c = some notSatisfied
  let improved := keysWhere baseF fun c s => s = notSatisfied && targF.get? c = some satisfied
  let baseR := risksMap baseline
  let targR := risksMap target
  let remediated := keysWhere baseR fun d s => s = lit "open" && targR.get? d = some (lit "closed")
  let newOpen := keysWhere targR fun d s => s = lit "open" && baseR.get? d ≠ some (lit "open")
  { passed := regressed.length = 0 && newOpen.length = 0
    regressedControls := regressed
    improvedControls := improved
    remediatedRisks := remediated
    newOpenRisks := newOpen }

end Oscal

end AuditSwarm
