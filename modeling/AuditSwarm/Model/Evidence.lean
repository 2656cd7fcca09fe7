import AuditSwarm.Model.State

/-!
# Evidence check

`unverified_findings` of `evidence.py`: the findings whose quote is not found in the vault.
-/

namespace AuditSwarm

open Python StrEnum

namespace Evidence

variable (rt : Runtime)

def normalisedLabel (text : Str) : Str :=
  let spaced := text.map fun c => if c = 95 ∨ c = 45 then 32 else c
  rt.casefold (join (lit " ") (words spaced))

def findingMarkedNotTested (f : AuditFindingSchema) : Bool :=
  (f.result.map fun r => normalisedLabel rt (value r)) = some (lit "not tested") ||
    normalisedLabel rt (value f.toeConclusion) = lit "not tested"

def reportedId (index : Nat) (controlId : Str) : Str :=
  if controlId = [] then lit "finding #" ++ decimal (index + 1) else controlId

def findingUnverified (verify : Str → Str → Option Str → Except Raised Bool)
    (sessionId : Option Str) (f : AuditFindingSchema) : Except Raised Bool :=
  if strip f.exactQuoteFromEvidence = [] then .ok (!findingMarkedNotTested rt f)
  else (verify f.vaultIdReference f.exactQuoteFromEvidence sessionId).map (!·)

def unverifiedFindings (verify : Str → Str → Option Str → Except Raised Bool)
    (sessionId : Option Str) : Nat → List AuditFindingSchema → Except Raised (List Str)
  | _, [] => .ok []
  | index, f :: rest => do
      let unverified ← findingUnverified rt verify sessionId f
      let others ← unverifiedFindings verify sessionId (index + 1) rest
      return if unverified then reportedId index f.controlId :: others else others

end Evidence

end AuditSwarm
