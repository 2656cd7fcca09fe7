import AuditSwarm.Model.Generation

/-!
# Panel of judges

`aggregate_poll_jury` of `model_routing.py`, with weights that are exact numbers.
-/

namespace AuditSwarm

open Python StrEnum

namespace ModelRouting

structure PollJuryVote where
  modelId : Str
  family : ModelFamily
  approved : Bool
  rejectionReason : Option Str := none
  weight : ℚ := 1

def memberName : ModelFamily → Str
  | .anthropic => lit "ANTHROPIC"
  | .google => lit "GOOGLE"
  | .openai => lit "OPENAI"
  | .llama => lit "META"
  | .deepseek => lit "DEEPSEEK"
  | .qwen => lit "QWEN"
  | .mistral => lit "MISTRAL"
  | .other => lit "OTHER"

def reprMember (family : ModelFamily) : Str :=
  lit "<ModelFamily." ++ memberName family ++ lit ": '" ++ value family ++ lit "'>"

/-- The nearest natural number, and the even one of two. -/
def roundHalfEven (x : ℚ) : Nat :=
  let n := x.floor.toNat
  let rest := x - n
  if rest < 1 / 2 then n
  else if 1 / 2 < rest then n + 1
  else if n % 2 = 0 then n else n + 1

/-- `f"{x:.2f}"` -/
def fixed2 (x : ℚ) : Str :=
  let cents := roundHalfEven (|x| * 100)
  (if x < 0 then lit "-" else []) ++ decimal (cents / 100) ++ lit "." ++
    decimal (cents % 100 / 10) ++ decimal (cents % 10)

/-- `sum(v.weight for v in votes)` -/
def weightOf (votes : List PollJuryVote) : ℚ := (votes.map (·.weight)).sum

def totalWeight (votes : List PollJuryVote) : ℚ :=
  if weightOf votes = 0 then 1 else weightOf votes

def approvedWeight (votes : List PollJuryVote) : ℚ := weightOf (votes.filter (·.approved))

/-- `v_poll` -/
def pollScore (votes : List PollJuryVote) : ℚ := approvedWeight votes / totalWeight votes

def pollThreshold (requireUnanimity : Bool) : ℚ :=
  if requireUnanimity then 999 / 1000 else 2 / 3 - 1 / 1000000

/-- The reason of a vote against, when it gives one. -/
def reasonOf (v : PollJuryVote) : Option Str :=
  let reason := strip (v.rejectionReason.getD [])
  if v.approved ∨ reason = [] then none
  else some (lit "[" ++ value v.family ++ lit ":" ++ v.modelId ++ lit "] " ++ reason)

def namedFamilies (votes : List PollJuryVote) : List ModelFamily :=
  (votes.map (·.family)).filter (· ≠ .other)

def aggregatePollJury (votes : List PollJuryVote) (requireUnanimity : Bool) :
    Except Exn QaPushback :=
  if votes = [] then .error (.valueError (lit "PoLL jury must contain at least one vote"))
  else if ¬ (namedFamilies votes).Nodup then
    .error (.sameFamilyBias (lit "PoLL jury violates pairwise family diversity: [" ++
      join (lit ", ") (votes.map fun v => reprMember v.family) ++ lit "]"))
  else if pollThreshold requireUnanimity ≤ pollScore votes then .ok ⟨true, none⟩
  else
    let reasons := votes.filterMap reasonOf
    .ok ⟨false, some (if reasons = [] then
        lit "PoLL cross-family jury rejected artifact (approval score " ++
          fixed2 (pollScore votes) ++ lit " < " ++ fixed2 (pollThreshold requireUnanimity) ++
          lit ")."
      else join (lit "; ") reasons)⟩

end ModelRouting

end AuditSwarm
