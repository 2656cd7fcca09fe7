import AuditSwarm.Model.Trail

/-!
# Trail anchors

`session_manager.py`: the anchors file, one record a session, and `save_trail_anchor`, which moves
a session's anchor to the head of a trail.
-/

namespace AuditSwarm

open Python

inductive AnchorsFile where
  | missing
  | unreadable
  | json (data : Json)

namespace AnchorsFile

def loadAnchors : AnchorsFile → Except Exn (Dict Str Json)
  | missing => .ok []
  | unreadable => .error (.valueError (lit "Trail anchors file is unreadable"))
  | json (.obj anchors) => .ok anchors
  | json _ => .ok []

def getTrailAnchor (file : AnchorsFile) (threadId : Str) : Trail.Anchor :=
  match file.loadAnchors with
  | .error _ => none
  | .ok anchors =>
      match anchors.get? threadId with
      | some (.obj anchor) => some anchor
      | _ => none

end AnchorsFile

namespace Trail

variable (rt : Runtime)

/-- `anchors.get(thread_id) or {}`, of which the fields are then read. -/
def currentAnchor (anchors : Dict Str Json) (threadId : Str) : Except Exn (Dict Str Json) :=
  match anchors.get? threadId with
  | none => .ok []
  | some (.obj current) => .ok current
  | some current =>
      if current.truthy then
        .error (.other (lit "AttributeError") (lit "object has no attribute 'get'"))
      else .ok []

/-- `str(e.get("entry_hash", "") or "")` -/
def entryHashOr (e : Entry) : Str :=
  let h := e.getD (lit "entry_hash") (.str [])
  if h.truthy then rt.textOf h else []

/-- The record `save_trail_anchor` writes. -/
def anchorRecord (count : Nat) (headHash now : Str) : Dict Str Json :=
  [(lit "count", .int count), (lit "head_hash", .str headHash), (lit "updated_at", .str now)]

/-- Whether the entry at the anchored position is not the anchored head. -/
def anchorRewritten (trail : List Entry) (count : Nat) (headHash : Str) : Except Exn Bool :=
  if count = 0 then .ok false
  else do
    let same ← compareDigest ((trail[count - 1]?.map (entryHashOr rt)).getD []) headHash
    return !same

/-- `save_trail_anchor`: what it returns, and the anchors it saves if it saves any. -/
def saveTrailAnchor (environ : Environ) (now : Str) (file : AnchorsFile) (threadId : Str)
    (trail : List Entry) : Except Exn (Bool × Option (Dict Str Json)) := do
  let count := (head rt trail).1
  let headHash := (head rt trail).2.getD []
  if headHash = [] then return (false, none)
  let anchors ← file.loadAnchors
  let current ← currentAnchor anchors threadId
  let currentCount ← anchorCount rt (some current)
  let currentHead := anchorHead rt (some current)
  if count < currentCount then return (false, none)
  if ← anchorRewritten rt trail currentCount currentHead then return (false, none)
  if count = currentCount then return (true, none)
  let check ← verifyTrail rt environ trail none none none
  if check.status = .broken ∨ check.status = .keyUnavailable then return (false, none)
  return (true, some (anchors.set threadId (.obj (anchorRecord count headHash now))))

/-- A call of `save_trail_anchor` for a session. -/
structure AnchorCall where
  environ : Environ
  now : Str
  threadId : Str
  trail : List Entry

def AnchorCall.saved (c : AnchorCall) (file : AnchorsFile) : Option (Dict Str Json) :=
  match saveTrailAnchor rt c.environ c.now file c.threadId c.trail with
  | .ok (_, saved) => saved
  | .error _ => none

def AnchorCall.after (c : AnchorCall) (file : AnchorsFile) : AnchorsFile :=
  match c.saved rt file with
  | none => file
  | some anchors => .json (.obj anchors)

/-- The call returns `False` or raises. -/
def AnchorCall.Refused (c : AnchorCall) (file : AnchorsFile) : Prop :=
  ∀ saved, saveTrailAnchor rt c.environ c.now file c.threadId c.trail ≠ .ok (true, saved)

/-- The anchors a session gets in a run of calls, in order, each with the trail it was written
for. -/
def anchorsWritten (threadId : Str) : AnchorsFile → List AnchorCall →
    List (Dict Str Json × List Entry)
  | _, [] => []
  | file, c :: calls =>
      let later := anchorsWritten threadId (c.after rt file) calls
      if (c.saved rt file).isSome ∧ c.threadId = threadId then
        (((c.after rt file).getTrailAnchor threadId).getD [], c.trail) :: later
      else later

end Trail

end AuditSwarm
