import AuditSwarm.Model.Dump

/-!
# Hash-chained approval trail

`trail.py`: `append_entry`, the only way entries are added, and `verify_trail`, which recomputes
the chain, compares it with an anchor stored elsewhere and checks the approved artifacts and the
reviewer decisions against the digests recorded in the trail.
-/

namespace AuditSwarm

open Python

/-- `os.environ` -/
abbrev Environ := Str → Option Str

/-- A trail entry as the flow holds it: `Dict[str, str]`. -/
abbrev StrEntry := Dict Str Str

/-- A trail entry as it may be read back: any JSON values. -/
abbrev Entry := Dict Str Json

def StrEntry.toEntry (e : StrEntry) : Entry := e.mapValues Json.str

namespace Trail

variable (rt : Runtime)

def genesisHash : Str := List.replicate 64 48
def algKeyed : Str := lit "hmac-sha256"
def algPlain : Str := lit "sha256"
def hashFields : List Str := [lit "prev_hash", lit "entry_hash", lit "hash_alg"]

def trailKeyLabel : Bytes :=
  (lit "grc-audit-swarm/approval-trail/hmac-sha256/v1").map fun c => UInt8.ofNat c.val

def deriveHmacKey (keyB64 : Str) (label : Bytes) : Except Exn Bytes :=
  match encodeUtf8 keyB64 with
  | none => .error (.digest .unicodeEncode)
  | some encoded =>
      match urlsafeB64decode encoded with
      | .error msg => .error (.digest (.binascii msg))
      | .ok raw => .ok (rt.hmacSha256 raw label).val

def deriveLabelledKey (environ : Environ) (label : Bytes) : Except Exn (Option Bytes) :=
  match environ (lit "VAULT_ENCRYPTION_KEY") with
  | none => .ok none
  | some [] => .ok none
  | some keyB64 => (deriveHmacKey rt keyB64 label).map some

def trailKey (environ : Environ) : Except Exn (Option Bytes) :=
  deriveLabelledKey rt environ trailKeyLabel

def canonicalBytes (value : Json) : Except Exn Bytes :=
  match value.canonical with
  | none => .error (.digest .unicodeEncode)
  | some bytes => .ok bytes

/-- The value `canonical_entry` encodes: every field but `entry_hash`. -/
def canonicalEntry (e : Entry) : Json := .obj (e.filterKeys (· ≠ lit "entry_hash"))

def digestHex (data : Bytes) (alg : Str) (key : Option Bytes) : Except Exn Str :=
  if alg = algKeyed then
    match key with
    | none => .error (.valueError (lit "hmac-sha256 digest requires the trail key"))
    | some k => .ok (hexdigest (rt.digest (.keyed k data)))
  else .ok (hexdigest (rt.digest (.plain data)))

def isChained (e : Entry) : Bool := hashFields.any fun f => e.contains f

def legacySeal (legacy : List Entry) (alg : Str) (key : Option Bytes) : Except Exn Str :=
  if legacy = [] then .ok genesisHash
  else do
    let data ← canonicalBytes (.arr (legacy.map .obj))
    digestHex rt data alg key

/-- The algorithm `append_entry` uses under a key setting. -/
def algFor (key : Option Bytes) : Str := if key.isSome then algKeyed else algPlain

/-- The `prev_hash` of the next entry of a trail. -/
def prevHash (trail : List StrEntry) (alg : Str) (key : Option Bytes) : Except Exn Str :=
  if (trail.map StrEntry.toEntry).any isChained then
    .ok ((trail.getLast?.map fun e => e.getD (lit "entry_hash") []).getD [])
  else legacySeal rt (trail.map StrEntry.toEntry) alg key

/-- An entry with its hash fields but `entry_hash`. -/
def linked (entry : StrEntry) (alg prev : Str) : StrEntry :=
  ((entry.filterKeys fun k => !hashFields.contains k).set (lit "hash_alg") alg).set
    (lit "prev_hash") prev

/-- `append_entry`: the stored entry, to be put at the end of the trail. -/
def appendEntry (environ : Environ) (trail : List StrEntry) (entry : StrEntry) :
    Except Exn StrEntry := do
  let key ← trailKey rt environ
  let prev ← prevHash rt trail (algFor key) key
  let stored := linked entry (algFor key) prev
  let data ← canonicalBytes (canonicalEntry stored.toEntry)
  let entryHash ← digestHex rt data (algFor key) key
  return stored.set (lit "entry_hash") entryHash

def head (trail : List Entry) : Nat × Option Str :=
  (trail.length,
    match trail.getLast?.bind fun e => e.get? (lit "entry_hash") with
    | none => none
    | some h => if h.truthy then some (rt.textOf h) else none)

def artifactDigest (dumped : Json) : Except Exn Str := do
  let data ← canonicalBytes dumped
  return hexdigest (rt.digest (.plain data))

def decisionsDigest (dumped : List Json) : Except Exn Str := artifactDigest rt (.arr dumped)

def decisionFields : Json → Dict Str Json
  | .obj kvs => kvs
  | _ => []

/-- `hmac.compare_digest` on two `str`. -/
def compareDigest (a b : Str) : Except Exn Bool :=
  if isAscii a && isAscii b then .ok (a = b)
  else .error (.typeError (lit "comparing strings with non-ASCII characters is not supported"))

/-! ## Verification -/

inductive Status where
  | ok
  | legacyUnchained
  | broken
  | truncated
  | unkeyed
  | keyUnavailable
  | artifactChanged
  | decisionChanged
  | anchorMismatch
  deriving DecidableEq, Repr

def tamperStatuses : List Status :=
  [.broken, .truncated, .anchorMismatch, .artifactChanged, .decisionChanged]

structure Verification where
  ok : Bool
  status : Status
  entries : Nat
  legacyEntries : Nat
  firstBrokenIndex : Option Nat
  keyed : Bool
  anchored : Bool
  headHash : Option Str
  changedSinceApproval : List Str
  decisionsChanged : List Str
  detail : Str
  deriving DecidableEq

def result (status : Status) (trail : List Entry) : Verification where
  ok := status = .ok
  status := status
  entries := (head rt trail).1
  legacyEntries := 0
  firstBrokenIndex := none
  keyed := false
  anchored := false
  headHash := (head rt trail).2
  changedSinceApproval := []
  decisionsChanged := []
  detail := []

def fieldIs (e : Entry) (field text : Str) : Bool :=
  match e.get? field with
  | some (.str s) => s = text
  | _ => false

/-- `str(e.get(field, ""))` -/
def fieldText (e : Entry) (field : Str) : Str := rt.textOf (e.getD field (.str []))

/-- Truth of `e.get(field)`. -/
def fieldTruthy (e : Entry) (field : Str) : Bool :=
  match e.get? field with
  | none => false
  | some v => v.truthy

/-- A latest gate approval of one artifact: its gate label, the digests it recorded and the
decisions recorded before it. -/
structure Approval where
  gate : Str
  digest : Str
  sealedDigest : Option Str
  ids : List Str

/-- `ARTIFACT_PHASE.get(field, 0)` -/
def artifactPhase (field : Str) : Int :=
  if field = lit "racm_plan" then 1
  else if field = lit "working_papers" then 2
  else if field = lit "final_report" then 3
  else 0

/-- What the scan over the trail has collected so far. -/
structure ApprovalScan where
  latest : Dict Str Approval
  recorded : Dict Int (List Str)

/-- One step of the scan of `changed_since_approval`. -/
def approvalScan (st : ApprovalScan) (e : Entry) : ApprovalScan :=
  if fieldIs e (lit "action") (lit "review_decision") then
    match rt.intOfStr (fieldText rt e (lit "phase")) with
    | none => st
    | some phase =>
        let ids := st.recorded.getD phase [] ++ [fieldText rt e (lit "decision_id")]
        { st with recorded := st.recorded.set phase ids }
  else if fieldIs e (lit "action") (lit "gate_approval") && fieldTruthy e (lit "artifact_digest") then
    let field := fieldText rt e (lit "artifact")
    let approval : Approval :=
      { gate := fieldText rt e (lit "gate")
        digest := fieldText rt e (lit "artifact_digest")
        sealedDigest :=
          if fieldTruthy e (lit "decisions_digest") then
            some (fieldText rt e (lit "decisions_digest")) else none
        ids := st.recorded.getD (artifactPhase field) [] }
    { st with latest := st.latest.set field approval }
  else st

/-- Whether one approval no longer matches the current artifact and decisions. -/
def approvalChanged (artifacts : Dict Str Json) (decisions : Option (List Json))
    (byId : Dict Str (Dict Str Json)) (field : Str) (a : Approval) : Except Exn Bool :=
  match artifacts.get? field with
  | none => .ok true
  | some .null => .ok true
  | some current => do
      let now ← artifactDigest rt current
      if !(← compareDigest now a.digest) then return true
      match a.sealedDigest, decisions with
      | some sealedDigest, some _ =>
          match a.ids.mapM byId.get? with
          | none => return true
          | some fields =>
              let now ← decisionsDigest rt (fields.map .obj)
              return !(← compareDigest now sealedDigest)
      | _, _ => return false

def changedSinceApproval (trail : List Entry) (artifacts : Dict Str Json)
    (decisions : Option (List Json)) : Except Exn (List Str) := do
  let scan := trail.foldl (approvalScan rt) ⟨[], []⟩
  let byId : Dict Str (Dict Str Json) := (decisions.getD []).foldl
    (fun acc d => acc.set (fieldText rt (decisionFields d) (lit "decision_id")) (decisionFields d)) []
  let changed ← scan.latest.filterM fun (field, a) =>
    approvalChanged rt artifacts decisions byId field a
  return changed.map fun (_, a) => a.gate

/-- `decision_id` to `decision_digest` of the `review_decision` entries. -/
def recordedDigests (trail : List Entry) : Dict Str Str :=
  trail.foldl (fun acc e =>
    if fieldIs e (lit "action") (lit "review_decision") && fieldTruthy e (lit "decision_id") then
      acc.set (fieldText rt e (lit "decision_id")) (fieldText rt e (lit "decision_digest"))
    else acc) []

def decisionProblem (recorded : Dict Str Str) (d : Json) : Except Exn (Option Str) :=
  let fields := decisionFields d
  let did := fieldText rt fields (lit "decision_id")
  let label := lit "decision " ++ did ++ lit " (" ++
    rt.textOf (fields.getD (lit "decision_type") (.str (lit "?"))) ++ lit " on " ++
    rt.textOf (fields.getD (lit "subject_id") (.str (lit "?"))) ++ lit ")"
  match recorded.get? did with
  | none => .ok (some (label ++ lit " has no trail entry"))
  | some digest => do
      let now ← artifactDigest rt (.obj fields)
      if ← compareDigest now digest then return none
      return some (label ++ lit " was changed after it was recorded")

def decisionsChanged (trail : List Entry) (decisions : List Json) : Except Exn (List Str) := do
  let recorded := recordedDigests rt trail
  let problems ← decisions.mapM (decisionProblem rt recorded)
  let seen := decisions.map fun d => fieldText rt (decisionFields d) (lit "decision_id")
  let removed := recorded.filter fun kv => !seen.contains kv.1
  return problems.filterMap id ++ removed.map fun kv =>
    lit "decision " ++ kv.1 ++ lit " is in the trail but was removed"

/-- What the chain loop carries from entry to entry. -/
structure ChainState where
  keyedEntries : Nat
  lastPlain : Option Nat
  expectedPrev : Option Str

/-- How the chain loop ends: with a status to report at once, or with every entry checked. -/
inductive ChainCheck where
  | stop (status : Status) (firstBrokenIndex : Option Nat) (detail : Str)
  | through (st : ChainState)

/-- `broken(reason)` at index `i`. -/
def brokenAt (i : Nat) (reason : String) : ChainCheck :=
  .stop .broken (some i) (lit "Entry " ++ decimal i ++ lit ": " ++ lit reason)

/-- The `prev_hash` an entry must have: the hash of the entry before it, or the seal of the
entries before the chain. -/
def expectedPrev (key : Option Bytes) (legacy : List Entry) (alg : Str) (st : ChainState) :
    Except Exn Str :=
  match st.expectedPrev with
  | some p => .ok p
  | none => legacySeal rt legacy alg key

/-- The chain loop of `verify_trail` over the entries from index `i` on; `legacy` are the entries
before the first chained one. -/
def chainLoop (key : Option Bytes) (legacy : List Entry) :
    Nat → List Entry → ChainState → Except Exn ChainCheck
  | _, [], st => .ok (.through st)
  | i, e :: rest, st =>
      match e.get? (lit "entry_hash"), e.get? (lit "hash_alg") with
      | some storedHash, some (.str alg) =>
          if !storedHash.truthy || !(alg = algKeyed || alg = algPlain) then
            .ok (brokenAt i "missing or unknown hash fields.")
          else if alg = algKeyed && key = none then
            .ok (.stop .keyUnavailable none (lit "Entry " ++ decimal i ++
              lit (" is keyed (hmac-sha256) but VAULT_ENCRYPTION_KEY is " ++
                "not set, so the trail cannot be verified.")))
          else do
            let expected ← expectedPrev rt key legacy alg st
            if !(← compareDigest (fieldText rt e (lit "prev_hash")) expected) then
              return brokenAt i ("prev_hash does not match the previous entry " ++
                "(an entry was removed, inserted or reordered before this one).")
            let data ← canonicalBytes (canonicalEntry e)
            let recomputed ← digestHex rt data alg key
            if !(← compareDigest recomputed (rt.textOf storedHash)) then
              return brokenAt i "content does not match its entry_hash (edited)."
            chainLoop key legacy (i + 1) rest
              { keyedEntries := if alg = algKeyed then st.keyedEntries + 1 else st.keyedEntries
                lastPlain :=
                  if alg = algKeyed then none
                  else if st.lastPlain = none then some i else st.lastPlain
                expectedPrev := some (rt.textOf storedHash) }
      | _, _ => .ok (brokenAt i "missing or unknown hash fields.")

abbrev Anchor := Option (Dict Str Json)

/-- `max(int(anchor.get("count", 0) or 0), 0)`, with a malformed record read as no anchor. -/
def anchorCount (anchor : Anchor) : Except Exn Nat :=
  let count := (anchor.getD []).getD (lit "count") (.int 0)
  if !count.truthy then .ok 0
  else
    match count with
    | .bool b => .ok b.toNat
    | .int n => .ok n.toNat
    | .str s => .ok (((rt.intOfStr s).getD 0).toNat)
    | .float r =>
        match rt.intOfFloat r with
        | .value n => .ok n.toNat
        | .valueError => .ok 0
        | .overflowError =>
            .error (.other (lit "OverflowError") (lit "cannot convert float infinity to integer"))
    | _ => .ok 0

/-- `str(anchor.get("head_hash", "") or "")` -/
def anchorHead (anchor : Anchor) : Str :=
  let h := (anchor.getD []).getD (lit "head_hash") (.str [])
  if h.truthy then rt.textOf h else []

/-- The anchor check of `verify_trail`: the status to report when it fails. -/
def anchorCheck (trail : List Entry) (count : Nat) (headHash : Str) :
    Except Exn (Option (Status × Nat × Str)) :=
  if count = 0 then .ok none
  else if trail.length < count then
    .ok (some (.truncated, trail.length, lit "The anchor records " ++ decimal count ++
      lit " entries but the trail has " ++ decimal trail.length ++
      lit ": entries were removed from the end."))
  else do
    let at_ := (trail[count - 1]?.map fun e => fieldText rt e (lit "entry_hash")).getD []
    if ← compareDigest at_ headHash then return none
    return some (.anchorMismatch, count - 1, lit "Entry " ++ decimal (count - 1) ++
      lit (" does not match the anchored head hash: the trail was rewritten, or cut back and " ++
        "extended again, after the anchor was recorded."))

/-- The approved artifacts that changed, when the artifacts are given. -/
def artifactCheck (trail : List Entry) (artifacts : Option (Dict Str Json))
    (decisions : Option (List Json)) : Except Exn (List Str) :=
  match artifacts with
  | none => .ok []
  | some a => changedSinceApproval rt trail a decisions

/-- The problems with the decisions, when the decisions are given. -/
def decisionCheck (trail : List Entry) (decisions : Option (List Json)) :
    Except Exn (List Str) :=
  match decisions with
  | none => .ok []
  | some ds => decisionsChanged rt trail ds

/-- The checks of `verify_trail` after the chain and the anchor. -/
def contentCheck (trail : List Entry) (first : Nat) (anchored : Bool) (allKeyed : Bool)
    (artifacts : Option (Dict Str Json)) (decisions : Option (List Json)) :
    Except Exn Verification := do
  let changed ← artifactCheck rt trail artifacts decisions
  let problems ← decisionCheck rt trail decisions
  if changed ≠ [] then
    return { result rt .artifactChanged trail with
      legacyEntries := first
      keyed := allKeyed
      anchored := anchored
      changedSinceApproval := changed
      decisionsChanged := problems
      detail := lit ("The chain is intact, but these approved artifacts (or the " ++
        "reviewer decisions sealed with them) no longer match the digest " ++
        "recorded at approval: ") ++ join (lit ", ") changed ++ lit "." }
  if problems ≠ [] then
    return { result rt .decisionChanged trail with
      legacyEntries := first
      keyed := allKeyed
      anchored := anchored
      decisionsChanged := problems
      detail := lit ("The chain is intact, but reviewer decisions do not match their " ++
        "trail entries: ") ++ join (lit "; ") problems ++ lit "." }
  let note := if first = 0 then [] else lit " Entries 0-" ++ decimal (first - 1) ++
    lit " predate chaining; they are sealed from entry " ++ decimal first ++
    lit " on, but their earlier history cannot be verified."
  return { result rt .ok trail with
    legacyEntries := first
    keyed := allKeyed
    anchored := anchored
    detail := lit "Chain intact (" ++ (if allKeyed then algKeyed else algPlain) ++ lit ")" ++
      (if anchored then [] else lit "; head not anchored") ++ lit "." ++ note }

def verifyTrail (environ : Environ) (trail : List Entry) (anchor : Anchor)
    (artifacts : Option (Dict Str Json)) (decisions : Option (List Json)) :
    Except Exn Verification := do
  let count ← anchorCount rt anchor
  let headHash := anchorHead rt anchor
  let anchored : Bool := 0 < count
  let first := trail.findIdx isChained
  if first = trail.length then
    if anchored then
      return { result rt (if trail = [] then .truncated else .broken) trail with
        firstBrokenIndex := some 0
        legacyEntries := trail.length
        anchored := true
        detail := lit "The anchor records " ++ decimal count ++
          lit (" chained entries, but the trail has no chained entries " ++
            "(removed or stripped of hashes).") }
    if trail = [] then
      return { result rt .ok trail with detail := lit "No trail entries yet." }
    return { result rt .legacyUnchained trail with
      legacyEntries := trail.length
      detail := lit ("Unchained (legacy): these entries were written before the trail " ++
        "was hash-chained and cannot be verified.") }
  let key ← trailKey rt environ
  match ← chainLoop rt key (trail.take first) first (trail.drop first) ⟨0, none, none⟩ with
  | .stop status index detail =>
      return { result rt status trail with
        firstBrokenIndex := index
        legacyEntries := first
        anchored := anchored
        detail := detail }
  | .through st =>
      match ← anchorCheck rt trail count headHash with
      | some (status, index, detail) =>
          return { result rt status trail with
            firstBrokenIndex := some index
            legacyEntries := first
            anchored := true
            detail := detail }
      | none =>
          match key, st.lastPlain with
          | some _, some index =>
              return { result rt .unkeyed trail with
                legacyEntries := first
                anchored := anchored
                detail := lit "Entries from index " ++ decimal index ++
                  lit (" carry an unkeyed sha256 chain although a key is configured: they may " ++
                    "predate the key, or were recomputed without it — they cannot be verified " ++
                    "as untampered.") }
          | _, _ =>
              contentCheck rt trail first anchored (st.keyedEntries = trail.length - first)
                artifacts decisions

end Trail

end AuditSwarm
