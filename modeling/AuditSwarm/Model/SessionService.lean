import AuditSwarm.Lib.Run
import AuditSwarm.Model.SessionStore
import AuditSwarm.Model.System

/-!
# Sessions and their threads

`routers/sessions.py` and `job_store.py`, as the threads of the API process run them: requests that
create, change and delete a session, and the threads that run its phases.  A thread runs from one
access to something shared to the next (the flows in memory, a flow, the sessions file, a lock); in
between another thread may run, and at any point the process may be restarted.  The session store
is taken with its calls in one step each.
-/

namespace AuditSwarm

open Python StrEnum

abbrev FlowRef := Nat

/-- The action lock of a session; there is a new one after each `discard_session_lock`. -/
structure ActionLock where
  id : Str
  discards : Nat
  deriving DecidableEq

/-- What the routes do to the flow of a session under its action lock. -/
inductive SessionAction where
  | approveGate (gate : Phase) (humanId source : Str)
  | retryPhase (phase : Int) (humanId source : Str)
  | overrideQaRejection (phase : Int) (humanId reason source : Str)
  | returnForRework (phase : Int) (humanId notes source : Str)
  | recordDecision (req : Decisions.Request)

namespace SessionAction

def recorded : SessionAction → RecordedAction
  | approveGate gate humanId source => .approveGate gate humanId source
  | retryPhase phase humanId source => .retryPhase phase humanId source
  | overrideQaRejection phase humanId reason source =>
      .overrideQaRejection phase humanId reason source
  | returnForRework phase humanId notes source => .returnForRework phase humanId notes source
  | recordDecision req => .recordDecision req

def submits : SessionAction → Option Phase
  | approveGate .planning _ _ => some .fieldwork
  | approveGate .fieldwork _ _ => some .reporting
  | approveGate .reporting _ _ => none
  | retryPhase phase _ _ => Phase.ofNumber? phase
  | overrideQaRejection _ _ _ _ => none
  | returnForRework phase _ _ _ => Phase.ofNumber? phase
  | recordDecision _ => none

end SessionAction

/-- One assignment of a phase run. -/
inductive PhaseWrite where
  | machine (target : AuditStatus)
  /-- `_commit_status` -/
  | commitStatus
  | artifact (model : Option PyModel)
  | clearArtifact
  | qaRejectionReason (reason : Option Str)
  | dossier (text : Str)
  | generationRuns (runs : List GenerationRun)
  | skills (skills : List Skill) (ids : List Str)
  | kickoff (k : Kickoff)

/-- The flow after an assignment of a run of this phase. -/
def PhaseWrite.apply (rt : Runtime) (p : Phase) (f : AuditFlow) : PhaseWrite → AuditFlow
  | .machine target => { f with machine := ⟨target⟩ }
  | .commitStatus => { f with state := { f.state with status := f.machine.status.value } }
  | .artifact model =>
      match AuditFlow.storeArtifact rt p model f.state with
      | .ok s => { f with state := s }
      | .error _ => f
  | .clearArtifact => { f with state := AuditFlow.clearArtifact p f.state }
  | .qaRejectionReason reason =>
      { f with state := { f.state with qaRejectionReason := reason } }
  | .dossier text => { f with state := { f.state with currentHumanDossier := text } }
  | .generationRuns runs => { f with state := { f.state with generationRuns := runs } }
  | .skills found ids =>
      { f with skillContext := found, state := { f.state with activeSkillIds := ids } }
  | .kickoff k => { f with kickoffs := f.kickoffs ++ [k] }

/-! ## Threads -/

/-- Who takes the action lock. -/
inductive LockUser where
  | action (a : SessionAction)
  | delete

/-- Who uses the flow of a session. -/
inductive FlowUser where
  | action (a : SessionAction) (lock : ActionLock)
  | phase (p : Phase)

/-- Who saves a flow; an action with the trail it left. -/
inductive Saver where
  | create
  | action (a : SessionAction) (lock : ActionLock) (trail : List StrEntry)
  | phase

inductive ServicePc where
  | idle
  /-- Before `set_flow` of a new session. -/
  | register (id : Str) (flow : AuditFlow) (name createdAt : Str)
  /-- Before `save_session` of a new session. -/
  | put (id : Str) (ref : FlowRef) (name createdAt : Str)
  /-- Before `_require_session`. -/
  | require (id : Str) (a : SessionAction)
  /-- Before `session_lock`. -/
  | lock (id : Str) (u : LockUser)
  /-- Waiting for the action lock. -/
  | wait (id : Str) (u : LockUser) (lock : ActionLock)
  /-- Before `get_flow` of `_get_or_load_flow`. -/
  | get (id : Str) (u : FlowUser)
  /-- Before `_repo.load` of `_get_or_load_flow`. -/
  | load (id : Str) (u : FlowUser)
  /-- Before `set_flow` of `_get_or_load_flow`. -/
  | set (id : Str) (u : FlowUser) (flow : AuditFlow)
  /-- Before the action on the flow. -/
  | act (id : Str) (a : SessionAction) (lock : ActionLock) (ref : FlowRef)
  /-- In `generate_planning`, `generate_fieldwork` or `generate_reporting`. -/
  | phase (id : Str) (p : Phase) (ref : FlowRef)
  /-- Before the snapshot of `_repo.save`. -/
  | dump (id : Str) (ref : FlowRef) (k : Saver)
  /-- Before `update_session` of `_repo.save`, holding `_SAVE_LOCK`. -/
  | write (id : Str) (ref : FlowRef) (snapshot : AuditState) (k : Saver)
  /-- Before `submit` of the next phase. -/
  | submit (id : Str) (p : Phase) (k : Saver)
  /-- Before `get_session` of a delete. -/
  | read (id : Str) (lock : ActionLock)
  /-- Before `_has_sign_off`. -/
  | check (id : Str) (lock : ActionLock) (data : Option (Dict Str Json))
  /-- Before `delete_session`. -/
  | drop (id : Str) (lock : ActionLock)
  /-- Before `remove_flow`. -/
  | remove (id : Str) (lock : ActionLock)
  /-- Before `discard_session_lock`. -/
  | discard (id : Str) (lock : ActionLock)
  /-- Before the action lock is given back; an action that was saved with the trail it left. -/
  | leave (id : Str) (lock : ActionLock) (answer : Option (List StrEntry))

def FlowUser.enter (id : Str) (ref : FlowRef) : FlowUser → ServicePc
  | action a lock => .act id a lock ref
  | phase p => .phase id p ref

/-- A user that gets no flow: a request answers 404, a phase thread gives up. -/
def FlowUser.stop (id : Str) : FlowUser → ServicePc
  | action _ lock => .leave id lock none
  | phase _ => .idle

def Saver.next (id : Str) : Saver → ServicePc
  | create => .submit id .planning .create
  | action a lock trail =>
      match a.submits with
      | some p => .submit id p (.action a lock trail)
      | none => .leave id lock (some trail)
  | phase => .idle

def Saver.done (id : Str) : Saver → ServicePc
  | create => .idle
  | action _ lock trail => .leave id lock (some trail)
  | phase => .idle

/-! ## The process -/

/-- The sessions on disk, the memory of the process and its threads. -/
structure SessionService where
  store : Sessions
  flows : Dict Str FlowRef
  heap : FlowRef → AuditFlow
  allocated : Nat
  /-- How often the action lock of a session was discarded. -/
  discards : Str → Nat
  /-- Who holds an action lock. -/
  actionLocks : ActionLock → Option ThreadId
  /-- Who holds `_SAVE_LOCK`. -/
  saveLock : Option ThreadId
  /-- The phases that were submitted and not started. -/
  jobs : List (Str × Phase)
  pc : ThreadId → ServicePc
  /-- The ids `uuid4` has returned. -/
  issued : List Str
  /-- The issued ids that were in the store at some time, and so may be known to clients. -/
  shown : List Str
  /-- The ids that were issued or named by a request. -/
  named : List Str

/-- What one step of a thread did. -/
inductive ServiceResult where
  /-- Nothing: there is nothing to do, another thread holds the lock, or the request cannot be. -/
  | blocked
  | ran
  /-- An action has returned; this is the trail it left. -/
  | acknowledged (id : Str) (trail : List StrEntry)

/-- What is sent to create a session. -/
structure CreateRequest where
  theme : Str
  businessContext : Str
  frameworks : List Str
  name : Str
  preparedBy : Str
  source : Str
  createdAt : Str

inductive ServiceLabel where
  /-- A request to create a session, with the id it is given. -/
  | create (t : ThreadId) (env : Env) (id : Str) (req : CreateRequest)
  | action (t : ThreadId) (id : Str) (a : SessionAction)
  | delete (t : ThreadId) (id : Str)
  /-- A thread of the executor takes the next phase. -/
  | job (t : ThreadId)
  /-- A thread goes on. -/
  | run (t : ThreadId) (env : Env)
  /-- A phase thread makes an assignment. -/
  | assign (t : ThreadId) (w : PhaseWrite)
  /-- A phase thread stops with an exception. -/
  | fail (t : ThreadId)
  /-- The process is stopped and started again. -/
  | restart

namespace SessionService

variable (rt : Runtime) (co : Coercions)

def initial : SessionService where
  store := []
  flows := []
  heap := fun _ => .fresh [] [] [] none
  allocated := 0
  discards := fun _ => 0
  actionLocks := fun _ => none
  saveLock := none
  jobs := []
  pc := fun _ => .idle
  issued := []
  shown := []
  named := []

def goto (s : SessionService) (t : ThreadId) (p : ServicePc) : SessionService :=
  { s with pc := fun u => if u = t then p else s.pc u }

def write (s : SessionService) (ref : FlowRef) (f : AuditFlow) : SessionService :=
  { s with heap := fun r => if r = ref then f else s.heap r }

def setActionLock (s : SessionService) (lock : ActionLock) (holder : Option ThreadId) :
    SessionService :=
  { s with actionLocks := fun l => if l = lock then holder else s.actionLocks l }

def setFlow (s : SessionService) (id : Str) (flow : AuditFlow) : SessionService :=
  { s.write s.allocated { flow with sessionId := some id } with
    flows := s.flows.set id s.allocated
    allocated := s.allocated + 1 }

/-! ### Whether an audit was signed off -/

def phaseFromStatus (status : Str) : Nat :=
  if lit "1" <:+: status then 1
  else if lit "2" <:+: status then 2
  else if lit "3" <:+: status ∨ status = lit "COMPLETED" then 3
  else 0

def statusSignedOff (status : Str) : Bool :=
  status = lit "COMPLETED" ∨ 2 ≤ phaseFromStatus status

/-- `str(snapshot.get("status") or data.get("status") or "")` -/
def storedStatus (data snapshot : Dict Str Json) : Str :=
  let first := snapshot.getD (lit "status") .null
  let second := data.getD (lit "status") .null
  if first.truthy then rt.textOf first else if second.truthy then rt.textOf second else []

/-- `snapshot.get("approval_trail") or []` of `data.get("state_snapshot") or {}` -/
def storedSnapshot (data : Dict Str Json) : Dict Str Json :=
  match data.getD (lit "state_snapshot") .null with
  | .obj snapshot => snapshot
  | _ => []

def storedTrail (snapshot : Dict Str Json) : List Json :=
  match snapshot.getD (lit "approval_trail") .null with
  | .arr entries => entries
  | _ => []

/-- `e.get("action") == "gate_approval"` of a stored entry -/
def isGateApproval : Json → Bool
  | .obj e =>
      match Dict.get? e (lit "action") with
      | some (.str action) => action = lit "gate_approval"
      | _ => false
  | _ => false

def hasSignOff (s : SessionService) (id : Str) (data : Dict Str Json) : Bool :=
  let snapshot := storedSnapshot data
  (match s.flows.get? id with
    | some ref =>
        let f := s.heap ref
        statusSignedOff f.state.status || f.state.approvalTrail.any fun e =>
          e.get? (lit "action") = some (lit "gate_approval")
    | none => false) ||
    statusSignedOff (storedStatus rt data snapshot) || (storedTrail snapshot).any isGateApproval

/-! ### Steps -/

def blocked (s : SessionService) : ServiceResult × SessionService := (.blocked, s)

/-- A request names an id: one that clients may know, or one that was never issued. -/
def Nameable (s : SessionService) (id : Str) : Prop := id ∈ s.shown ∨ id ∉ s.issued

instance (s : SessionService) (id : Str) : Decidable (s.Nameable id) :=
  inferInstanceAs (Decidable (id ∈ s.shown ∨ id ∉ s.issued))

/-- The flow of a new session: its preparer recorded, and planning begun. -/
def newFlow (env : Env) (req : CreateRequest) : Except Exn AuditFlow :=
  match (do
      AuditFlow.recordPreparer rt env req.preparedBy true req.source
      AuditFlow.beginPhase1 : FlowM Unit).exec
        (.fresh req.theme req.businessContext req.frameworks none) with
  | (.ok _, f) => .ok f
  | (.error e, _) => .error e

/-- `_create_and_launch` up to its first access to something shared. -/
def create (s : SessionService) (t : ThreadId) (env : Env) (id : Str) (req : CreateRequest) :
    ServiceResult × SessionService :=
  match s.pc t with
  | .idle =>
      if id ∈ s.named then s.blocked
      else
        match newFlow rt env req with
        | .error _ => (.ran, { s with issued := id :: s.issued, named := id :: s.named })
        | .ok f => (.ran, ({ s with issued := id :: s.issued, named := id :: s.named }).goto t
            (.register id f req.name req.createdAt))
  | _ => s.blocked

def request (s : SessionService) (t : ThreadId) (id : Str) (p : ServicePc) :
    ServiceResult × SessionService :=
  match s.pc t with
  | .idle => if s.Nameable id then (.ran, ({ s with named := id :: s.named }).goto t p)
      else s.blocked
  | _ => s.blocked

/-- `PhaseExecutor`: a thread takes the next job. -/
def job (s : SessionService) (t : ThreadId) : ServiceResult × SessionService :=
  match s.pc t, s.jobs with
  | .idle, (id, p) :: jobs => (.ran, ({ s with jobs := jobs }).goto t (.get id (.phase p)))
  | _, _ => s.blocked

def acquire (s : SessionService) (t : ThreadId) (lock : ActionLock) (p : ServicePc) :
    ServiceResult × SessionService :=
  match s.actionLocks lock with
  | none => (.ran, (s.setActionLock lock (some t)).goto t p)
  | some _ => s.blocked

def newSession (f : AuditFlow) (name createdAt : Str) (entry : Dict Str Json) : Dict Str Json :=
  SessionStore.savedFields createdAt name f.state.businessContext []
    [(lit "status", .str f.state.status), (lit "created_at", .str createdAt),
      (lit "prepared_by", .str f.state.preparedBy)] entry

def run (s : SessionService) (t : ThreadId) (env : Env) :
    ServicePc → ServiceResult × SessionService
  | .idle => s.blocked
  | .register id flow name createdAt =>
      (.ran, (s.setFlow id flow).goto t (.put id s.allocated name createdAt))
  | .put id ref name createdAt =>
      let entry := s.store.getD id []
      (.ran, ({ s with
        store := s.store.set id (entry.update (newSession (s.heap ref) name createdAt entry))
        shown := id :: s.shown }).goto t (.dump id ref .create))
  | .require id a =>
      if s.store.contains id then (.ran, s.goto t (.lock id (.action a)))
      else (.ran, s.goto t .idle)
  | .lock id u => (.ran, s.goto t (.wait id u ⟨id, s.discards id⟩))
  | .wait id (.action a) lock => s.acquire t lock (.get id (.action a lock))
  | .wait id .delete lock => s.acquire t lock (.read id lock)
  | .get id u =>
      match s.flows.get? id with
      | some ref => (.ran, s.goto t (u.enter id ref))
      | none => (.ran, s.goto t (.load id u))
  | .load id u =>
      match FlowRepository.load rt co env s.store id with
      | .ok (some loaded) => (.ran, s.goto t (.set id u loaded.flow))
      | _ => (.ran, s.goto t (u.stop id))
  | .set id u flow => (.ran, (s.setFlow id flow).goto t (u.enter id s.allocated))
  | .act id a lock ref =>
      match AuditFlow.act rt env a.recorded (s.heap ref) with
      | (.ok _, f) => (.ran, (s.write ref f).goto t
          (.dump id ref (.action a lock f.state.approvalTrail)))
      | (.error _, f) => (.ran, (s.write ref f).goto t (.leave id lock none))
  | .phase id _ ref => (.ran, s.goto t (.dump id ref .phase))
  | .dump id ref k =>
      match s.saveLock with
      | none => (.ran, ({ s with saveLock := some t }).goto t (.write id ref (s.heap ref).state k))
      | some _ => s.blocked
  | .write id _ snapshot k =>
      let fields := FlowRepository.sessionFields co snapshot
      (.ran, ({ s with
        store := (FlowRepository.updateSession s.store id fields).getD s.store
        saveLock := none }).goto t (k.next id))
  | .submit id p k => (.ran, ({ s with jobs := s.jobs ++ [(id, p)] }).goto t (k.done id))
  | .read id lock => (.ran, s.goto t (.check id lock (s.store.get? id)))
  | .check id lock data =>
      match data with
      | some (kv :: rest) =>
          if s.hasSignOff rt id (kv :: rest) then (.ran, s.goto t (.leave id lock none))
          else (.ran, s.goto t (.drop id lock))
      | _ => (.ran, s.goto t (.drop id lock))
  | .drop id lock => (.ran, ({ s with store := s.store.without id }).goto t (.remove id lock))
  | .remove id lock => (.ran, ({ s with flows := s.flows.without id }).goto t (.discard id lock))
  | .discard id lock => (.ran, ({ s with
      discards := fun i => if i = id then s.discards i + 1 else s.discards i }).goto t
        (.leave id lock none))
  | .leave id lock answer =>
      (match answer with
        | some trail => .acknowledged id trail
        | none => .ran, (s.setActionLock lock none).goto t .idle)

def assign (s : SessionService) (t : ThreadId) (w : PhaseWrite) : ServiceResult × SessionService :=
  match s.pc t with
  | .phase _ p ref => (.ran, s.write ref (w.apply rt p (s.heap ref)))
  | _ => s.blocked

def fail (s : SessionService) (t : ThreadId) : ServiceResult × SessionService :=
  match s.pc t with
  | .phase _ _ _ => (.ran, s.goto t .idle)
  | _ => s.blocked

def restarted (s : SessionService) : SessionService :=
  { initial with store := s.store, issued := s.issued, shown := s.shown, named := s.named }

def step (s : SessionService) : ServiceLabel → ServiceResult × SessionService
  | .create t env id req => s.create rt t env id req
  | .action t id a => s.request t id (.require id a)
  | .delete t id => s.request t id (.lock id .delete)
  | .job t => s.job t
  | .run t env => s.run rt co t env (s.pc t)
  | .assign t w => s.assign rt t w
  | .fail t => s.fail t
  | .restart => (.ran, s.restarted)

/-- The service after a run from a process without sessions. -/
abbrev after (labels : List ServiceLabel) : SessionService :=
  LabelledRun.final (step rt co) initial labels

/-- The approval trail of a session as it is stored. -/
def persistedTrail (s : SessionService) (id : Str) : List Json :=
  storedTrail (storedSnapshot (s.store.getD id []))

end SessionService

end AuditSwarm
