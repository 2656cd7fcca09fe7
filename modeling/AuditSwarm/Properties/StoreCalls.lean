import AuditSwarm.Model.SessionService
import AuditSwarm.Properties.StoreHistory

/-!
# The calls of the session store

A call that has finished has done its work once, and as if in one step: the step in which it is
done makes of the file what the call makes of it, and no other step changes what the file holds.
So the threads of the API process may take the calls of the store in one step each.
-/

namespace AuditSwarm

open Python

/-! ## Calls in one step -/

namespace StoreCall

/-- What a call writes that finds this map in the file. -/
def write? (now : Str) (data : Sessions) : StoreCall → Option (RecordWrite Str Str Json)
  | saveSession id name scopeText chatHistory extraFields => some (.wrote id
      (SessionStore.savedFields now name scopeText chatHistory extraFields (data.getD id [])))
  | updateSession id fields => if data.contains id then some (.wrote id fields) else none
  | deleteSession id => some (.deleted id)
  | getSession _ => none
  | listSessions => none

/-- What a call makes of the map, in one step. -/
def atOnce (now : Str) (data : Sessions) : StoreCall → Sessions
  | saveSession id name scopeText chatHistory extraFields =>
      data.set id ((data.getD id []).update
        (SessionStore.savedFields now name scopeText chatHistory extraFields (data.getD id [])))
  | updateSession id fields => (FlowRepository.updateSession data id fields).getD data
  | deleteSession id => data.without id
  | getSession _ => data
  | listSessions => data

theorem getD_updateSession (data : Sessions) (id : Str) (fields : Dict Str Json) :
    (FlowRepository.updateSession data id fields).getD data =
      if data.contains id then data.set id ((data.getD id []).update fields) else data := by
  unfold FlowRepository.updateSession
  cases hget : data.get? id with
  | none =>
      rw [if_neg (by simp [Dict.contains, hget])]
      rfl
  | some entry =>
      rw [if_pos (by simp [Dict.contains, hget]), Dict.getD, hget]
      rfl

theorem atOnce_eq (now : Str) (data : Sessions) (c : StoreCall) :
    c.atOnce now data = ((c.write? now data).map (RecordWrite.apply data)).getD data := by
  cases c with
  | updateSession id fields =>
      simp only [atOnce, write?]
      rw [getD_updateSession]
      by_cases hin : data.contains id = true
      · rw [if_pos hin, if_pos hin]
        rfl
      · rw [if_neg hin, if_neg hin]
        rfl
  | _ => rfl

end StoreCall

namespace SessionStore

variable {s s' : SessionStore} {t u : ThreadId} {p : StorePc} {r : StoreResult}
  {file : SessionsFile} {backups : Dict Str SessionsFile}

/-- The thread whose call is done in a step, with the time it takes and the call. -/
def doneBy (s : SessionStore) : StoreLabel → Option (ThreadId × Str × StoreCall)
  | .call _ _ => none
  | .run t now _ =>
      match s.pc t with
      | .loaded c _ => some (t, now, c)
      | _ => none

abbrev done (tr : Transition SessionStore StoreLabel StoreResult) :
    Option (ThreadId × Str × StoreCall) := tr.before.doneBy tr.label

/-! ## Writes -/

theorem write?_acquire (s : SessionStore) (t : ThreadId) (p : StorePc) :
    (s.acquire t p).1.write? = none := by
  unfold acquire
  cases s.lock.acquire t with
  | none => rfl
  | some lock => rfl

theorem write?_read (s : SessionStore) (t : ThreadId) (c : StoreCall) :
    (s.read t c).1.write? = none := by
  unfold read
  cases s.file with
  | absent => rfl
  | sessions data => rfl
  | corrupt bytes => rfl

theorem write?_reread (s : SessionStore) (t : ThreadId) (c : StoreCall) :
    (s.reread t c).1.write? = none := by
  unfold reread
  cases s.file with
  | absent => rfl
  | sessions data => rfl
  | corrupt bytes => rfl

theorem write?_finish (s : SessionStore) (t : ThreadId) (now : Str) (data : Sessions)
    (c : StoreCall) : (s.finish t now data c).1.write? = c.write? now data := by
  cases c with
  | updateSession id fields =>
      show (s.update t data id fields).1.write? =
        if data.contains id then some (.wrote id fields) else none
      unfold update
      by_cases hin : data.contains id = true
      · rw [if_pos hin, if_pos hin]
        rfl
      · rw [if_neg hin, if_neg hin]
        rfl
  | _ => rfl

theorem write?_start (s : SessionStore) (t : ThreadId) (c : StoreCall) (p : StorePc) :
    (s.start t c p).1.write? = none := by
  cases p <;> rfl

/-- A thread that is about to finish a call has the map that is in the file, or does not write. -/
theorem write?_of_loaded {c : StoreCall} {data : Sessions} (hknown : Informed s)
    (hpc : s.pc t = .loaded c data) (now : Str) :
    c.write? now data = c.write? now s.file.data := by
  have hdata := hknown t
  rw [hpc] at hdata
  by_cases hc : c.writes = true
  · rw [(hdata hc).1]
  · cases c with
    | getSession id => rfl
    | listSessions => rfl
    | _ => exact absurd rfl hc

/-- A step writes what the call writes that is done in it, and nothing if no call is. -/
theorem write?_step (hknown : Informed s) (l : StoreLabel) :
    (s.step l).1.write? = (s.doneBy l).bind fun d => d.2.2.write? d.2.1 s.file.data := by
  cases l with
  | call t c => exact write?_start s t c _
  | run t now stamp =>
      simp only [step, doneBy]
      cases hpc : s.pc t with
      | idle => rfl
      | enter c => exact write?_acquire s t _
      | read c => exact write?_read s t c
      | recheck c => exact write?_acquire s t _
      | reread c => exact write?_reread s t c
      | backup c => rfl
      | loaded c data =>
          exact (write?_finish s t now data c).trans (write?_of_loaded hknown hpc now)
      | leave => rfl

/-- What the file holds after a step is what the call makes of it that is done in the step. -/
theorem data_step {past : List (Transition SessionStore StoreLabel StoreResult)}
    (h : Sound file backups past s) (l : StoreLabel) :
    (s.step l).2.file.data =
      ((s.doneBy l).map fun d => d.2.2.atOnce d.2.1 s.file.data).getD s.file.data := by
  have hbefore := h.kept.content
  have hafter := (h.step l).kept.content
  rw [writesOf_concat, historyAfter] at hafter
  have hwrite : (LabelledRun.transition step s l).result.write? = _ := write?_step h.informed l
  rw [hafter, hwrite]
  cases s.doneBy l with
  | none => exact hbefore.symm
  | some d =>
      rw [Option.bind_some, Option.map_some, Option.getD_some, StoreCall.atOnce_eq]
      cases d.2.2.write? d.2.1 s.file.data with
      | none => exact hbefore.symm
      | some w =>
          rw [Option.map_some, Option.getD_some, hbefore]
          rfl

/-! ## Calls -/

/-- The call a thread has begun and not done its work for. -/
def pending : StorePc → List StoreCall
  | .idle => []
  | .enter c => [c]
  | .read c => [c]
  | .recheck c => [c]
  | .reread c => [c]
  | .backup c => [c]
  | .loaded c _ => [c]
  | .leave => []

/-- The call of a thread that begins in a step. -/
def begins (t : ThreadId) (tr : Transition SessionStore StoreLabel StoreResult) :
    Option StoreCall :=
  match tr.label, tr.before.pc t with
  | .call u c, .idle => if u = t then some c else none
  | _, _ => none

/-- The call of a thread that is done in a step. -/
def does (t : ThreadId) (tr : Transition SessionStore StoreLabel StoreResult) :
    Option StoreCall :=
  (done tr).bind fun d => if d.1 = t then some d.2.2 else none

theorem Move.pc_of_ne (hmove : Move s t r s') (hu : u ≠ t) : s'.pc u = s.pc u := by
  cases hmove with
  | stay hr => rfl
  | _ => exact goto_pc_of_ne _ _ hu

theorem pending_acquire (hp : pending p = pending (s.pc t)) :
    pending ((s.acquire t p).2.pc t) = pending (s.pc t) := by
  unfold acquire
  cases s.lock.acquire t with
  | none => rfl
  | some lock =>
      show pending ((SessionStore.goto _ t p).pc t) = _
      rw [goto_pc_self, hp]

theorem pending_read (s : SessionStore) (t : ThreadId) (c : StoreCall) :
    pending ((s.read t c).2.pc t) = [c] := by
  unfold read
  cases s.file with
  | absent => exact congrArg pending (goto_pc_self s t _)
  | sessions data => exact congrArg pending (goto_pc_self s t _)
  | corrupt bytes => exact congrArg pending (goto_pc_self s t _)

theorem pending_reread (s : SessionStore) (t : ThreadId) (c : StoreCall) :
    pending ((s.reread t c).2.pc t) = [c] := by
  unfold reread
  cases s.file with
  | absent => exact congrArg pending (goto_pc_self _ t _)
  | sessions data => exact congrArg pending (goto_pc_self _ t _)
  | corrupt bytes => exact congrArg pending (goto_pc_self s t _)

theorem pending_finish (s : SessionStore) (t : ThreadId) (now : Str) (data : Sessions)
    (c : StoreCall) : pending ((s.finish t now data c).2.pc t) = [] := by
  cases c with
  | updateSession id fields =>
      show pending ((s.update t data id fields).2.pc t) = []
      unfold update
      by_cases hin : data.contains id = true
      · rw [if_pos hin]
        exact congrArg pending (goto_pc_self _ t _)
      · rw [if_neg hin]
        exact congrArg pending (goto_pc_self _ t _)
  | _ => exact congrArg pending (goto_pc_self _ t _)

/-- A thread begins a call only when it has none. -/
theorem pending_start (s : SessionStore) (t : ThreadId) (c : StoreCall) :
    pending (s.pc t) ++ (begins t (LabelledRun.transition step s (.call t c))).toList =
      pending ((s.start t c (s.pc t)).2.pc t) := by
  unfold begins
  dsimp only [LabelledRun.transition]
  cases hpc : s.pc t with
  | idle =>
      dsimp only
      rw [if_pos rfl]
      show [c] = pending ((s.goto t (if c.writes then .enter c else .read c)).pc t)
      rw [goto_pc_self]
      by_cases hc : c.writes = true
      · rw [if_pos hc]
        rfl
      · rw [if_neg hc]
        rfl
  | _ => exact (List.append_nil _).trans (congrArg pending hpc.symm)

theorem pending_run (s : SessionStore) (t : ThreadId) (now stamp : Str) :
    pending (s.pc t) = (does t (LabelledRun.transition step s (.run t now stamp))).toList ++
      pending ((s.run t now stamp (s.pc t)).2.pc t) := by
  unfold does done doneBy
  dsimp only [LabelledRun.transition]
  cases hpc : s.pc t with
  | idle => exact congrArg pending hpc.symm
  | enter c => exact ((pending_acquire (by rw [hpc]; rfl)).trans (congrArg pending hpc)).symm
  | read c => exact (pending_read s t c).symm
  | recheck c => exact ((pending_acquire (by rw [hpc]; rfl)).trans (congrArg pending hpc)).symm
  | reread c => exact (pending_reread s t c).symm
  | backup c =>
      have hafter : (s.run t now stamp (.backup c)).2.pc t = .loaded c [] := goto_pc_self _ t _
      rw [hafter]
      rfl
  | loaded c data =>
      simp only [Option.bind_some, if_pos, Option.toList_some]
      show [c] = [c] ++ pending ((s.finish t now data c).2.pc t)
      rw [pending_finish, List.append_nil]
  | leave =>
      have hafter : (s.run t now stamp .leave).2.pc t = .idle := goto_pc_self _ t _
      rw [hafter]
      rfl

theorem begins_of_ne {l : StoreLabel} (hne : t ≠ l.thread) :
    begins t (LabelledRun.transition step s l) = none := by
  unfold begins
  dsimp only [LabelledRun.transition]
  cases l with
  | call u c =>
      cases s.pc t with
      | idle => exact if_neg fun h => hne h.symm
      | _ => rfl
  | run u now stamp => rfl

theorem does_of_ne {l : StoreLabel} (hne : t ≠ l.thread) :
    does t (LabelledRun.transition step s l) = none := by
  unfold does done doneBy
  dsimp only [LabelledRun.transition]
  cases l with
  | call u c => rfl
  | run u now stamp =>
      dsimp only
      cases s.pc u with
      | loaded c data => exact if_neg fun h => hne h.symm
      | _ => rfl

/-- A step begins a call of a thread that has none, is the one in which a call is done, or leaves
the thread with the call it has. -/
theorem pending_step (hknown : Informed s) (t : ThreadId) (l : StoreLabel) :
    pending (s.pc t) ++ (begins t (LabelledRun.transition step s l)).toList =
      (does t (LabelledRun.transition step s l)).toList ++ pending ((s.step l).2.pc t) := by
  by_cases ht : t = l.thread
  · subst ht
    cases l with
    | call t c => exact pending_start s t c
    | run t now stamp => exact (List.append_nil _).trans (pending_run s t now stamp)
  · rw [begins_of_ne ht, does_of_ne ht, (move_step hknown l).pc_of_ne ht]
    exact List.append_nil _

/-! ## Runs -/

theorem storeTrace_concat (file : SessionsFile) (backups : Dict Str SessionsFile)
    (labels : List StoreLabel) (l : StoreLabel) :
    storeTrace file backups (labels ++ [l]) = storeTrace file backups labels ++
      [LabelledRun.transition step (storeAfter file backups labels) l] :=
  LabelledRun.trace_append step _ labels [l]

/-- Whatever the interleaving, the file holds what the calls that are done make of it one after
the other, each in one step and in the order in which they were done. -/
theorem store_at_once (file : SessionsFile) (backups : Dict Str SessionsFile)
    (labels : List StoreLabel) :
    (storeAfter file backups labels).file.data =
      ((storeTrace file backups labels).filterMap done).foldl
        (fun data d => d.2.2.atOnce d.2.1 data) file.data := by
  induction labels using List.reverseRecOn with
  | nil => rfl
  | append_singleton labels l ih =>
      have hstep := data_step (sound_of_run file backups labels) l
      change _ = ((done (LabelledRun.transition step (storeAfter file backups labels) l)).map
        _).getD _ at hstep
      rw [storeAfter_concat, storeTrace_concat, List.filterMap_append, List.foldl_append, ← ih,
        hstep]
      cases hdone : done (LabelledRun.transition step (storeAfter file backups labels) l) with
      | none =>
          rw [List.filterMap_cons_none hdone]
          rfl
      | some d =>
          rw [List.filterMap_cons_some hdone]
          rfl

/-- The calls a thread has begun are those that are done, once each and in their order, and the one
it is in. -/
theorem calls_done_once (file : SessionsFile) (backups : Dict Str SessionsFile)
    (labels : List StoreLabel) (t : ThreadId) :
    (storeTrace file backups labels).filterMap (begins t) =
      (storeTrace file backups labels).filterMap (does t) ++
        pending ((storeAfter file backups labels).pc t) := by
  induction labels using List.reverseRecOn with
  | nil => rfl
  | append_singleton labels l ih =>
      have hstep := pending_step (sound_of_run file backups labels).informed t l
      rw [storeAfter_concat, storeTrace_concat, List.filterMap_append, List.filterMap_append, ih,
        List.append_assoc, List.append_assoc]
      exact congrArg (_ ++ ·) hstep

end SessionStore

/-! ## The API process -/

namespace SessionService

variable {rt : Runtime} {co : Coercions}

/-- The call of the store that a thread makes from where it is, with the time it takes. -/
def callAt (co : Coercions) (s : SessionService) : ServicePc → Option (Str × StoreCall)
  | .put id ref name createdAt =>
      let state := (s.heap ref).state
      some (createdAt, .saveSession id name state.businessContext []
        [(lit "status", .str state.status), (lit "created_at", .str createdAt),
          (lit "prepared_by", .str state.preparedBy)])
  | .write id _ snapshot _ =>
      some ([], .updateSession id (FlowRepository.sessionFields co snapshot))
  | .drop id _ => some ([], .deleteSession id)
  | _ => none

def storeCall (co : Coercions) (s : SessionService) : ServiceLabel → Option (Str × StoreCall)
  | .run t _ => s.callAt co (s.pc t)
  | _ => none

theorem store_acquire (s : SessionService) (t : ThreadId) (lock : ActionLock) (p : ServicePc) :
    (s.acquire t lock p).2.store = s.store := by
  unfold acquire
  cases s.actionLocks lock with
  | none => rfl
  | some holder => rfl

theorem store_create (s : SessionService) (t : ThreadId) (env : Env) (id : Str)
    (req : CreateRequest) : (s.create rt t env id req).2.store = s.store := by
  unfold create
  split
  · split
    · rfl
    · split <;> rfl
  · rfl

theorem store_request (s : SessionService) (t : ThreadId) (id : Str) (p : ServicePc) :
    (s.request t id p).2.store = s.store := by
  unfold request
  split
  · split <;> rfl
  · rfl

theorem store_run (s : SessionService) (t : ThreadId) (env : Env) (p : ServicePc) :
    (s.run rt co t env p).2.store =
      ((s.callAt co p).map fun c => c.2.atOnce c.1 s.store).getD s.store := by
  cases p with
  | require id a =>
      unfold run
      dsimp only
      split <;> rfl
  | wait id u lock =>
      cases u with
      | action a => exact store_acquire s t lock _
      | delete => exact store_acquire s t lock _
  | get id u =>
      unfold run
      dsimp only
      split <;> rfl
  | load id u =>
      unfold run
      dsimp only
      split <;> rfl
  | act id a lock ref =>
      unfold run
      dsimp only
      split <;> rfl
  | dump id ref k =>
      unfold run
      dsimp only
      split <;> rfl
  | check id lock data =>
      unfold run
      dsimp only
      split
      · split <;> rfl
      · rfl
  | _ => rfl

/-- A step changes the sessions on disk as the call of the store does that it makes, taken in one
step, and not at all if it makes none. -/
theorem store_step (s : SessionService) (l : ServiceLabel) :
    (s.step rt co l).2.store =
      ((s.storeCall co l).map fun c => c.2.atOnce c.1 s.store).getD s.store := by
  cases l with
  | create t env id req => exact store_create s t env id req
  | action t id a => exact store_request s t id _
  | delete t id => exact store_request s t id _
  | job t =>
      show (s.job t).2.store = s.store
      unfold job
      split <;> rfl
  | run t env => exact store_run s t env _
  | assign t w =>
      show (s.assign rt t w).2.store = s.store
      unfold assign
      split <;> rfl
  | fail t =>
      show (s.fail t).2.store = s.store
      unfold fail
      split <;> rfl
  | restart => rfl

abbrev called (co : Coercions) (tr : Transition SessionService ServiceLabel ServiceResult) :
    Option (Str × StoreCall) := tr.before.storeCall co tr.label

/-- The calls of the store that the threads make in a run, in their order. -/
def storeCalls (rt : Runtime) (co : Coercions) (labels : List ServiceLabel) :
    List (Str × StoreCall) :=
  (LabelledRun.trace (step rt co) initial labels).filterMap (called co)

theorem store_after (labels : List ServiceLabel) :
    (after rt co labels).store =
      (storeCalls rt co labels).foldl (fun data c => c.2.atOnce c.1 data) [] := by
  induction labels using List.reverseRecOn with
  | nil => rfl
  | append_singleton labels l ih =>
      have hfinal : after rt co (labels ++ [l]) = ((after rt co labels).step rt co l).2 :=
        LabelledRun.final_append _ _ labels [l]
      have hstep := @store_step rt co (after rt co labels) l
      change _ = ((called co (LabelledRun.transition (step rt co) (after rt co labels) l)).map
        _).getD _ at hstep
      rw [hfinal, hstep, storeCalls, LabelledRun.trace_append, List.filterMap_append,
        List.foldl_append, ← storeCalls, ← ih]
      cases hcall : called co (LabelledRun.transition (step rt co) (after rt co labels) l) with
      | none =>
          rw [LabelledRun.trace, List.filterMap_cons_none hcall]
          rfl
      | some c =>
          rw [LabelledRun.trace, List.filterMap_cons_some hcall]
          rfl

/-- The store, step by step and in any interleaving, holds what the process has that takes the same
calls in one step each. -/
theorem store_refines (labels : List ServiceLabel) (steps : List StoreLabel)
    (hcalls : ((SessionStore.storeTrace .absent [] steps).filterMap SessionStore.done).map
      Prod.snd = storeCalls rt co labels) :
    (SessionStore.storeAfter .absent [] steps).file.data = (after rt co labels).store := by
  rw [SessionStore.store_at_once, store_after, ← hcalls, List.foldl_map]
  rfl

end SessionService

end AuditSwarm
