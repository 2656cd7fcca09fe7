import AuditSwarm.Lib.RLock
import AuditSwarm.Lib.Records
import AuditSwarm.Lib.Run
import AuditSwarm.Model.Repository

/-!
# The session store

`session_manager.py`, as its threads run it: `_load` reads the sessions file without the lock and
takes the lock only to move a corrupt file aside; `save_session`, `update_session` and
`delete_session` hold the lock around their read and their write.  A thread runs from one access to
the file or the lock to the next; in between another thread may run.
-/

namespace AuditSwarm

open Python

inductive SessionsFile where
  | absent
  | sessions (data : Sessions)
  /-- Bytes that are not a JSON object. -/
  | corrupt (bytes : Bytes)

abbrev ThreadId := Nat

inductive StoreCall where
  | saveSession (threadId name scopeText : Str) (chatHistory : List Json)
      (extraFields : Dict Str Json)
  | updateSession (threadId : Str) (fields : Dict Str Json)
  | deleteSession (threadId : Str)
  | getSession (threadId : Str)
  | listSessions

namespace StoreCall

def writes : StoreCall → Bool
  | saveSession .. => true
  | updateSession .. => true
  | deleteSession .. => true
  | getSession .. => false
  | listSessions => false

end StoreCall

inductive StorePc where
  | idle
  /-- Before `with _LOCK` of a writer. -/
  | enter (c : StoreCall)
  /-- Before the first `_read_file` of `_load`. -/
  | read (c : StoreCall)
  /-- Before `with _LOCK` of `_load`. -/
  | recheck (c : StoreCall)
  /-- Before the second `_read_file` of `_load`. -/
  | reread (c : StoreCall)
  /-- Before `_backup_corrupt_file`. -/
  | backup (c : StoreCall)
  /-- After `_load`, with the map it returned. -/
  | loaded (c : StoreCall) (data : Sessions)
  /-- Before a writer gives the lock back. -/
  | leave

structure SessionStore where
  file : SessionsFile
  /-- The files moved aside, by the timestamp in their name. -/
  backups : Dict Str SessionsFile
  lock : RLock ThreadId
  pc : ThreadId → StorePc

/-- What one step of a thread did. -/
inductive StoreResult where
  /-- Another thread holds the lock, or there is nothing to do. -/
  | blocked
  | ran
  | write (w : RecordWrite Str Str Json)
  /-- A reader is done, with the map it has read. -/
  | returned (data : Sessions)

/-- A thread starts a call, or goes on with the one it has; the texts are the current time, as
`created_at` and as a backup's timestamp. -/
inductive StoreLabel where
  | call (t : ThreadId) (c : StoreCall)
  | run (t : ThreadId) (now stamp : Str)

namespace SessionStore

def initial (file : SessionsFile) (backups : Dict Str SessionsFile) : SessionStore where
  file := file
  backups := backups
  lock := RLock.free
  pc := fun _ => .idle

def goto (s : SessionStore) (t : ThreadId) (p : StorePc) : SessionStore :=
  { s with pc := fun u => if u = t then p else s.pc u }

/-- The fields `save_session` sets in the entry of a session. -/
def savedFields (now name scopeText : Str) (chatHistory : List Json)
    (extraFields entry : Dict Str Json) : Dict Str Json :=
  let chat := if chatHistory = [] then entry.getD (lit "chat_history") (.arr [])
    else .arr chatHistory
  (if entry.contains (lit "created_at") then [] else [(lit "created_at", .str now)]) ++
    [(lit "name", .str name), (lit "scope_preview", .str (scopeText.take 200)),
      (lit "scope_text", .str scopeText), (lit "chat_history", chat)] ++ extraFields

/-- `_save` of the map after a write. -/
def save (s : SessionStore) (t : ThreadId) (data : Sessions) (w : RecordWrite Str Str Json) :
    StoreResult × SessionStore :=
  (.write w, ({ s with file := .sessions (w.apply data) }).goto t .leave)

/-- `update_session` never creates a session. -/
def update (s : SessionStore) (t : ThreadId) (data : Sessions) (id : Str)
    (fields : Dict Str Json) : StoreResult × SessionStore :=
  if data.contains id then s.save t data (.wrote id fields) else (.ran, s.goto t .leave)

/-- What a call does with the map it has loaded. -/
def finish (s : SessionStore) (t : ThreadId) (now : Str) (data : Sessions) :
    StoreCall → StoreResult × SessionStore
  | .saveSession id name scopeText chatHistory extraFields =>
      s.save t data (.wrote id
        (savedFields now name scopeText chatHistory extraFields (data.getD id [])))
  | .updateSession id fields => s.update t data id fields
  | .deleteSession id => s.save t data (.deleted id)
  | .getSession _ => (.returned data, s.goto t .idle)
  | .listSessions => (.returned data, s.goto t .idle)

def acquire (s : SessionStore) (t : ThreadId) (p : StorePc) : StoreResult × SessionStore :=
  match s.lock.acquire t with
  | some lock => (.ran, ({ s with lock := lock }).goto t p)
  | none => (.blocked, s)

def release (s : SessionStore) (t : ThreadId) (p : StorePc) : StoreResult × SessionStore :=
  (.ran, ({ s with lock := s.lock.release }).goto t p)

/-- `_read_file` without the lock. -/
def read (s : SessionStore) (t : ThreadId) (c : StoreCall) : StoreResult × SessionStore :=
  match s.file with
  | .absent => (.ran, s.goto t (.loaded c []))
  | .sessions data => (.ran, s.goto t (.loaded c data))
  | .corrupt _ => (.ran, s.goto t (.recheck c))

/-- `_read_file` again, under the lock. -/
def reread (s : SessionStore) (t : ThreadId) (c : StoreCall) : StoreResult × SessionStore :=
  match s.file with
  | .absent => s.release t (.loaded c [])
  | .sessions data => s.release t (.loaded c data)
  | .corrupt _ => (.ran, s.goto t (.backup c))

/-- `_backup_corrupt_file` -/
def backup (s : SessionStore) (t : ThreadId) (stamp : Str) (c : StoreCall) :
    StoreResult × SessionStore :=
  ({ s with file := .absent, backups := s.backups.set stamp s.file }).release t (.loaded c [])

def run (s : SessionStore) (t : ThreadId) (now stamp : Str) : StorePc → StoreResult × SessionStore
  | .idle => (.blocked, s)
  | .enter c => s.acquire t (.read c)
  | .read c => s.read t c
  | .recheck c => s.acquire t (.reread c)
  | .reread c => s.reread t c
  | .backup c => s.backup t stamp c
  | .loaded c data => s.finish t now data c
  | .leave => s.release t .idle

def start (s : SessionStore) (t : ThreadId) (c : StoreCall) : StorePc → StoreResult × SessionStore
  | .idle => (.ran, s.goto t (if c.writes then .enter c else .read c))
  | _ => (.blocked, s)

def step (s : SessionStore) : StoreLabel → StoreResult × SessionStore
  | .call t c => s.start t c (s.pc t)
  | .run t now stamp => s.run t now stamp (s.pc t)

end SessionStore

/-- The map in a file, empty where there is none to read. -/
def SessionsFile.data : SessionsFile → Sessions
  | absent => []
  | sessions data => data
  | corrupt _ => []

def StoreResult.write? : StoreResult → Option (RecordWrite Str Str Json)
  | write w => some w
  | _ => none

end AuditSwarm
