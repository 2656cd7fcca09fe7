import AuditSwarm.Lib.Versions
import AuditSwarm.Model.ReviewerTokens

/-!
# Concurrent loads of the tokens file

`load_registry` of `reviewer_tokens.py` takes the stamp of the file, looks the path up in a cache
that all threads share, reads the file and stores what it read.  Each of these is a step of its
own here: between two steps of one call other calls take theirs, the file is replaced, and the
cache may be cleared.  A replacement puts a whole new version in place.
-/

namespace AuditSwarm

open Python

namespace ReviewerTokens

/-- What `load_registry` raises: a `ReviewerTokensError` or a `UnicodeDecodeError`. -/
inductive LoadError where
  | tokens (e : TokensError)
  | unicodeDecode
  deriving DecidableEq

/-- `(st_mtime_ns, st_size)` -/
abbrev Stamp := Int × Nat

/-- What the bytes of a file are as JSON text. -/
inductive FileContent where
  | json (data : Json)
  | notJson (lineno : Nat)
  | notUtf8

structure FileVersion where
  stamp : Stamp
  content : FileContent

/-- What an `OSError` with the given text becomes. -/
def cannotRead (text : Str) : LoadError :=
  .tokens (.reviewerTokens (lit "cannot read the reviewer tokens file: " ++ text))

/-- The file there is, unless the system refuses or there is none. -/
def openFile (fault : Option Str) (file : Option FileVersion) : Except LoadError FileVersion :=
  match fault, file with
  | some text, _ => .error (cannotRead text)
  | none, none => .error (cannotRead (lit "No such file or directory"))
  | none, some v => .ok v

section
variable (rt : Runtime)

/-- `read_registry`, once the file is open -/
def readVersion (v : FileVersion) : Except LoadError ReviewerRegistry :=
  match v.content with
  | .notUtf8 => .error .unicodeDecode
  | .notJson lineno =>
      .error (.tokens (.reviewerTokens
        (lit "the reviewer tokens file is not valid JSON (line " ++ decimal lineno ++ lit ")")))
  | .json data => (parseRegistry rt data).mapError .tokens

def readRegistry (fault : Option Str) (file : Option FileVersion) :
    Except LoadError ReviewerRegistry :=
  (openFile fault file).bind (readVersion rt)

/-! ## Calls -/

/-- How far a call of `load_registry` is. -/
inductive Phase where
  | started
  | statted (stamp : Stamp)
  | missed (stamp : Stamp)
  | parsed (stamp : Stamp) (registry : ReviewerRegistry)
  | returned (registry : ReviewerRegistry)
  | raised (e : LoadError)

structure Call where
  path : Str
  phase : Phase

/-- The versions each file has had, oldest first, `_cache`, and the calls so far. -/
structure LoadState where
  files : Str → List FileVersion
  cache : Dict Str (Stamp × ReviewerRegistry)
  calls : List Call

namespace LoadState

def current (s : LoadState) (path : Str) : Option FileVersion := (s.files path).getLast?

/-- The `i`-th call gets into a phase. -/
def enter (s : LoadState) (i : Nat) (path : Str) (phase : Phase) : LoadState :=
  { s with calls := s.calls.set i ⟨path, phase⟩ }

/-- `_cache[path] = (stamp, registry)` -/
def store (s : LoadState) (path : Str) (stamp : Stamp) (registry : ReviewerRegistry) :
    LoadState :=
  { s with cache := s.cache.set path (stamp, registry) }

end LoadState

def afterStat : Except LoadError FileVersion → Phase
  | .ok v => .statted v.stamp
  | .error e => .raised e

def afterLookup (stamp : Stamp) : Option (Stamp × ReviewerRegistry) → Phase
  | some cached => if cached.1 = stamp then .returned cached.2 else .missed stamp
  | none => .missed stamp

def afterRead (stamp : Stamp) : Except LoadError ReviewerRegistry → Phase
  | .ok registry => .parsed stamp registry
  | .error e => .raised e

/-- The next step of a call of `load_registry`; a fault is the text of an `OSError` that the
system raises where the step touches the file. -/
def advanceCall (s : LoadState) (i : Nat) (c : Call) (fault : Option Str) : LoadState :=
  match c.phase with
  | .started => s.enter i c.path (afterStat (openFile fault (s.current c.path)))
  | .statted stamp => s.enter i c.path (afterLookup stamp (s.cache.get? c.path))
  | .missed stamp =>
      s.enter i c.path (afterRead stamp (readRegistry rt fault (s.current c.path)))
  | .parsed stamp registry =>
      (s.store c.path stamp registry).enter i c.path (.returned registry)
  | .returned _ => s
  | .raised _ => s

/-! ## Interleavings -/

inductive LoadAction where
  /-- a thread calls `load_registry` -/
  | call (path : Str)
  /-- a call takes its next step -/
  | advance (i : Nat) (fault : Option Str)
  /-- `os.replace` puts a new version in place -/
  | replace (path : Str) (v : FileVersion)
  /-- `clear_cache` -/
  | clearCache

def loadStep (s : LoadState) : LoadAction → LoadState
  | .call path => { s with calls := s.calls ++ [⟨path, .started⟩] }
  | .advance i fault =>
      match s.calls[i]? with
      | some c => advanceCall rt s i c fault
      | none => s
  | .replace path v => { s with files := Function.update s.files path (s.files path ++ [v]) }
  | .clearCache => { s with cache := [] }

def runLoads (s : LoadState) (actions : List LoadAction) : LoadState :=
  actions.foldl (loadStep rt) s

def idle (files : Str → List FileVersion) : LoadState := ⟨files, [], []⟩

end

end ReviewerTokens

end AuditSwarm
