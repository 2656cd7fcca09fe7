import AuditSwarm.Model.ReviewerTokens

/-!
# The failed-attempt limiter

`FailureLimiter` of `reviewer_tokens.py` and the requests of `api/auth.py` that go through it.  A
request asks `retry_after`, evaluates its token and records a failure if the token is invalid.
Each of the two limiter calls reads the clock before it takes the lock, so these are steps of
their own; between the steps of one request other requests take theirs and time passes.
-/

namespace AuditSwarm

open Python

namespace ReviewerTokens

structure FailureLimiter where
  maxFailures : Nat
  window : ℚ

def defaultLimiter : FailureLimiter := ⟨10, 60⟩

/-- `int` of a number. -/
def truncate (x : ℚ) : Int := if 0 ≤ x then ⌊x⌋ else ⌈x⌉

/-- What `retry_after` answers: the number of seconds to wait, or `None`.  An empty deque has no
first element to compute a number from. -/
inductive RetryAnswer where
  | proceed
  | wait (seconds : Int)
  | indexError

namespace FailureLimiter

variable (limiter : FailureLimiter)

/-- The deque of a key as `_prune` leaves it. -/
def pruned (failures : Dict Str (List ℚ)) (key : Str) (now : ℚ) : List ℚ :=
  (failures.getD key []).dropWhile fun q => limiter.window ≤ now - q

def prune (failures : Dict Str (List ℚ)) (key : Str) (now : ℚ) : Dict Str (List ℚ) :=
  if limiter.pruned failures key now = [] then failures.filterKeys (· ≠ key)
  else failures.set key (limiter.pruned failures key now)

/-- `retry_after`, given the deque `_prune` leaves -/
def retryAfter (q : List ℚ) (now : ℚ) : RetryAnswer :=
  if q.length < limiter.maxFailures then .proceed
  else
    match q with
    | [] => .indexError
    | first :: _ => .wait (max 1 (truncate (limiter.window - (now - first)) + 1))

def recordFailure (failures : Dict Str (List ℚ)) (key : Str) (now : ℚ) : Dict Str (List ℚ) :=
  (limiter.prune failures key now).set key (limiter.pruned failures key now ++ [now])

end FailureLimiter

/-! ## Requests -/

/-- How far a request is.  From the evaluation of an invalid token on, the time of the evaluation
is kept. -/
inductive RequestPhase where
  | arrived
  /-- `retry_after` has read the clock -/
  | asking (now : ℚ)
  | limited (wait : Int)
  | crashed
  | allowed
  | accepted (name : Str)
  | raised (e : TokensError)
  | invalid (evaluated : ℚ)
  /-- `record_failure` has read the clock -/
  | failing (evaluated now : ℚ)
  | recorded (evaluated now : ℚ)

/-- A request with a token: the address it comes from and the registry loaded for it. -/
structure TokenRequest where
  key : Str
  registry : ReviewerRegistry
  token : Str
  phase : RequestPhase

/-- The clock, `_failures`, and the requests so far. -/
structure LimiterState where
  clock : ℚ
  failures : Dict Str (List ℚ)
  requests : List TokenRequest

def afterRetry : RetryAnswer → RequestPhase
  | .proceed => .allowed
  | .wait seconds => .limited seconds
  | .indexError => .crashed

def afterAuthenticate (clock : ℚ) : Except TokensError (Option Str) → RequestPhase
  | .ok (some name) => .accepted name
  | .ok none => .invalid clock
  | .error e => .raised e

section
variable (rt : Runtime) (limiter : FailureLimiter)

/-- The phase and the failures after the next step of a request. -/
def advanceRequest (s : LimiterState) (r : TokenRequest) : RequestPhase × Dict Str (List ℚ) :=
  match r.phase with
  | .arrived => (.asking s.clock, s.failures)
  | .asking now =>
      (afterRetry (limiter.retryAfter (limiter.pruned s.failures r.key now) now),
        limiter.prune s.failures r.key now)
  | .allowed =>
      (afterAuthenticate s.clock (authenticate rt r.registry (some r.token)), s.failures)
  | .invalid evaluated => (.failing evaluated s.clock, s.failures)
  | .failing evaluated now =>
      (.recorded evaluated now, limiter.recordFailure s.failures r.key now)
  | phase => (phase, s.failures)

/-! ## Interleavings -/

inductive LimiterAction where
  /-- time passes -/
  | tick (now : ℚ)
  /-- a request with a token comes in -/
  | arrive (key : Str) (registry : ReviewerRegistry) (token : Str)
  /-- a request takes its next step -/
  | advance (i : Nat)

def limiterStep (s : LimiterState) : LimiterAction → LimiterState
  | .tick now => { s with clock := max s.clock now }
  | .arrive key registry token =>
      { s with requests := s.requests ++ [⟨key, registry, token, .arrived⟩] }
  | .advance i =>
      match s.requests[i]? with
      | some r =>
          { s with
            failures := (advanceRequest rt limiter s r).2
            requests := s.requests.set i { r with phase := (advanceRequest rt limiter s r).1 } }
      | none => s

def runRequests (s : LimiterState) (actions : List LimiterAction) : LimiterState :=
  actions.foldl (limiterStep rt limiter) s

def quiet (clock : ℚ) : LimiterState := ⟨clock, [], []⟩

end

end ReviewerTokens

end AuditSwarm
