import AuditSwarm.Lib.Counting
import AuditSwarm.Model.FailureLimiter

/-!
# Invalid tokens within a window

An invalid token that `retry_after` lets through counts towards the limit only once its failure is
recorded.  Where every such token finds fewer than `max_failures` failures on record together with
the invalid tokens let through before it and not recorded yet, no window sees more than
`max_failures` of them evaluated; requests that ask at the same time get past the limit.
-/

namespace AuditSwarm

open Python

namespace ReviewerTokens

/-! ## Windows -/

def isInvalid : Except TokensError (Option Str) → Bool
  | .ok none => true
  | _ => false

def RequestPhase.evaluatedAt : RequestPhase → Option ℚ
  | .invalid evaluated => some evaluated
  | .failing evaluated _ => some evaluated
  | .recorded evaluated _ => some evaluated
  | _ => none

/-- The reading of the clock a failure is recorded with. -/
def RequestPhase.recordedAt : RequestPhase → Option ℚ
  | .recorded _ now => some now
  | _ => none

/-- Let through by `retry_after`, and not recorded as a failure. -/
def RequestPhase.underway : RequestPhase → Bool
  | .allowed => true
  | .invalid _ => true
  | .failing _ _ => true
  | _ => false

section
variable (rt : Runtime)

def TokenRequest.guesses (key : Str) (r : TokenRequest) : Bool :=
  r.key = key && isInvalid (authenticate rt r.registry (some r.token))

/-- The invalid tokens of an address evaluated in the window of the given length from a time
on. -/
def evaluatedWithin (s : LimiterState) (key : Str) (start length : ℚ) : Nat :=
  s.requests.countP fun r => r.guesses rt key &&
    r.phase.evaluatedAt.any fun e => start ≤ e && e < start + length

/-- The invalid tokens of an address let through and not recorded yet. -/
def countUnderway (s : LimiterState) (key : Str) : Nat :=
  s.requests.countP fun r => r.guesses rt key && r.phase.underway

/-- If the step lets an invalid token through, it finds fewer than `max_failures` failures on
record together with the invalid tokens of the address that are underway. -/
def uncontended (limiter : FailureLimiter) (s : LimiterState) : LimiterAction → Bool
  | .advance i =>
      match s.requests[i]? with
      | some ⟨key, registry, token, .asking now⟩ =>
          !isInvalid (authenticate rt registry (some token)) ||
            limiter.maxFailures ≤ (limiter.pruned s.failures key now).length ||
            (limiter.pruned s.failures key now).length + countUnderway rt s key <
              limiter.maxFailures
      | _ => true
  | _ => true

def allUncontended (limiter : FailureLimiter) : LimiterState → List LimiterAction → Bool
  | _, [] => true
  | s, action :: actions =>
      uncontended rt limiter s action &&
        allUncontended limiter (limiterStep rt limiter s action) actions

end

/-! ## The deques -/

section
variable {limiter : FailureLimiter} {failures : Dict Str (List ℚ)} {key other : Str} {now : ℚ}

theorem getD_prune_self :
    (limiter.prune failures key now).getD key [] = limiter.pruned failures key now := by
  rw [FailureLimiter.prune]
  by_cases hempty : limiter.pruned failures key now = []
  · rw [if_pos hempty, Dict.getD, Dict.get?_filterKeys_of_neg (by simp), hempty]
    rfl
  · rw [if_neg hempty, Dict.getD, Dict.get?_set_self]
    rfl

theorem getD_prune_of_ne (h : key ≠ other) :
    (limiter.prune failures other now).getD key [] = failures.getD key [] := by
  rw [FailureLimiter.prune]
  by_cases hempty : limiter.pruned failures other now = []
  · rw [if_pos hempty, Dict.getD, Dict.get?_filterKeys_of_pos (by simpa using h), Dict.getD]
  · rw [if_neg hempty, Dict.getD, Dict.get?_set_of_ne _ _ h, Dict.getD]

theorem getD_recordFailure_self :
    (limiter.recordFailure failures key now).getD key [] =
      limiter.pruned failures key now ++ [now] := by
  rw [FailureLimiter.recordFailure, Dict.getD, Dict.get?_set_self]
  rfl

theorem getD_recordFailure_of_ne (h : key ≠ other) :
    (limiter.recordFailure failures other now).getD key [] = failures.getD key [] := by
  rw [FailureLimiter.recordFailure, Dict.getD, Dict.get?_set_of_ne _ _ h]
  exact getD_prune_of_ne h

theorem countP_pruned {clock start : ℚ} (hnow : now ≤ clock)
    (hstart : clock < start + limiter.window) :
    (limiter.pruned failures key now).countP (fun q => decide (start ≤ q)) =
      (failures.getD key []).countP fun q => decide (start ≤ q) := by
  rw [FailureLimiter.pruned]
  apply List.countP_dropWhile
  intro q hq
  have hold := of_decide_eq_true hq
  exact decide_eq_false (by linarith)

end

/-! ## The invariant -/

/-- A failure is recorded with a reading of the clock no earlier than the evaluation. -/
def RequestPhase.Timely (clock : ℚ) : RequestPhase → Prop
  | .asking now => now ≤ clock
  | .invalid evaluated => evaluated ≤ clock
  | .failing evaluated now => evaluated ≤ now ∧ now ≤ clock
  | .recorded evaluated now => evaluated ≤ now
  | _ => True

theorem RequestPhase.Timely.mono {clock later : ℚ} {phase : RequestPhase}
    (h : phase.Timely clock) (hle : clock ≤ later) : phase.Timely later := by
  cases phase with
  | asking now => exact le_trans h hle
  | invalid evaluated => exact le_trans h hle
  | failing evaluated now => exact ⟨h.1, le_trans h.2 hle⟩
  | recorded evaluated now => exact h
  | _ => trivial

def RequestPhase.recordedSince (start : ℚ) (phase : RequestPhase) : Bool :=
  phase.recordedAt.any fun now => start ≤ now

/-- Evaluated from a time on, or let through and still to be evaluated. -/
def RequestPhase.committedSince (start : ℚ) : RequestPhase → Bool
  | .allowed => true
  | phase => phase.evaluatedAt.any fun e => start ≤ e

/-- A recorded failure was evaluated before it was recorded; the others are underway. -/
theorem RequestPhase.underway_or_recordedSince {clock start : ℚ} {phase : RequestPhase}
    (htimely : phase.Timely clock) (h : phase.committedSince start = true) :
    phase.underway = true ∨ phase.recordedSince start = true := by
  cases phase with
  | allowed => exact .inl rfl
  | invalid evaluated => exact .inl rfl
  | failing evaluated now => exact .inl rfl
  | recorded evaluated now =>
      have hstart : start ≤ evaluated := of_decide_eq_true h
      exact .inr (decide_eq_true (hstart.trans htimely))
  | _ => exact absurd h Bool.false_ne_true

section
variable {rt : Runtime} {limiter : FailureLimiter} {key : Str} {s : LimiterState}

/-- For an address: while a window is open, the failures recorded in it are on record, and no more
than `max_failures` invalid tokens are evaluated in it or let through; so no window has more. -/
structure Bounded (rt : Runtime) (limiter : FailureLimiter) (key : Str) (s : LimiterState) :
    Prop where
  timely : ∀ r ∈ s.requests, r.phase.Timely s.clock
  onRecord : ∀ start, s.clock < start + limiter.window →
    (s.requests.countP fun r => r.guesses rt key && r.phase.recordedSince start) ≤
      (s.failures.getD key []).countP fun q => decide (start ≤ q)
  committed : ∀ start, s.clock < start + limiter.window →
    (s.requests.countP fun r => r.guesses rt key && r.phase.committedSince start) ≤
      limiter.maxFailures
  windows : ∀ start, evaluatedWithin rt s key start limiter.window ≤ limiter.maxFailures

theorem bounded_quiet (clock : ℚ) : Bounded rt limiter key (quiet clock) where
  timely := fun _ hr => absurd hr List.not_mem_nil
  onRecord := fun _ _ => Nat.zero_le _
  committed := fun _ _ => Nat.zero_le _
  windows := fun _ => Nat.zero_le _

/-- What is evaluated in an open window is evaluated from its start on. -/
theorem evaluatedWithin_le_committed {requests : List TokenRequest} {start length : ℚ} :
    (requests.countP fun r => r.guesses rt key &&
        r.phase.evaluatedAt.any fun e => start ≤ e && e < start + length) ≤
      requests.countP fun r => r.guesses rt key && r.phase.committedSince start := by
  apply List.countP_mono_left
  intro r _ h
  rw [Bool.and_eq_true] at h ⊢
  refine ⟨h.1, ?_⟩
  have hany := h.2
  cases hphase : r.phase with
  | invalid evaluated =>
      rw [hphase] at hany
      exact (Bool.and_eq_true_iff.mp hany).1
  | failing evaluated now =>
      rw [hphase] at hany
      exact (Bool.and_eq_true_iff.mp hany).1
  | recorded evaluated now =>
      rw [hphase] at hany
      exact (Bool.and_eq_true_iff.mp hany).1
  | _ =>
      rw [hphase] at hany
      exact absurd hany Bool.false_ne_true

/-- A request enters a phase.  An evaluation takes place at the time on the clock. -/
theorem Bounded.enter {i : Nat} {r : TokenRequest} {phase : RequestPhase}
    {failures : Dict Str (List ℚ)} (h : Bounded rt limiter key s)
    (hget : s.requests[i]? = some r) (htimely : phase.Timely s.clock)
    (honRecord : ∀ start, s.clock < start + limiter.window →
      ((s.requests.set i { r with phase }).countP fun r =>
          r.guesses rt key && r.phase.recordedSince start) ≤
        (failures.getD key []).countP fun q => decide (start ≤ q))
    (hcommitted : ∀ start, s.clock < start + limiter.window →
      ((s.requests.set i { r with phase }).countP fun r =>
          r.guesses rt key && r.phase.committedSince start) ≤ limiter.maxFailures)
    (hevaluated : ∀ e, phase.evaluatedAt = some e →
      r.phase.evaluatedAt = some e ∨ e = s.clock) :
    Bounded rt limiter key
      { s with failures, requests := s.requests.set i { r with phase } } where
  timely := by
    intro r' hr'
    rcases List.mem_or_eq_of_mem_set hr' with hold | rfl
    · exact h.timely r' hold
    · exact htimely
  onRecord := honRecord
  committed := hcommitted
  windows := by
    intro start
    by_cases hopen : s.clock < start + limiter.window
    · exact evaluatedWithin_le_committed.trans (hcommitted start hopen)
    · refine le_trans (List.countP_set_le hget ?_) (h.windows start)
      intro hwithin
      rw [Bool.and_eq_true] at hwithin ⊢
      refine ⟨hwithin.1, ?_⟩
      rcases (Option.any_eq_true _ _).mp hwithin.2 with ⟨e, he, hin⟩
      rcases hevaluated e he with hold | hnow
      · rw [hold]
        exact hin
      · rw [Bool.and_eq_true, decide_eq_true_eq, decide_eq_true_eq] at hin
        exact absurd (hnow ▸ hin.2) hopen

theorem Bounded.enter_idle {i : Nat} {r : TokenRequest} {phase : RequestPhase}
    {failures : Dict Str (List ℚ)} (h : Bounded rt limiter key s)
    (hget : s.requests[i]? = some r) (htimely : phase.Timely s.clock)
    (hfailures : ∀ start, s.clock < start + limiter.window →
      ((failures.getD key []).countP fun q => decide (start ≤ q)) =
        (s.failures.getD key []).countP fun q => decide (start ≤ q))
    (hrecorded : phase.recordedAt = none)
    (hcommitted : ∀ start, phase.committedSince start = true →
      r.phase.committedSince start = true)
    (hevaluated : ∀ e, phase.evaluatedAt = some e →
      r.phase.evaluatedAt = some e ∨ e = s.clock) :
    Bounded rt limiter key
      { s with failures, requests := s.requests.set i { r with phase } } := by
  refine h.enter hget htimely ?_ ?_ hevaluated
  · intro start hstart
    rw [hfailures start hstart]
    refine le_trans (List.countP_set_le hget ?_) (h.onRecord start hstart)
    intro hsince
    have hnone : phase.recordedSince start = true := (Bool.and_eq_true_iff.mp hsince).2
    rw [RequestPhase.recordedSince, hrecorded] at hnone
    cases hnone
  · intro start hstart
    refine le_trans (List.countP_set_le hget ?_) (h.committed start hstart)
    intro hsince
    rw [Bool.and_eq_true] at hsince ⊢
    exact ⟨hsince.1, hcommitted start hsince.2⟩

/-! ## Steps -/

theorem Bounded.tick (h : Bounded rt limiter key s) (now : ℚ) :
    Bounded rt limiter key { s with clock := max s.clock now } where
  timely := fun r hr => (h.timely r hr).mono (le_max_left _ _)
  onRecord := fun start hstart =>
    h.onRecord start (lt_of_le_of_lt (le_max_left s.clock now) hstart)
  committed := fun start hstart =>
    h.committed start (lt_of_le_of_lt (le_max_left s.clock now) hstart)
  windows := h.windows

theorem Bounded.arrive (h : Bounded rt limiter key s) (origin : Str) (registry : ReviewerRegistry)
    (token : Str) : Bounded rt limiter key
      { s with requests := s.requests ++ [⟨origin, registry, token, .arrived⟩] } where
  timely := by
    intro r hr
    rcases List.mem_append.mp hr with hold | hnew
    · exact h.timely r hold
    · rw [List.mem_singleton.mp hnew]
      trivial
  onRecord := by
    intro start hstart
    rw [List.countP_append, List.countP_singleton, if_neg (by simp [RequestPhase.recordedSince,
      RequestPhase.recordedAt])]
    exact h.onRecord start hstart
  committed := by
    intro start hstart
    rw [List.countP_append, List.countP_singleton, if_neg (by simp [RequestPhase.committedSince,
      RequestPhase.evaluatedAt])]
    exact h.committed start hstart
  windows := by
    intro start
    rw [evaluatedWithin, List.countP_append, List.countP_singleton,
      if_neg (by simp [RequestPhase.evaluatedAt])]
    exact h.windows start

/-- While a window is open, what is evaluated in it or let through is underway or on record. -/
theorem Bounded.committed_le (h : Bounded rt limiter key s) {start : ℚ}
    (hstart : s.clock < start + limiter.window) :
    (s.requests.countP fun r => r.guesses rt key && r.phase.committedSince start) ≤
      countUnderway rt s key +
        (s.failures.getD key []).countP fun q => decide (start ≤ q) := by
  have hsplit : (s.requests.countP fun r => r.guesses rt key && r.phase.committedSince start) ≤
      (s.requests.countP fun r => r.guesses rt key && r.phase.underway) +
        s.requests.countP fun r => r.guesses rt key && r.phase.recordedSince start := by
    apply List.countP_le_add
    intro r hr hcommitted
    have hboth := Bool.and_eq_true_iff.mp hcommitted
    rcases RequestPhase.underway_or_recordedSince (h.timely r hr) hboth.2 with hunder | hsince
    · exact .inl (Bool.and_eq_true_iff.mpr ⟨hboth.1, hunder⟩)
    · exact .inr (Bool.and_eq_true_iff.mpr ⟨hboth.1, hsince⟩)
  have hrecord := h.onRecord start hstart
  rw [countUnderway]
  omega

/-- Pruning the deque of any address keeps what is within the window. -/
theorem countP_prune {failures : Dict Str (List ℚ)} {other : Str} {now clock start : ℚ}
    (hnow : now ≤ clock) (hstart : clock < start + limiter.window) :
    (((limiter.prune failures other now).getD key []).countP fun q => decide (start ≤ q)) =
      (failures.getD key []).countP fun q => decide (start ≤ q) := by
  by_cases hkey : key = other
  · rw [← hkey, getD_prune_self]
    exact countP_pruned hnow hstart
  · rw [getD_prune_of_ne hkey]

/-- Recording a failure adds its reading to the deque of its address. -/
theorem countP_recordFailure {failures : Dict Str (List ℚ)} {other : Str}
    {now clock start : ℚ} (hnow : now ≤ clock) (hstart : clock < start + limiter.window) :
    (((limiter.recordFailure failures other now).getD key []).countP
        fun q => decide (start ≤ q)) =
      ((failures.getD key []).countP fun q => decide (start ≤ q)) +
        if key = other ∧ start ≤ now then 1 else 0 := by
  by_cases hkey : key = other
  · rw [← hkey, getD_recordFailure_self, List.countP_append, countP_pruned hnow hstart,
      List.countP_singleton]
    simp
  · rw [getD_recordFailure_of_ne hkey, if_neg (fun hboth => hkey hboth.1), Nat.add_zero]

theorem length_lt_of_proceed {q : List ℚ} {now : ℚ} (h : limiter.retryAfter q now = .proceed) :
    q.length < limiter.maxFailures := by
  by_contra hlt
  unfold FailureLimiter.retryAfter at h
  rw [if_neg hlt] at h
  cases q with
  | nil => cases h
  | cons first q => cases h

theorem Bounded.retry {i : Nat} {r : TokenRequest} {now : ℚ} (h : Bounded rt limiter key s)
    (hget : s.requests[i]? = some r) (hphase : r.phase = .asking now)
    (hfew : r.guesses rt key = true →
      (limiter.pruned s.failures r.key now).length < limiter.maxFailures →
      (limiter.pruned s.failures r.key now).length + countUnderway rt s key <
        limiter.maxFailures) :
    Bounded rt limiter key
      { s with
        failures := limiter.prune s.failures r.key now
        requests := s.requests.set i { r with
          phase := afterRetry (limiter.retryAfter (limiter.pruned s.failures r.key now) now) } }
    := by
  have hnow : now ≤ s.clock := by
    have htimely := h.timely r (List.mem_of_getElem? hget)
    rw [hphase] at htimely
    exact htimely
  have hfailures : ∀ start, s.clock < start + limiter.window →
      (((limiter.prune s.failures r.key now).getD key []).countP
          fun q => decide (start ≤ q)) =
        (s.failures.getD key []).countP fun q => decide (start ≤ q) :=
    fun start hstart => countP_prune hnow hstart
  cases hanswer : limiter.retryAfter (limiter.pruned s.failures r.key now) now with
  | wait seconds =>
      exact h.enter_idle hget trivial hfailures rfl (fun _ hc => absurd hc Bool.false_ne_true)
        fun _ he => by cases he
  | indexError =>
      exact h.enter_idle hget trivial hfailures rfl (fun _ hc => absurd hc Bool.false_ne_true)
        fun _ he => by cases he
  | proceed =>
      have hproceed : (limiter.pruned s.failures r.key now).length < limiter.maxFailures :=
        length_lt_of_proceed hanswer
      refine h.enter hget trivial ?_ ?_ fun _ he => by cases he
      · intro start hstart
        rw [hfailures start hstart]
        refine le_trans (List.countP_set_le hget ?_) (h.onRecord start hstart)
        intro hsince
        exact absurd (Bool.and_eq_true_iff.mp hsince).2 Bool.false_ne_true
      · intro start hstart
        by_cases hguess : r.guesses rt key = true
        · -- the address of the request is the one counted for
          have hkey : r.key = key := of_decide_eq_true (Bool.and_eq_true_iff.mp hguess).1
          have hless := hfew hguess hproceed
          have hle := h.committed_le hstart
          have hpruned : ((limiter.pruned s.failures key now).countP
              fun q => decide (start ≤ q)) =
                (s.failures.getD key []).countP fun q => decide (start ≤ q) :=
            countP_pruned hnow hstart
          have hlength : ((limiter.pruned s.failures key now).countP
              fun q => decide (start ≤ q)) ≤ (limiter.pruned s.failures key now).length :=
            List.countP_le_length
          rw [hkey] at hless
          refine le_trans List.countP_set_le_succ ?_
          omega
        · refine le_trans (List.countP_set_le hget ?_) (h.committed start hstart)
          intro hcommitted
          exact absurd (Bool.and_eq_true_iff.mp hcommitted).1 hguess

theorem Bounded.record {i : Nat} {r : TokenRequest} {evaluated now : ℚ}
    (h : Bounded rt limiter key s) (hget : s.requests[i]? = some r)
    (hphase : r.phase = .failing evaluated now) :
    Bounded rt limiter key
      { s with
        failures := limiter.recordFailure s.failures r.key now
        requests := s.requests.set i { r with phase := .recorded evaluated now } } := by
  have htimely := h.timely r (List.mem_of_getElem? hget)
  rw [hphase] at htimely
  refine h.enter hget htimely.1 ?_ ?_ ?_
  · intro start hstart
    have hbefore := h.onRecord start hstart
    rw [countP_recordFailure htimely.2 hstart]
    by_cases hcounts : key = r.key ∧ start ≤ now
    · rw [if_pos hcounts]
      exact le_trans List.countP_set_le_succ (by omega)
    · rw [if_neg hcounts, Nat.add_zero]
      refine le_trans (List.countP_set_le hget ?_) hbefore
      intro hsince
      rw [Bool.and_eq_true] at hsince
      have hkey : r.key = key := of_decide_eq_true (Bool.and_eq_true_iff.mp hsince.1).1
      exact absurd ⟨hkey.symm, of_decide_eq_true hsince.2⟩ hcounts
  · intro start hstart
    refine le_trans (List.countP_set_le hget ?_) (h.committed start hstart)
    intro hcommitted
    rw [hphase]
    exact hcommitted
  · intro e he
    rw [hphase]
    exact .inl he

theorem Bounded.advance {i : Nat} {r : TokenRequest} (h : Bounded rt limiter key s)
    (hget : s.requests[i]? = some r) (hok : uncontended rt limiter s (.advance i) = true) :
    Bounded rt limiter key
      { s with
        failures := (advanceRequest rt limiter s r).2
        requests := s.requests.set i { r with phase := (advanceRequest rt limiter s r).1 } } := by
  have hsame : ∀ phase, r.phase = phase → Bounded rt limiter key
      { s with requests := s.requests.set i { r with phase } } := by
    intro phase hphase
    refine h.enter hget (hphase ▸ h.timely r (List.mem_of_getElem? hget)) ?_ ?_ ?_
    · intro start hstart
      refine le_trans (List.countP_set_le hget ?_) (h.onRecord start hstart)
      intro hsince
      rw [hphase]
      exact hsince
    · intro start hstart
      refine le_trans (List.countP_set_le hget ?_) (h.committed start hstart)
      intro hcommitted
      rw [hphase]
      exact hcommitted
    · intro e he
      rw [hphase]
      exact .inl he
  unfold advanceRequest
  cases hphase : r.phase with
  | arrived =>
      exact h.enter_idle hget (le_refl s.clock) (fun _ _ => rfl) rfl
        (fun _ hc => absurd hc Bool.false_ne_true) fun _ he => by cases he
  | asking now =>
      refine h.retry hget hphase ?_
      intro hguess hless
      have hkey : r.key = key := of_decide_eq_true (Bool.and_eq_true_iff.mp hguess).1
      rcases r with ⟨origin, registry, token, phase⟩
      simp only at hphase hkey
      subst hphase hkey
      rw [uncontended, hget] at hok
      simp only [TokenRequest.guesses, Bool.and_eq_true] at hguess
      simp only [hguess.2, Bool.not_true, Bool.false_or, Bool.or_eq_true,
        decide_eq_true_eq] at hok
      have hless' : (limiter.pruned s.failures origin now).length < limiter.maxFailures := hless
      rcases hok with hfull | hfew
      · omega
      · exact hfew
  | allowed =>
      cases hauth : authenticate rt r.registry (some r.token) with
      | error e =>
          exact h.enter_idle hget trivial (fun _ _ => rfl) rfl
            (fun _ hc => absurd hc Bool.false_ne_true) fun _ he => by cases he
      | ok found =>
          cases found with
          | some name =>
              exact h.enter_idle hget trivial (fun _ _ => rfl) rfl
                (fun _ hc => absurd hc Bool.false_ne_true) fun _ he => by cases he
          | none =>
              refine h.enter_idle hget (le_refl s.clock) (fun _ _ => rfl) rfl ?_ ?_
              · intro start _
                rw [hphase]
                rfl
              · intro e he
                exact .inr (Option.some.inj he).symm
  | invalid evaluated =>
      have htimely := h.timely r (List.mem_of_getElem? hget)
      rw [hphase] at htimely
      refine h.enter_idle hget ⟨htimely, le_refl s.clock⟩ (fun _ _ => rfl) rfl ?_ ?_
      · intro start hc
        rw [hphase]
        exact hc
      · intro e he
        rw [hphase]
        exact .inl he
  | failing evaluated now => exact h.record hget hphase
  | limited seconds => exact hsame _ hphase
  | crashed => exact hsame _ hphase
  | accepted name => exact hsame _ hphase
  | raised e => exact hsame _ hphase
  | recorded evaluated now => exact hsame _ hphase

theorem Bounded.step {action : LimiterAction} (h : Bounded rt limiter key s)
    (hok : uncontended rt limiter s action = true) :
    Bounded rt limiter key (limiterStep rt limiter s action) := by
  cases action with
  | tick now => exact h.tick now
  | arrive origin registry token => exact h.arrive origin registry token
  | advance i =>
      rw [limiterStep]
      cases hget : s.requests[i]? with
      | none => exact h
      | some r => exact h.advance hget hok

/-! ## Runs -/

theorem Bounded.run {actions : List LimiterAction} (h : Bounded rt limiter key s)
    (hok : allUncontended rt limiter s actions = true) :
    Bounded rt limiter key (runRequests rt limiter s actions) := by
  induction actions generalizing s with
  | nil => exact h
  | cons action actions ih =>
      rw [allUncontended, Bool.and_eq_true] at hok
      exact ih (h.step hok.1) hok.2

theorem allUncontended_take {actions : List LimiterAction} (n : Nat)
    (hok : allUncontended rt limiter s actions = true) :
    allUncontended rt limiter s (actions.take n) = true := by
  induction actions generalizing s n with
  | nil => rw [List.take_nil]; rfl
  | cons action actions ih =>
      cases n with
      | zero => rfl
      | succ n =>
          rw [allUncontended, Bool.and_eq_true] at hok
          rw [List.take_succ_cons, allUncontended, Bool.and_eq_true]
          exact ⟨hok.1, ih n hok.2⟩

end

/-- Where every invalid token that `retry_after` lets through finds fewer than `max_failures`
failures on record or underway, no state of the run has more than `max_failures` invalid tokens of
an address evaluated within a window. -/
theorem invalidTokens_bounded (rt : Runtime) (limiter : FailureLimiter) (clock : ℚ)
    (actions : List LimiterAction)
    (hok : allUncontended rt limiter (quiet clock) actions = true) :
    ∀ n key start,
      evaluatedWithin rt (runRequests rt limiter (quiet clock) (actions.take n)) key start
        limiter.window ≤ limiter.maxFailures := by
  intro n key start
  have hbounded : Bounded rt limiter key
      (runRequests rt limiter (quiet clock) (actions.take n)) :=
    (bounded_quiet clock).run (allUncontended_take n hok)
  exact hbounded.windows start

namespace RequestSample

/-- Requests with one token each, none of them in the registry. -/
def guesses (n : Nat) : List LimiterAction :=
  List.replicate n (.arrive (lit "10.0.0.1") ⟨[]⟩ (lit "grcrt_"))

def everyone (n : Nat) : List LimiterAction := (List.range n).map .advance

/-- Eleven requests at once: all ask before any of them is evaluated. -/
def elevenAtOnce : List LimiterAction := guesses 11 ++ everyone 11 ++ everyone 11 ++ everyone 11

def twoInTurn : List LimiterAction :=
  guesses 2 ++ List.replicate 5 (.advance 0) ++ List.replicate 5 (.advance 1)

end RequestSample

theorem invalidTokens_bounded_twoInTurn :
    allUncontended (Runtime.ascii Runtime.transparentDigest) defaultLimiter (quiet 0)
      RequestSample.twoInTurn = true ∧
    evaluatedWithin (Runtime.ascii Runtime.transparentDigest)
      (runRequests (Runtime.ascii Runtime.transparentDigest) defaultLimiter (quiet 0)
        (RequestSample.twoInTurn.take 12)) (lit "10.0.0.1") 0 defaultLimiter.window ≤
      defaultLimiter.maxFailures :=
  ⟨by decide +kernel, invalidTokens_bounded (Runtime.ascii Runtime.transparentDigest)
    defaultLimiter 0 RequestSample.twoInTurn (by decide +kernel) 12 (lit "10.0.0.1") 0⟩

/-- Eleven requests that ask at the same time are all let through. -/
theorem elevenAtOnce_exceeds :
    ¬ ∀ (rt : Runtime) (clock : ℚ) (actions : List LimiterAction) (key : Str) (start : ℚ),
      evaluatedWithin rt (runRequests rt defaultLimiter (quiet clock) actions) key start
        defaultLimiter.window ≤ defaultLimiter.maxFailures := by
  intro h
  exact absurd (h (Runtime.ascii Runtime.transparentDigest) 0 RequestSample.elevenAtOnce
    (lit "10.0.0.1") 0) (by decide +kernel)

end ReviewerTokens

end AuditSwarm
