import AuditSwarm.Model.TokenCache

/-!
# Revoked tokens

What is cached, or held by a call on its way to the cache, is never older than the stamp it is
held with.  So a call that starts after a version of the tokens file is in place returns what that
version or a later one holds, whatever the other calls do meanwhile.
-/

namespace AuditSwarm

open Python Versions

namespace ReviewerTokens

variable {rt : Runtime}

/-! ## Runs -/

def Parses (rt : Runtime) (v : FileVersion) (registry : ReviewerRegistry) : Prop :=
  readVersion rt v = .ok registry

theorem openFile_eq_ok {fault : Option Str} {file : Option FileVersion} {v : FileVersion}
    (h : openFile fault file = .ok v) : file = some v := by
  cases fault with
  | some text => simp only [openFile, reduceCtorEq] at h
  | none =>
      cases file with
      | none => simp only [openFile, reduceCtorEq] at h
      | some w =>
          simp only [openFile, Except.ok.injEq] at h
          rw [h]

theorem readRegistry_eq_ok {fault : Option Str} {file : Option FileVersion}
    {registry : ReviewerRegistry} (h : readRegistry rt fault file = .ok registry) :
    ∃ v, file = some v ∧ Parses rt v registry := by
  cases hopen : openFile fault file with
  | error e =>
      rw [readRegistry, hopen] at h
      exact absurd h (by simp [Except.bind])
  | ok v =>
      rw [readRegistry, hopen] at h
      exact ⟨v, openFile_eq_ok hopen, h⟩

theorem files_advanceCall (s : LoadState) (i : Nat) (c : Call) (fault : Option Str) :
    (advanceCall rt s i c fault).files = s.files := by
  unfold advanceCall
  cases c.phase <;> rfl

theorem getElem?_advanceCall_of_ne {s : LoadState} {i j : Nat} {c : Call} {fault : Option Str}
    (hij : i ≠ j) : (advanceCall rt s i c fault).calls[j]? = s.calls[j]? := by
  unfold advanceCall
  cases c.phase with
  | returned registry => rfl
  | raised e => rfl
  | _ => exact List.getElem?_set_ne hij

theorem files_loadStep (rt : Runtime) (s : LoadState) (action : LoadAction) (path : Str) :
    ∃ later, (loadStep rt s action).files path = s.files path ++ later := by
  cases action with
  | call p => exact ⟨[], (List.append_nil _).symm⟩
  | advance i fault =>
      refine ⟨[], ?_⟩
      rw [List.append_nil, loadStep]
      cases s.calls[i]? with
      | none => rfl
      | some c => exact congrFun (files_advanceCall s i c fault) path
  | replace p v =>
      rw [loadStep]
      by_cases hp : path = p
      · subst hp
        exact ⟨[v], Function.update_self path _ s.files⟩
      · refine ⟨[], ?_⟩
        rw [List.append_nil]
        exact Function.update_of_ne hp _ s.files
  | clearCache => exact ⟨[], (List.append_nil _).symm⟩

/-! ## The invariant -/

/-- What a phase may be in, given the versions so far, when no stamp taken is that of a version
before the `b`-th. -/
def PhaseFrom (rt : Runtime) (versions : List FileVersion) (b : Nat) : Phase → Prop
  | .started => True
  | .statted stamp => StampFrom FileVersion.stamp versions b stamp
  | .missed stamp => StampFrom FileVersion.stamp versions b stamp
  | .parsed stamp registry =>
      PairFrom FileVersion.stamp (Parses rt) versions b stamp registry
  | .returned registry => ValueFrom (Parses rt) versions b registry
  | .raised _ => True

theorem PhaseFrom.append {versions later : List FileVersion} {b : Nat} {phase : Phase}
    (h : PhaseFrom rt versions b phase) : PhaseFrom rt (versions ++ later) b phase := by
  cases phase with
  | started => exact h
  | statted stamp => exact StampFrom.append h
  | missed stamp => exact StampFrom.append h
  | parsed stamp registry => exact PairFrom.append h
  | returned registry => exact ValueFrom.append h
  | raised e => exact h

/-- At a path, nothing cached is older than its stamp, and every call from the `n`-th on is ahead
of the versions before the `b`-th. -/
structure Fresh (rt : Runtime) (path : Str) (n b : Nat) (s : LoadState) : Prop where
  present : b ≤ (s.files path).length - 1
  cached : ∀ stamp registry, s.cache.get? path = some (stamp, registry) →
    PairFrom FileVersion.stamp (Parses rt) (s.files path) 0 stamp registry
  calls : ∀ (i : Nat) (c : Call), s.calls[i]? = some c → c.path = path →
    PhaseFrom rt (s.files path) 0 c.phase
  ahead : ∀ (i : Nat) (c : Call), n ≤ i → s.calls[i]? = some c → c.path = path →
    PhaseFrom rt (s.files path) b c.phase

variable {path : Str} {n b : Nat} {s : LoadState}

theorem Fresh.grow {s' : LoadState} {later : List FileVersion} (h : Fresh rt path n b s)
    (hfiles : s'.files path = s.files path ++ later) (hcache : s'.cache = s.cache)
    (hcalls : s'.calls = s.calls) : Fresh rt path n b s' where
  present := by
    have hp := h.present
    rw [hfiles, List.length_append]
    omega
  cached := by
    intro stamp registry hget
    rw [hfiles]
    rw [hcache] at hget
    exact (h.cached stamp registry hget).append
  calls := by
    intro i c hget hpath
    rw [hfiles]
    rw [hcalls] at hget
    exact (h.calls i c hget hpath).append
  ahead := by
    intro i c hi hget hpath
    rw [hfiles]
    rw [hcalls] at hget
    exact (h.ahead i c hi hget hpath).append

theorem Fresh.enter {i : Nat} {c : Call} {phase : Phase} (h : Fresh rt path n b s)
    (hphase : c.path = path → PhaseFrom rt (s.files path) 0 phase)
    (hahead : n ≤ i → c.path = path → PhaseFrom rt (s.files path) b phase) :
    Fresh rt path n b (s.enter i c.path phase) where
  present := h.present
  cached := h.cached
  calls := by
    intro j d hget hpath
    rw [LoadState.enter, List.getElem?_set] at hget
    by_cases hij : i = j
    · rw [if_pos hij] at hget
      by_cases hlt : i < s.calls.length
      · rw [if_pos hlt] at hget
        cases hget
        exact hphase hpath
      · rw [if_neg hlt] at hget
        cases hget
    · rw [if_neg hij] at hget
      exact h.calls j d hget hpath
  ahead := by
    intro j d hj hget hpath
    rw [LoadState.enter, List.getElem?_set] at hget
    by_cases hij : i = j
    · rw [if_pos hij] at hget
      by_cases hlt : i < s.calls.length
      · rw [if_pos hlt] at hget
        cases hget
        exact hahead (hij ▸ hj) hpath
      · rw [if_neg hlt] at hget
        cases hget
    · rw [if_neg hij] at hget
      exact h.ahead j d hj hget hpath

theorem Fresh.store {p : Str} {stamp : Stamp} {registry : ReviewerRegistry}
    (h : Fresh rt path n b s)
    (hpair : p = path → PairFrom FileVersion.stamp (Parses rt) (s.files path) 0 stamp registry) :
    Fresh rt path n b (s.store p stamp registry) where
  present := h.present
  cached := by
    intro stamp' registry' hget
    rw [LoadState.store] at hget
    by_cases hp : path = p
    · rw [hp, Dict.get?_set_self] at hget
      cases hget
      exact hpair hp.symm
    · rw [Dict.get?_set_of_ne _ _ hp] at hget
      exact h.cached stamp' registry' hget
  calls := h.calls
  ahead := h.ahead

/-! ## Steps -/

theorem phaseFrom_afterStat {versions : List FileVersion} {fault : Option Str} :
    PhaseFrom rt versions (versions.length - 1)
      (afterStat (openFile fault versions.getLast?)) := by
  cases hopen : openFile fault versions.getLast? with
  | error e => trivial
  | ok v => exact stampFrom_getLast? (openFile_eq_ok hopen)

theorem PhaseFrom.mono {versions : List FileVersion} {c : Nat} {phase : Phase}
    (h : PhaseFrom rt versions b phase) (hle : c ≤ b) : PhaseFrom rt versions c phase := by
  cases phase with
  | started => exact h
  | statted stamp => exact StampFrom.mono h hle
  | missed stamp => exact StampFrom.mono h hle
  | parsed stamp registry => exact PairFrom.mono h hle
  | returned registry => exact ValueFrom.mono h hle
  | raised e => exact h

/-- A hit is as recent as the stamp that was taken. -/
theorem phaseFrom_afterLookup {versions : List FileVersion} {stamp : Stamp}
    {cached : Option (Stamp × ReviewerRegistry)}
    (hcached : ∀ st registry, cached = some (st, registry) →
      PairFrom FileVersion.stamp (Parses rt) versions 0 st registry)
    (hnodup : (versions.map FileVersion.stamp).Nodup)
    (hstamp : StampFrom FileVersion.stamp versions b stamp) :
    PhaseFrom rt versions b (afterLookup stamp cached) := by
  cases cached with
  | none => exact hstamp
  | some pair =>
      rw [afterLookup]
      by_cases hhit : pair.1 = stamp
      · rw [if_pos hhit]
        have hpair := hcached pair.1 pair.2 rfl
        rw [hhit] at hpair
        exact hpair.value_of_stampFrom hnodup hstamp
      · rw [if_neg hhit]
        exact hstamp

theorem phaseFrom_afterRead {versions : List FileVersion} {stamp : Stamp} {fault : Option Str}
    (hstamp : StampFrom FileVersion.stamp versions b stamp) :
    PhaseFrom rt versions b (afterRead stamp (readRegistry rt fault versions.getLast?)) := by
  cases hread : readRegistry rt fault versions.getLast? with
  | error e => trivial
  | ok registry =>
      rcases readRegistry_eq_ok hread with ⟨v, hlast, hparses⟩
      exact hstamp.pair hlast hparses

theorem fresh_advanceCall {i : Nat} {c : Call} {fault : Option Str} (h : Fresh rt path n b s)
    (hnodup : ((s.files path).map FileVersion.stamp).Nodup) (hget : s.calls[i]? = some c) :
    Fresh rt path n b (advanceCall rt s i c fault) := by
  have hcall := fun hpath => h.calls i c hget hpath
  have hahead := fun hi hpath => h.ahead i c hi hget hpath
  unfold advanceCall
  cases hphase : c.phase with
  | started =>
      have hstat : c.path = path → PhaseFrom rt (s.files path) ((s.files path).length - 1)
          (afterStat (openFile fault (s.current c.path))) := by
        intro hpath
        rw [hpath]
        exact phaseFrom_afterStat
      exact h.enter (fun hpath => (hstat hpath).mono (Nat.zero_le _))
        fun _ hpath => (hstat hpath).mono h.present
  | statted stamp =>
      rw [hphase] at hcall hahead
      refine h.enter ?_ ?_
      · intro hpath
        rw [hpath]
        exact phaseFrom_afterLookup h.cached hnodup (hcall hpath)
      · intro hi hpath
        rw [hpath]
        exact phaseFrom_afterLookup h.cached hnodup (hahead hi hpath)
  | missed stamp =>
      rw [hphase] at hcall hahead
      refine h.enter ?_ ?_
      · intro hpath
        rw [hpath]
        exact phaseFrom_afterRead (hcall hpath)
      · intro hi hpath
        rw [hpath]
        exact phaseFrom_afterRead (hahead hi hpath)
  | parsed stamp registry =>
      rw [hphase] at hcall hahead
      exact (h.store hcall).enter (fun hpath => PairFrom.value (hcall hpath))
        fun hi hpath => PairFrom.value (hahead hi hpath)
  | returned registry => exact h
  | raised e => exact h

theorem fresh_loadStep {action : LoadAction} (h : Fresh rt path n b s)
    (hnodup : ((s.files path).map FileVersion.stamp).Nodup) :
    Fresh rt path n b (loadStep rt s action) := by
  cases action with
  | call p =>
      have hnew : ∀ (i : Nat) (c : Call), (s.calls ++ [⟨p, .started⟩])[i]? = some c →
          s.calls[i]? = some c ∨ c.phase = .started := by
        intro i c hget
        rw [List.getElem?_append] at hget
        by_cases hlt : i < s.calls.length
        · rw [if_pos hlt] at hget
          exact .inl hget
        · rw [if_neg hlt] at hget
          rw [List.mem_singleton.mp (List.mem_of_getElem? hget)]
          exact .inr rfl
      refine ⟨h.present, h.cached, ?_, ?_⟩
      · intro i c hget hpath
        rcases hnew i c hget with hold | hstarted
        · exact h.calls i c hold hpath
        · rw [hstarted]
          trivial
      · intro i c hi hget hpath
        rcases hnew i c hget with hold | hstarted
        · exact h.ahead i c hi hold hpath
        · rw [hstarted]
          trivial
  | advance i fault =>
      rw [loadStep]
      cases hget : s.calls[i]? with
      | none => exact h
      | some c => exact fresh_advanceCall h hnodup hget
  | replace p v =>
      rcases files_loadStep rt s (.replace p v) path with ⟨later, hfiles⟩
      exact h.grow hfiles rfl rfl
  | clearCache =>
      exact { h with cached := fun stamp registry hget => absurd hget (by simp [loadStep]) }

/-! ## Progress -/

/-- The steps of its own a call has before it, at most. -/
def Phase.stepsLeft : Phase → Nat
  | .started => 4
  | .statted _ => 3
  | .missed _ => 2
  | .parsed _ _ => 1
  | .returned _ => 0
  | .raised _ => 0

def LoadAction.advances (i : Nat) : LoadAction → Bool
  | .advance j _ => j = i
  | _ => false

theorem stepsLeft_le (phase : Phase) : phase.stepsLeft ≤ 4 := by
  cases phase <;> simp [Phase.stepsLeft]

theorem finished_of_stepsLeft_eq_zero {phase : Phase} (h : phase.stepsLeft = 0) :
    (∃ registry, phase = .returned registry) ∨ ∃ e, phase = .raised e := by
  cases phase with
  | returned registry => exact .inl ⟨registry, rfl⟩
  | raised e => exact .inr ⟨e, rfl⟩
  | _ => cases h

theorem stepsLeft_afterStat (opened : Except LoadError FileVersion) :
    (afterStat opened).stepsLeft ≤ 3 := by
  cases opened with
  | ok v => exact le_rfl
  | error e => exact Nat.zero_le _

theorem stepsLeft_afterLookup (stamp : Stamp) (cached : Option (Stamp × ReviewerRegistry)) :
    (afterLookup stamp cached).stepsLeft ≤ 2 := by
  cases cached with
  | none => exact le_rfl
  | some pair =>
      rw [afterLookup]
      by_cases h : pair.1 = stamp
      · rw [if_pos h]
        exact Nat.zero_le _
      · rw [if_neg h]
        exact le_rfl

theorem stepsLeft_afterRead (stamp : Stamp) (read : Except LoadError ReviewerRegistry) :
    (afterRead stamp read).stepsLeft ≤ 1 := by
  cases read with
  | ok registry => exact le_rfl
  | error e => exact Nat.zero_le _

theorem getElem?_enter (s : LoadState) {i : Nat} {c : Call} (hget : s.calls[i]? = some c)
    (phase : Phase) :
    (s.enter i c.path phase).calls[i]? = some ⟨c.path, phase⟩ := by
  rcases List.getElem?_eq_some_iff.mp hget with ⟨hi, -⟩
  rw [LoadState.enter, List.getElem?_set_self hi]

/-- A step of a call takes it on, unless it is finished. -/
theorem stepsLeft_advanceCall (rt : Runtime) {i : Nat} {c : Call} (hget : s.calls[i]? = some c)
    (fault : Option Str) :
    ∃ phase, (advanceCall rt s i c fault).calls[i]? = some ⟨c.path, phase⟩ ∧
      phase.stepsLeft ≤ c.phase.stepsLeft - 1 := by
  unfold advanceCall
  cases hphase : c.phase with
  | started => exact ⟨_, getElem?_enter s hget _, stepsLeft_afterStat _⟩
  | statted stamp => exact ⟨_, getElem?_enter s hget _, stepsLeft_afterLookup _ _⟩
  | missed stamp => exact ⟨_, getElem?_enter s hget _, stepsLeft_afterRead _ _⟩
  | parsed stamp registry =>
      exact ⟨_, getElem?_enter (s.store c.path stamp registry) hget _, le_rfl⟩
  | returned registry => exact ⟨.returned registry, by rw [hget, ← hphase], le_rfl⟩
  | raised e => exact ⟨.raised e, by rw [hget, ← hphase], le_rfl⟩

theorem stepsLeft_loadStep (rt : Runtime) {i : Nat} {c : Call} (hget : s.calls[i]? = some c)
    (action : LoadAction) :
    ∃ phase, (loadStep rt s action).calls[i]? = some ⟨c.path, phase⟩ ∧
      phase.stepsLeft ≤ c.phase.stepsLeft - if action.advances i then 1 else 0 := by
  cases action with
  | call p =>
      rcases List.getElem?_eq_some_iff.mp hget with ⟨hi, -⟩
      exact ⟨c.phase, (List.getElem?_append_left hi).trans hget, le_rfl⟩
  | advance j fault =>
      rw [loadStep]
      by_cases hj : j = i
      · subst hj
        rw [hget]
        simpa [LoadAction.advances] using stepsLeft_advanceCall rt hget fault
      · refine ⟨c.phase, ?_, Nat.le_of_eq (by simp [LoadAction.advances, hj])⟩
        cases hother : s.calls[j]? with
        | none => exact hget
        | some d => exact (getElem?_advanceCall_of_ne hj).trans hget
  | replace p v => exact ⟨c.phase, hget, le_rfl⟩
  | clearCache => exact ⟨c.phase, hget, le_rfl⟩

theorem stepsLeft_runLoads (rt : Runtime) {i : Nat} {c : Call} (hget : s.calls[i]? = some c)
    (actions : List LoadAction) :
    ∃ phase, (runLoads rt s actions).calls[i]? = some ⟨c.path, phase⟩ ∧
      phase.stepsLeft ≤ c.phase.stepsLeft - actions.countP (LoadAction.advances i) := by
  induction actions generalizing s c with
  | nil => exact ⟨c.phase, hget, le_rfl⟩
  | cons action actions ih =>
      rcases stepsLeft_loadStep rt hget action with ⟨phase, hphase, hle⟩
      rcases ih hphase with ⟨final, hfinal, hrest⟩
      refine ⟨final, hfinal, ?_⟩
      rw [List.countP_cons]
      dsimp only at hrest
      omega

/-- A call that has taken four steps of its own has returned or raised, whatever the other calls
and the replacements of the file do. -/
theorem loadRegistry_finishes (rt : Runtime) {i : Nat} {c : Call} (hget : s.calls[i]? = some c)
    {actions : List LoadAction} (hsteps : 4 ≤ actions.countP (LoadAction.advances i)) :
    (∃ registry, (runLoads rt s actions).calls[i]? = some ⟨c.path, .returned registry⟩) ∨
      ∃ e, (runLoads rt s actions).calls[i]? = some ⟨c.path, .raised e⟩ := by
  rcases stepsLeft_runLoads rt hget actions with ⟨phase, hphase, hle⟩
  have hbound := stepsLeft_le c.phase
  have hnone : phase.stepsLeft = 0 := by omega
  rcases finished_of_stepsLeft_eq_zero hnone with ⟨registry, rfl⟩ | ⟨e, rfl⟩
  · exact .inl ⟨registry, hphase⟩
  · exact .inr ⟨e, hphase⟩

/-! ## Runs of the threads -/

theorem files_runLoads (rt : Runtime) (s : LoadState) (actions : List LoadAction) (path : Str) :
    ∃ later, (runLoads rt s actions).files path = s.files path ++ later := by
  induction actions generalizing s with
  | nil => exact ⟨[], (List.append_nil _).symm⟩
  | cons action actions ih =>
      rcases files_loadStep rt s action path with ⟨first, hfirst⟩
      rcases ih (loadStep rt s action) with ⟨later, hlater⟩
      refine ⟨first ++ later, ?_⟩
      rw [runLoads, List.foldl_cons, ← runLoads, hlater, hfirst, List.append_assoc]

/-- Stamps that do not recur in a run did not recur before it. -/
theorem nodup_before (rt : Runtime) (actions : List LoadAction)
    (hnodup : (((runLoads rt s actions).files path).map FileVersion.stamp).Nodup) :
    ((s.files path).map FileVersion.stamp).Nodup := by
  rcases files_runLoads rt s actions path with ⟨later, hlater⟩
  rw [hlater, List.map_append] at hnodup
  exact hnodup.of_append_left

theorem fresh_runLoads {actions : List LoadAction} (h : Fresh rt path n b s)
    (hnodup : (((runLoads rt s actions).files path).map FileVersion.stamp).Nodup) :
    Fresh rt path n b (runLoads rt s actions) := by
  induction actions generalizing s with
  | nil => exact h
  | cons action actions ih =>
      have hbefore : ((s.files path).map FileVersion.stamp).Nodup :=
        nodup_before rt (action :: actions) hnodup
      exact ih (fresh_loadStep h hbefore) hnodup

theorem fresh_idle (files : Str → List FileVersion) : Fresh rt path 0 0 (idle files) where
  present := Nat.zero_le _
  cached := fun _ _ hget => absurd hget (by simp [idle])
  calls := fun _ _ hget => absurd hget (by simp [idle])
  ahead := fun _ _ _ hget => absurd hget (by simp [idle])

/-- The calls that start from here on are ahead of the versions before the present one. -/
theorem Fresh.restart (h : Fresh rt path 0 0 s) :
    Fresh rt path s.calls.length ((s.files path).length - 1) s where
  present := le_rfl
  cached := h.cached
  calls := h.calls
  ahead := by
    intro i c hi hget
    rw [List.getElem?_eq_none hi] at hget
    cases hget

/-- A call that starts once a version is in place returns what that version or a later one
holds, and a token it accepts is accepted by that version or a later one. -/
theorem loadRegistry_current (rt : Runtime) (files : Str → List FileVersion)
    (past later : List LoadAction) (path : Str) (i : Nat) (registry : ReviewerRegistry)
    (hstamps : (((runLoads rt (idle files) (past ++ later)).files path).map
      FileVersion.stamp).Nodup)
    (hstarts : (runLoads rt (idle files) past).calls.length ≤ i)
    (hreturned : (runLoads rt (idle files) (past ++ later)).calls[i]? =
      some ⟨path, .returned registry⟩) :
    (∃ v ∈ ((runLoads rt (idle files) (past ++ later)).files path).drop
        (((runLoads rt (idle files) past).files path).length - 1),
      readVersion rt v = .ok registry) ∧
    ∀ token name, authenticate rt registry token = .ok (some name) →
      ∃ v ∈ ((runLoads rt (idle files) (past ++ later)).files path).drop
          (((runLoads rt (idle files) past).files path).length - 1),
        ∃ current, readVersion rt v = .ok current ∧
          authenticate rt current token = .ok (some name) := by
  have happend : runLoads rt (idle files) (past ++ later) =
      runLoads rt (runLoads rt (idle files) past) later := List.foldl_append
  rw [happend] at hstamps hreturned ⊢
  have hpast : Fresh rt path 0 0 (runLoads rt (idle files) past) :=
    fresh_runLoads (fresh_idle files) (nodup_before rt later hstamps)
  have hfresh := fresh_runLoads hpast.restart hstamps
  have hvalue := hfresh.ahead i _ hstarts hreturned rfl
  rcases valueFrom_iff_mem_drop.mp hvalue with ⟨v, hv, hparses⟩
  refine ⟨⟨v, hv, hparses⟩, ?_⟩
  intro token name hname
  exact ⟨v, hv, registry, hparses, hname⟩

namespace LoadSample

def tokensPath : Str := lit "tokens.json"

/-- A file with one token, and the file after the token is revoked. -/
def issuedVersion : FileVersion :=
  ⟨(1, 212), .json (fileOf [⟨lit "Alice",
    lit "sha256:" ++ List.replicate 64 (ofChar 'a'), lit "2026-01-01"⟩])⟩

def revokedVersion : FileVersion := ⟨(2, 39), .json (fileOf [])⟩

def tokensFiles (path : Str) : List FileVersion :=
  if path = tokensPath then [issuedVersion] else []

/-- One thread reads the first version, and stores it only after it is replaced. -/
def slowThread : List LoadAction :=
  [.call tokensPath, .advance 0 none, .advance 0 none, .advance 0 none,
    .replace tokensPath revokedVersion, .advance 0 none]

/-- The next call does not use what the slow thread stored. -/
def nextCall : List LoadAction :=
  [.call tokensPath, .advance 1 none, .advance 1 none, .advance 1 none, .advance 1 none]

end LoadSample

theorem loadRegistry_current_slowThread :
    (∃ v ∈ ((runLoads (Runtime.ascii Runtime.transparentDigest) (idle LoadSample.tokensFiles)
        (LoadSample.slowThread ++ LoadSample.nextCall)).files LoadSample.tokensPath).drop
        (((runLoads (Runtime.ascii Runtime.transparentDigest) (idle LoadSample.tokensFiles)
          LoadSample.slowThread).files LoadSample.tokensPath).length - 1),
      readVersion (Runtime.ascii Runtime.transparentDigest) v = .ok ⟨[]⟩) ∧
    ∀ token name,
      authenticate (Runtime.ascii Runtime.transparentDigest) ⟨[]⟩ token = .ok (some name) →
      ∃ v ∈ ((runLoads (Runtime.ascii Runtime.transparentDigest) (idle LoadSample.tokensFiles)
          (LoadSample.slowThread ++ LoadSample.nextCall)).files LoadSample.tokensPath).drop
          (((runLoads (Runtime.ascii Runtime.transparentDigest) (idle LoadSample.tokensFiles)
            LoadSample.slowThread).files LoadSample.tokensPath).length - 1),
        ∃ current, readVersion (Runtime.ascii Runtime.transparentDigest) v = .ok current ∧
          authenticate (Runtime.ascii Runtime.transparentDigest) current token =
            .ok (some name) :=
  loadRegistry_current (Runtime.ascii Runtime.transparentDigest) LoadSample.tokensFiles
    LoadSample.slowThread LoadSample.nextCall LoadSample.tokensPath 1 ⟨[]⟩
    (by decide +kernel) (by decide +kernel) (by rfl)

end ReviewerTokens

end AuditSwarm
