import AuditSwarm.Persist.StoredTrail
import AuditSwarm.Run.Assignments

/-!
# What holds of every session

A session is looked at on its own: its flow in memory, what is stored of it, and the threads that
are busy with it.  While it exists there is one flow for it, whose trail continues the stored one;
the threads that change the trail hold one and the same lock.  Once it is deleted no thread brings
it back.
-/

namespace AuditSwarm

open Python

def AuditFlow.storedEntries (f : AuditFlow) : List Json := f.state.approvalTrail.map storedEntry

/-! ## Where a thread is -/

namespace ServicePc

def session : ServicePc → Option Str
  | idle => none
  | register id _ _ _ | put id _ _ _ | require id _ | lock id _ | wait id _ _ | get id _
  | load id _ | set id _ _ | act id _ _ _ | phase id _ _ | dump id _ _ | write id _ _ _
  | submit id _ _ | read id _ | check id _ _ | drop id _ | remove id _ | discard id _
  | leave id _ _ => some id

def flowRef : ServicePc → Option FlowRef
  | put _ ref _ _ | act _ _ _ ref | phase _ _ ref | dump _ ref _ | write _ ref _ _ => some ref
  | _ => none

def saves : ServicePc → Bool
  | write _ _ _ _ => true
  | _ => false

def creates : ServicePc → Bool
  | register _ _ _ _ | put _ _ _ _ => true
  | _ => false

end ServicePc

def FlowUser.lock : FlowUser → Option ActionLock
  | action _ lock => some lock
  | phase _ => none

def Saver.lock : Saver → Option ActionLock
  | action _ lock _ => some lock
  | _ => none

def Saver.entries : Saver → List Json
  | action _ _ trail => trail.map storedEntry
  | _ => []

namespace ServicePc

def holds : ServicePc → Option ActionLock
  | get _ u | load _ u | set _ u _ => u.lock
  | act _ _ held _ => some held
  | dump _ _ k | write _ _ _ k | submit _ _ k => k.lock
  | read _ held | check _ held _ | drop _ held | remove _ held | discard _ held
  | leave _ held _ => some held
  | _ => none

def locks : ServicePc → Option ActionLock
  | wait _ _ wanted => some wanted
  | pc => pc.holds

theorem locks_of_holds {pc : ServicePc} {lock : ActionLock} (h : pc.holds = some lock) :
    pc.locks = some lock := by
  cases pc <;> first | exact h | cases h

theorem session_of_locks {pc : ServicePc} {lock : ActionLock} (h : pc.locks = some lock) :
    ∃ id, pc.session = some id := by
  cases pc <;> first | exact ⟨_, rfl⟩ | cases h

end ServicePc

/-! ## A session -/

/-- A session as the threads find it: its flow in memory with the trail of that, and the trail that
is stored. -/
structure SessionView where
  flow : Option (FlowRef × List Json)
  stored : Option (List Json)

namespace SessionService

variable (s : SessionService) (id : Str)

def view : SessionView where
  flow := (s.flows.get? id).map fun ref => (ref, (s.heap ref).storedEntries)
  stored := (s.store.get? id).map fun entry => storedTrail (storedSnapshot entry)

/-- A session is there: it was created and is not stored yet, or it is stored. -/
def Alive : Prop := id ∈ s.issued ∧ (id ∈ s.shown → s.store.contains id = true)

/-- A flow object of a session. -/
structure Owned (ref : FlowRef) : Prop where
  allocated : ref < s.allocated
  session : (s.heap ref).sessionId = some id

end SessionService

/-- What a thread relies on while its session is there. -/
def ServicePc.Safe (v : SessionView) : ServicePc → Prop
  | register _ _ _ _ => v.flow = none
  | put _ ref _ _ => ∃ live, v.flow = some (ref, live)
  | get _ (.phase _) => v.flow ≠ none
  | load _ (.action _ _) => v.flow = none
  | load _ (.phase _) => False
  | set _ (.action _ _) flow => v.flow = none ∧ v.stored = some flow.storedEntries
  | set _ (.phase _) _ => False
  | act _ _ _ ref => ∃ live, v.flow = some (ref, live)
  | phase _ _ ref => ∃ live, v.flow = some (ref, live)
  | dump _ ref k => ∃ live, v.flow = some (ref, live) ∧ k.entries <+: live
  | write _ ref snapshot k =>
      ∃ live, v.flow = some (ref, live) ∧
        snapshot.approvalTrail.map storedEntry <+: live ∧
        k.entries <+: snapshot.approvalTrail.map storedEntry ∧
        ∀ trail, v.stored = some trail → trail <+: snapshot.approvalTrail.map storedEntry
  | submit _ _ k => v.flow ≠ none ∧ ∃ trail, v.stored = some trail ∧ k.entries <+: trail
  | check _ _ data => ∃ entry, data = some entry ∧ entry ≠ [] ∧ (v.flow = none →
      v.stored = some (SessionService.storedTrail (SessionService.storedSnapshot entry)))
  | drop _ _ => (∀ trail, v.stored = some trail → trail.any SessionService.isGateApproval = false) ∧
      ∀ ref live, v.flow = some (ref, live) → live.any SessionService.isGateApproval = false
  | remove _ _ => False
  | discard _ _ => False
  | leave _ _ (some entries) =>
      ∃ trail, v.stored = some trail ∧ entries.map storedEntry <+: trail
  | _ => True

namespace ServicePc.Safe

variable {v v' : SessionView} {pc : ServicePc} {ref : FlowRef}
  {live live' trail trail' : List Json}

/-- A thread without the action lock does not mind another that extends the trail. -/
theorem extended (h : pc.Safe v) (hflow : v.flow = some (ref, live)) (hlive : live <+: live')
    (hflow' : v'.flow = some (ref, live')) (hstored : v'.stored = v.stored)
    (hholds : pc.holds = none) : pc.Safe v' := by
  cases pc with
  | register id flow name createdAt => exact absurd (hflow.symm.trans h) (by simp)
  | put id r name createdAt =>
      rcases h with ⟨l, hl⟩
      rw [hflow] at hl
      cases hl
      exact ⟨live', hflow'⟩
  | get id u =>
      cases u with
      | action a lock => trivial
      | phase q => exact fun hnone => by rw [hflow'] at hnone; cases hnone
  | load id u =>
      cases u with
      | action a lock => cases hholds
      | phase q => exact h
  | set id u flow =>
      cases u with
      | action a lock => cases hholds
      | phase q => exact h
  | act id a lock r => cases hholds
  | phase id q r =>
      rcases h with ⟨l, hl⟩
      rw [hflow] at hl
      cases hl
      exact ⟨live', hflow'⟩
  | dump id r k =>
      rcases h with ⟨l, hl, hk⟩
      rw [hflow] at hl
      cases hl
      exact ⟨live', hflow', hk.trans hlive⟩
  | write id r snapshot k =>
      rcases h with ⟨l, hl, hsnap, hk, hold⟩
      rw [hflow] at hl
      cases hl
      refine ⟨live', hflow', hsnap.trans hlive, hk, ?_⟩
      rw [hstored]
      exact hold
  | submit id q k =>
      refine ⟨fun hnone => ?_, ?_⟩
      · rw [hflow'] at hnone
        cases hnone
      · rw [hstored]
        exact h.2
  | check id lock data => cases hholds
  | drop id lock => cases hholds
  | remove id lock => exact h
  | discard id lock => exact h
  | leave id lock answer => cases hholds
  | _ => trivial

/-- A thread that is not saving does not mind another that saves the flow. -/
theorem stored (h : pc.Safe v) (hflow : v.flow = some (ref, live)) (hold : v.stored = some trail)
    (htrail : trail <+: trail') (hlive : trail' <+: live) (hflow' : v'.flow = v.flow)
    (hstored : v'.stored = some trail') (hsaves : pc.saves = false) : pc.Safe v' := by
  cases pc with
  | register id flow name createdAt => exact absurd (hflow.symm.trans h) (by simp)
  | put id r name createdAt =>
      show ∃ live, v'.flow = some (r, live)
      rw [hflow']
      exact h
  | get id u =>
      cases u with
      | action a lock => trivial
      | phase q =>
          show v'.flow ≠ none
          rw [hflow']
          exact h
  | load id u =>
      cases u with
      | action a lock => exact absurd (hflow.symm.trans h) (by simp)
      | phase q => exact h
  | set id u flow =>
      cases u with
      | action a lock => exact absurd (hflow.symm.trans h.1) (by simp)
      | phase q => exact h
  | act id a lock r =>
      show ∃ live, v'.flow = some (r, live)
      rw [hflow']
      exact h
  | phase id q r =>
      show ∃ live, v'.flow = some (r, live)
      rw [hflow']
      exact h
  | dump id r k =>
      rcases h with ⟨l, hl, hk⟩
      exact ⟨l, hflow'.trans hl, hk⟩
  | write id r snapshot k => cases hsaves
  | submit id q k =>
      rcases h with ⟨hne, trail₀, htrail₀, hk⟩
      rw [hold] at htrail₀
      cases htrail₀
      refine ⟨?_, trail', hstored, hk.trans htrail⟩
      rw [hflow']
      exact hne
  | check id lock data =>
      rcases h with ⟨entry, hdata, hne, -⟩
      refine ⟨entry, hdata, hne, fun hnone => ?_⟩
      rw [hflow', hflow] at hnone
      cases hnone
  | drop id lock =>
      refine ⟨fun trail₁ htrail₁ => ?_, ?_⟩
      · rw [hstored] at htrail₁
        cases htrail₁
        have hno := h.2 ref live hflow
        rw [List.any_eq_false] at hno ⊢
        exact fun e he => hno e (hlive.subset he)
      · rw [hflow']
        exact h.2
  | remove id lock => exact h
  | discard id lock => exact h
  | leave id lock answer =>
      cases answer with
      | none => trivial
      | some entries =>
          rcases h with ⟨trail₀, htrail₀, hk⟩
          rw [hold] at htrail₀
          cases htrail₀
          exact ⟨trail', hstored, hk.trans htrail⟩
  | _ => trivial

/-- A thread without the action lock does not mind another that loads the flow. -/
theorem loaded (h : pc.Safe v) (hflow : v.flow = none) (hflow' : v'.flow ≠ none)
    (hholds : pc.holds = none) (hcreates : pc.creates = false) : pc.Safe v' := by
  cases pc with
  | register id flow name createdAt => cases hcreates
  | put id r name createdAt => cases hcreates
  | get id u =>
      cases u with
      | action a lock => trivial
      | phase q => exact hflow'
  | load id u =>
      cases u with
      | action a lock => cases hholds
      | phase q => exact h
  | set id u flow =>
      cases u with
      | action a lock => cases hholds
      | phase q => exact h
  | act id a lock r => cases hholds
  | phase id q r =>
      rcases h with ⟨l, hl⟩
      rw [hflow] at hl
      cases hl
  | dump id r k =>
      rcases h with ⟨l, hl, -⟩
      rw [hflow] at hl
      cases hl
  | write id r snapshot k =>
      rcases h with ⟨l, hl, -⟩
      rw [hflow] at hl
      cases hl
  | submit id q k => exact absurd hflow h.1
  | check id lock data => cases hholds
  | drop id lock => cases hholds
  | remove id lock => exact h
  | discard id lock => exact h
  | leave id lock answer => cases hholds
  | _ => trivial

end ServicePc.Safe

/-- What a thread may do once its session is gone. -/
def ServicePc.Harmless (v : SessionView) : ServicePc → Prop
  | register _ _ _ _ => False
  | put _ _ _ _ => False
  | get _ (.action _ _) => v.flow = none
  | set _ _ _ => False
  | act _ _ _ _ => False
  | dump _ _ k => k.lock = none
  | write _ _ _ k => k.lock = none
  | submit _ _ k => k.lock = none
  | leave _ _ answer => answer = none
  | _ => True

theorem ServicePc.Harmless.flow {v v' : SessionView} {pc : ServicePc} (h : pc.Harmless v)
    (hflow : v.flow = none → v'.flow = none) : pc.Harmless v' := by
  cases pc with
  | get id u =>
      cases u with
      | action a lock => exact hflow h
      | phase p => trivial
  | _ => exact h

/-- A thread without the action lock does no harm when its session is deleted. -/
theorem ServicePc.Safe.harmless {v v' : SessionView} {pc : ServicePc} (h : pc.Safe v)
    (hholds : pc.holds = none) (hcreates : pc.creates = false) : pc.Harmless v' := by
  cases pc with
  | register id flow name createdAt => cases hcreates
  | put id r name createdAt => cases hcreates
  | get id u =>
      cases u with
      | action a lock => cases hholds
      | phase p => trivial
  | set id u flow =>
      cases u with
      | action a lock => cases hholds
      | phase p => exact h
  | act id a lock r => cases hholds
  | dump id r k => exact hholds
  | write id r snapshot k => exact hholds
  | submit id p k => exact hholds
  | leave id lock answer => cases hholds
  | _ => trivial

namespace SessionService

variable (co : Coercions) (s : SessionService) (id : Str)

structure SessionSafe : Prop where
  discards : s.discards id = 0
  continues : ∀ ref live trail, (s.view id).flow = some (ref, live) →
    (s.view id).stored = some trail → trail <+: live
  jobs : ∀ j ∈ s.jobs, j.1 = id → (s.view id).flow ≠ none
  locks : ∀ t, (s.pc t).session = some id → ∀ lock, (s.pc t).locks = some lock → lock.discards = 0
  pc : ∀ t, (s.pc t).session = some id → (s.pc t).Safe (s.view id)

/-- A session that was never created, or that was deleted.  It has a flow as long as the thread
that deleted it has not removed that. -/
structure SessionGone : Prop where
  dropping : (s.view id).flow ≠ none → ∃ t, s.pc t = .remove id ⟨id, 0⟩
  discards : (s.view id).flow ≠ none → s.discards id = 0
  locks : (s.view id).flow ≠ none → ∀ t, (s.pc t).session = some id →
    ∀ lock, (s.pc t).locks = some lock → lock.discards = 0
  pc : ∀ t, (s.pc t).session = some id → (s.pc t).Harmless (s.view id)

/-- What holds of a thread busy with a session. -/
structure ThreadInv (t : ThreadId) (pc : ServicePc) : Prop where
  named : id ∈ s.named
  shown : pc.creates = false → id ∈ s.issued → id ∈ s.shown
  creates : pc.creates = true →
    id ∈ s.issued ∧ id ∉ s.shown ∧ ∀ u, (s.pc u).session = some id → u = t
  owned : ∀ ref, pc.flowRef = some ref → s.Owned id ref
  locks : ∀ lock, pc.locks = some lock → lock.id = id
  holds : ∀ lock, pc.holds = some lock → s.actionLocks lock = some t
  saves : pc.saves = true → s.saveLock = some t

/-- What holds of a session, whether it is there or not. -/
structure SessionInv : Prop where
  shown_issued : id ∈ s.shown → id ∈ s.issued
  issued_named : id ∈ s.issued → id ∈ s.named
  stored_shown : s.store.contains id = true → id ∈ s.shown
  entry : ∀ entry, s.store.get? id = some entry →
    entry ≠ [] ∧ ∃ trail, StoredTrail co entry trail
  flow : ∀ ref, s.flows.get? id = some ref → id ∈ s.named ∧ s.Owned id ref
  discards : s.discards id ≠ 0 → id ∈ s.named
  jobs : ∀ j ∈ s.jobs, j.1 = id → id ∈ s.named ∧ (id ∈ s.issued → id ∈ s.shown)
  thread : ∀ t, (s.pc t).session = some id → s.ThreadInv id t (s.pc t)
  safe : s.Alive id → s.SessionSafe id
  gone : ¬ s.Alive id → s.SessionGone id

end SessionService

/-! ## Steps on another session -/

namespace SessionService

variable {co : Coercions} {s s' : SessionService} {id i : Str} {t : ThreadId}

/-- A step of a thread on one session leaves the others alone. -/
structure Locally (s s' : SessionService) (id : Str) (t : ThreadId) : Prop where
  pc : ∀ u, u ≠ t → s'.pc u = s.pc u
  saveLock : ∀ u, u ≠ t → s.saveLock = some u → s'.saveLock = some u
  actionLocks : ∀ u, u ≠ t → ∀ lock, s.actionLocks lock = some u → s'.actionLocks lock = some u
  owned : ∀ i ref, s.Owned i ref → s'.Owned i ref
  heap : ∀ i, i ≠ id → ∀ ref, s.Owned i ref → s'.heap ref = s.heap ref
  store : ∀ i, i ≠ id → s'.store.get? i = s.store.get? i
  flows : ∀ i, i ≠ id → s'.flows.get? i = s.flows.get? i
  discards : ∀ i, i ≠ id → s'.discards i = s.discards i
  jobs : ∀ j ∈ s'.jobs, j.1 ≠ id → j ∈ s.jobs
  issued : ∀ i, i ≠ id → (i ∈ s'.issued ↔ i ∈ s.issued)
  shown : ∀ i, i ≠ id → (i ∈ s'.shown ↔ i ∈ s.shown)
  named : ∀ i, i ≠ id → (i ∈ s'.named ↔ i ∈ s.named)

theorem contains_iff : s.store.contains id = true ↔ s.store.get? id ≠ none := by
  unfold Dict.contains
  cases s.store.get? id with
  | none => simp
  | some entry => simp

theorem stored_ne_none : (s.view id).stored ≠ none ↔ s.store.contains id = true := by
  rw [contains_iff]
  unfold view
  cases s.store.get? id with
  | none => simp
  | some entry => simp

theorem Locally.view_other (hs : Locally s s' id t) (h : SessionInv co s i) (hi : i ≠ id) :
    s'.view i = s.view i := by
  unfold view
  rw [hs.flows i hi, hs.store i hi]
  cases hflow : s.flows.get? i with
  | none => rfl
  | some ref =>
      rw [Option.map_some, Option.map_some, hs.heap i hi ref (h.flow ref hflow).2]

theorem Locally.alive_other (hs : Locally s s' id t) (hi : i ≠ id) :
    s'.Alive i ↔ s.Alive i := by
  unfold Alive
  rw [hs.issued i hi, hs.shown i hi, contains_iff, contains_iff, hs.store i hi]

theorem Locally.thread_after (hs : Locally s s' id t) (hafter : (s'.pc t).session ≠ some i)
    {u : ThreadId} (hu : (s'.pc u).session = some i) : u ≠ t ∧ s'.pc u = s.pc u := by
  have hne : u ≠ t := by
    rintro rfl
    exact hafter hu
  exact ⟨hne, hs.pc u hne⟩

theorem Locally.thread_before (hs : Locally s s' id t) (hbefore : (s.pc t).session ≠ some i)
    {u : ThreadId} (hu : (s.pc u).session = some i) : s'.pc u = s.pc u := by
  apply hs.pc
  rintro rfl
  exact hbefore hu

theorem ThreadInv.other {u : ThreadId} (h : s.ThreadInv i u (s.pc u)) (hs : Locally s s' id t)
    (hi : i ≠ id) (hafter : (s'.pc t).session ≠ some i) (hu : (s'.pc u).session = some i) :
    s'.ThreadInv i u (s'.pc u) := by
  rcases hs.thread_after hafter hu with ⟨hne, heq⟩
  rw [heq]
  constructor
  case named =>
    rw [hs.named i hi]
    exact h.named
  case shown =>
    rw [hs.issued i hi, hs.shown i hi]
    exact h.shown
  case creates =>
    rw [hs.issued i hi, hs.shown i hi]
    intro hcreates
    rcases h.creates hcreates with ⟨hissued, hshown, honly⟩
    refine ⟨hissued, hshown, fun v hv => honly v ?_⟩
    rw [← (hs.thread_after hafter hv).2]
    exact hv
  case owned => exact fun ref href => hs.owned i ref (h.owned ref href)
  case locks => exact h.locks
  case holds => exact fun lock hlock => hs.actionLocks u hne lock (h.holds lock hlock)
  case saves => exact fun hsaves => hs.saveLock u hne (h.saves hsaves)

theorem SessionSafe.other (h : s.SessionSafe i) (hs : Locally s s' id t) (hi : i ≠ id)
    (hview : s'.view i = s.view i) (hafter : (s'.pc t).session ≠ some i) : s'.SessionSafe i := by
  constructor
  case discards =>
    rw [hs.discards i hi]
    exact h.discards
  case continues =>
    rw [hview]
    exact h.continues
  case jobs =>
    intro j hj hji
    have hne : j.1 ≠ id := by
      rw [hji]
      exact hi
    rw [hview]
    exact h.jobs j (hs.jobs j hj hne) hji
  case locks =>
    intro u hu
    have heq := (hs.thread_after hafter hu).2
    rw [heq] at hu ⊢
    exact h.locks u hu
  case pc =>
    intro u hu
    have heq := (hs.thread_after hafter hu).2
    rw [heq] at hu ⊢
    rw [hview]
    exact h.pc u hu

theorem SessionGone.other (h : s.SessionGone i) (hs : Locally s s' id t) (hi : i ≠ id)
    (hview : s'.view i = s.view i) (hbefore : (s.pc t).session ≠ some i)
    (hafter : (s'.pc t).session ≠ some i) : s'.SessionGone i := by
  constructor
  case dropping =>
    rw [hview]
    intro hflow
    rcases h.dropping hflow with ⟨u, hu⟩
    refine ⟨u, ?_⟩
    rw [hs.thread_before hbefore (by rw [hu]; rfl), hu]
  case discards =>
    rw [hview, hs.discards i hi]
    exact h.discards
  case locks =>
    rw [hview]
    intro hflow u hu
    have heq := (hs.thread_after hafter hu).2
    rw [heq] at hu ⊢
    exact h.locks hflow u hu
  case pc =>
    intro u hu
    have heq := (hs.thread_after hafter hu).2
    rw [heq] at hu ⊢
    rw [hview]
    exact h.pc u hu

theorem SessionInv.other (h : SessionInv co s i) (hs : Locally s s' id t) (hi : i ≠ id)
    (hbefore : (s.pc t).session ≠ some i) (hafter : (s'.pc t).session ≠ some i) :
    SessionInv co s' i := by
  have hview := hs.view_other h hi
  constructor
  case shown_issued =>
    rw [hs.shown i hi, hs.issued i hi]
    exact h.shown_issued
  case issued_named =>
    rw [hs.issued i hi, hs.named i hi]
    exact h.issued_named
  case stored_shown =>
    rw [hs.shown i hi, contains_iff, hs.store i hi, ← contains_iff]
    exact h.stored_shown
  case entry =>
    rw [hs.store i hi]
    exact h.entry
  case flow =>
    intro ref hflow
    rw [hs.flows i hi] at hflow
    rw [hs.named i hi]
    exact ⟨(h.flow ref hflow).1, hs.owned i ref (h.flow ref hflow).2⟩
  case discards =>
    rw [hs.discards i hi, hs.named i hi]
    exact h.discards
  case jobs =>
    intro j hj hji
    have hne : j.1 ≠ id := by
      rw [hji]
      exact hi
    rw [hs.named i hi, hs.issued i hi, hs.shown i hi]
    exact h.jobs j (hs.jobs j hj hne) hji
  case thread =>
    intro u hu
    have hwas := hu
    rw [(hs.thread_after hafter hu).2] at hwas
    exact (h.thread u hwas).other hs hi hafter hu
  case safe =>
    rw [hs.alive_other hi]
    exact fun halive => (h.safe halive).other hs hi hview hafter
  case gone =>
    rw [hs.alive_other hi]
    exact fun hgone => (h.gone hgone).other hs hi hview hbefore hafter

/-- A step of a thread on one session need only be looked at there. -/
theorem inv_of_own (h : ∀ i, SessionInv co s i) (hs : Locally s s' id t)
    (hbefore : ∀ i, (s.pc t).session = some i → i = id)
    (hafter : ∀ i, (s'.pc t).session = some i → i = id) (hown : SessionInv co s' id) (i : Str) :
    SessionInv co s' i := by
  by_cases hi : i = id
  · rw [hi]
    exact hown
  · exact (h i).other hs hi (fun heq => hi (hbefore i heq)) fun heq => hi (hafter i heq)

theorem eq_of_session {p : ServicePc} (h : p.session = some id) :
    ∀ i, p.session = some i → i = id := by
  intro i hi
  rw [h] at hi
  exact (Option.some.inj hi).symm

end SessionService

end AuditSwarm
