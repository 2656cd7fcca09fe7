import AuditSwarm.Run.ServiceState

/-!
# A step on a session

A step of a thread is on one session.  The others are as they were, and the other threads of the
session keep what they rely on because of the locks that the thread of the step holds.
-/

namespace AuditSwarm

open Python

namespace SessionService

variable {rt : Runtime} {co : Coercions} {s s' : SessionService} {id i : Str} {t : ThreadId}
  {env : Env}

/-! ## A step on a session -/

/-- Whether a session is there does not change. -/
structure KeptSession (s s' : SessionService) (id : Str) : Prop where
  issued : id ∈ s'.issued ↔ id ∈ s.issued
  shown : id ∈ s'.shown ↔ id ∈ s.shown
  named : id ∈ s.named → id ∈ s'.named
  store : s'.store.contains id = s.store.contains id

theorem KeptSession.alive (hk : KeptSession s s' id) : s'.Alive id ↔ s.Alive id := by
  unfold Alive
  rw [hk.issued, hk.shown, hk.store]

/-- A session after a step of one of its threads, or of a thread that begins to be one. -/
theorem SessionInv.own (h : SessionInv co s id) (hs : Locally s s' id t)
    (hk : KeptSession s s' id)
    (hbusy : (s.pc t).session = some id ∨ id ∈ s.shown ∨ id ∉ s.issued)
    (hentry : ∀ entry, s'.store.get? id = some entry →
      entry ≠ [] ∧ ∃ trail, StoredTrail co entry trail)
    (hflow : ∀ ref, s'.flows.get? id = some ref → id ∈ s'.named ∧ s'.Owned id ref)
    (hdiscards : s'.discards id ≠ 0 → id ∈ s'.named)
    (hjobs : ∀ j ∈ s'.jobs, j.1 = id → id ∈ s'.named ∧ (id ∈ s'.issued → id ∈ s'.shown))
    (hthread : (s'.pc t).session = some id → s'.ThreadInv id t (s'.pc t))
    (hsafe : s.Alive id → s.SessionSafe id → s'.SessionSafe id)
    (hgone : ¬ s.Alive id → s.SessionGone id → s'.SessionGone id) : SessionInv co s' id := by
  constructor
  case shown_issued =>
    rw [hk.shown, hk.issued]
    exact h.shown_issued
  case issued_named =>
    rw [hk.issued]
    exact fun hissued => hk.named (h.issued_named hissued)
  case stored_shown =>
    rw [hk.store, hk.shown]
    exact h.stored_shown
  case entry => exact hentry
  case flow => exact hflow
  case discards => exact hdiscards
  case jobs => exact hjobs
  case thread =>
    intro u hu
    by_cases hut : u = t
    · subst hut
      exact hthread hu
    · rw [hs.pc u hut] at hu ⊢
      have huinv := h.thread u hu
      constructor
      case named => exact hk.named huinv.named
      case shown =>
        rw [hk.issued, hk.shown]
        exact huinv.shown
      case creates =>
        rw [hk.issued, hk.shown]
        intro hcreates
        rcases huinv.creates hcreates with ⟨hissued, hshown, honly⟩
        refine ⟨hissued, hshown, fun w hw => ?_⟩
        by_cases hwt : w = t
        · subst hwt
          rcases hbusy with hbusy | hbusy | hbusy
          · exact honly w hbusy
          · exact absurd hbusy hshown
          · exact absurd hissued hbusy
        · rw [hs.pc w hwt] at hw
          exact honly w hw
      case owned => exact fun ref href => hs.owned id ref (huinv.owned ref href)
      case locks => exact huinv.locks
      case holds => exact fun lock hlock => hs.actionLocks u hut lock (huinv.holds lock hlock)
      case saves => exact fun hsaves => hs.saveLock u hut (huinv.saves hsaves)
  case safe =>
    rw [hk.alive]
    exact fun halive => hsafe halive (h.safe halive)
  case gone =>
    rw [hk.alive]
    exact fun halive => hgone halive (h.gone halive)

/-- A session that is there, after a step of one of its threads. -/
theorem SessionSafe.own (h : s.SessionSafe id) (hs : Locally s s' id t)
    (hdiscards : s'.discards id = s.discards id)
    (hcontinues : ∀ ref live trail, (s'.view id).flow = some (ref, live) →
      (s'.view id).stored = some trail → trail <+: live)
    (hjobs : ∀ j ∈ s'.jobs, j.1 = id → (s'.view id).flow ≠ none)
    (hothers : ∀ u, u ≠ t → (s.pc u).session = some id →
      (s.pc u).Safe (s.view id) → (s.pc u).Safe (s'.view id))
    (hlocks : ∀ lock, (s'.pc t).locks = some lock → lock.discards = 0)
    (hpc : (s'.pc t).session = some id → (s'.pc t).Safe (s'.view id)) :
    s'.SessionSafe id := by
  constructor
  case discards =>
    rw [hdiscards]
    exact h.discards
  case continues => exact hcontinues
  case jobs => exact hjobs
  case locks =>
    intro u hu
    by_cases hut : u = t
    · subst hut
      exact hlocks
    · rw [hs.pc u hut] at hu ⊢
      exact h.locks u hu
  case pc =>
    intro u hu
    by_cases hut : u = t
    · subst hut
      exact hpc hu
    · rw [hs.pc u hut] at hu ⊢
      exact hothers u hut hu (h.pc u hu)

/-- A session that is gone, after a step of one of its threads. -/
theorem SessionGone.own (h : s.SessionGone id) (hs : Locally s s' id t)
    (hdiscards : (s'.view id).flow ≠ none → s'.discards id = s.discards id)
    (hflow : (s.view id).flow = none → (s'.view id).flow = none)
    (hremove : (s'.view id).flow ≠ none → s.pc t ≠ .remove id ⟨id, 0⟩)
    (hlocks : (s.view id).flow ≠ none → ∀ lock, (s'.pc t).locks = some lock → lock.discards = 0)
    (hpc : (s'.pc t).session = some id → (s'.pc t).Harmless (s'.view id)) :
    s'.SessionGone id := by
  have hback : (s'.view id).flow ≠ none → (s.view id).flow ≠ none := fun hne hnone =>
    hne (hflow hnone)
  constructor
  case dropping =>
    intro hne
    rcases h.dropping (hback hne) with ⟨u, hu⟩
    refine ⟨u, ?_⟩
    have hut : u ≠ t := by
      rintro rfl
      exact hremove hne hu
    rw [hs.pc u hut, hu]
  case discards =>
    intro hne
    rw [hdiscards hne]
    exact h.discards (hback hne)
  case locks =>
    intro hne u hu
    by_cases hut : u = t
    · subst hut
      exact hlocks (hback hne)
    · rw [hs.pc u hut] at hu ⊢
      exact h.locks (hback hne) u hu
  case pc =>
    intro u hu
    by_cases hut : u = t
    · subst hut
      exact hpc hu
    · rw [hs.pc u hut] at hu ⊢
      exact (h.pc u hu).flow hflow

/-! ## Going on -/

/-- A step that changes nothing but locks, jobs and where its thread is. -/
structure SameData (s s' : SessionService) (id : Str) (t : ThreadId) : Prop where
  store : s'.store = s.store
  flows : s'.flows = s.flows
  heap : s'.heap = s.heap
  allocated : s'.allocated = s.allocated
  discards : s'.discards = s.discards
  issued : s'.issued = s.issued
  shown : s'.shown = s.shown
  named : ∀ i, i ∈ s'.named ↔ i ∈ s.named ∨ i = id ∧ id ∈ s'.named
  pc : ∀ u, u ≠ t → s'.pc u = s.pc u
  saveLock : ∀ u, u ≠ t → s.saveLock = some u → s'.saveLock = some u
  actionLocks : ∀ u, u ≠ t → ∀ lock, s.actionLocks lock = some u → s'.actionLocks lock = some u
  jobs : ∀ j ∈ s'.jobs, j.1 ≠ id → j ∈ s.jobs

theorem SameData.view (hs : SameData s s' id t) (i : Str) : s'.view i = s.view i := by
  unfold SessionService.view
  rw [hs.store, hs.flows, hs.heap]

theorem SameData.owned (hs : SameData s s' id t) {i : Str} {ref : FlowRef} (h : s.Owned i ref) :
    s'.Owned i ref := by
  constructor
  · rw [hs.allocated]
    exact h.allocated
  · rw [hs.heap]
    exact h.session

theorem SameData.locally (hs : SameData s s' id t) : Locally s s' id t where
  pc := hs.pc
  saveLock := hs.saveLock
  actionLocks := hs.actionLocks
  owned _ _ h := hs.owned h
  heap _ _ _ _ := by rw [hs.heap]
  store _ _ := by rw [hs.store]
  flows _ _ := by rw [hs.flows]
  discards _ _ := by rw [hs.discards]
  jobs := hs.jobs
  issued _ _ := by rw [hs.issued]
  shown _ _ := by rw [hs.shown]
  named i hi := by
    rw [hs.named i]
    exact ⟨fun h => h.resolve_right fun hand => hi hand.1, Or.inl⟩

theorem SameData.kept (hs : SameData s s' id t) : KeptSession s s' id where
  issued := by rw [hs.issued]
  shown := by rw [hs.shown]
  named h := (hs.named id).mpr (.inl h)
  store := by rw [hs.store]

/-- Where a thread goes on to, when it leaves the data as they are. -/
structure Next (s s' : SessionService) (id : Str) (t : ThreadId) : Prop where
  named : id ∈ s'.named
  shown : id ∈ s.issued → id ∈ s.shown
  creates : (s'.pc t).creates = false
  owned : ∀ ref, (s'.pc t).flowRef = some ref → s.Owned id ref
  locks : ∀ lock, (s'.pc t).locks = some lock →
    (s.pc t).session = some id ∧ (s.pc t).locks = some lock ∨ lock = ⟨id, s.discards id⟩
  holds : ∀ lock, (s'.pc t).holds = some lock → s'.actionLocks lock = some t
  saves : (s'.pc t).saves = true → s'.saveLock = some t
  safe : s.Alive id → s.SessionSafe id → (s'.pc t).Safe (s.view id)
  harmless : ¬ s.Alive id → s.SessionGone id → (s'.pc t).Harmless (s.view id)

theorem SessionInv.goes (h : ∀ i, SessionInv co s i) (hs : SameData s s' id t)
    (hbefore : ∀ i, (s.pc t).session = some i → i = id)
    (hafter : ∀ i, (s'.pc t).session = some i → i = id)
    (hbusy : (s.pc t).session = some id ∨ id ∈ s.shown ∨ id ∉ s.issued)
    (hremove : s.pc t ≠ .remove id ⟨id, 0⟩)
    (hjobs : ∀ j ∈ s'.jobs, j.1 = id → j ∈ s.jobs ∨ id ∈ s.named ∧
      (id ∈ s.issued → id ∈ s.shown) ∧ (s.Alive id → (s.view id).flow ≠ none))
    (hnext : (s'.pc t).session = some id → Next s s' id t) (i : Str) : SessionInv co s' i := by
  refine inv_of_own h hs.locally hbefore hafter ?_ i
  have hinv := h id
  have hnext' : ∀ lock, (s'.pc t).locks = some lock → (s'.pc t).session = some id := by
    intro lock hlock
    rcases ServicePc.session_of_locks hlock with ⟨j, hj⟩
    rw [hj, hafter j hj]
  refine hinv.own hs.locally hs.kept hbusy ?_ ?_ ?_ ?_ ?_ ?_ ?_
  · rw [hs.store]
    exact hinv.entry
  · intro ref href
    rw [hs.flows] at href
    have hflow := hinv.flow ref href
    exact ⟨hs.kept.named hflow.1, hs.owned hflow.2⟩
  · rw [hs.discards]
    exact fun hne => hs.kept.named (hinv.discards hne)
  · intro j hj hji
    rw [hs.issued, hs.shown]
    rcases hjobs j hj hji with hold | hnew
    · have hjob := hinv.jobs j hold hji
      exact ⟨hs.kept.named hjob.1, hjob.2⟩
    · exact ⟨hs.kept.named hnew.1, hnew.2.1⟩
  · intro hsession
    have hn := hnext hsession
    constructor
    case named => exact hn.named
    case shown =>
      rw [hs.issued, hs.shown]
      exact fun _ => hn.shown
    case creates =>
      rw [hn.creates]
      exact fun hfalse => by cases hfalse
    case owned => exact fun ref href => hs.owned (hn.owned ref href)
    case locks =>
      intro lock hlock
      rcases hn.locks lock hlock with ⟨hsession', hlock'⟩ | rfl
      · exact (hinv.thread t hsession').locks lock hlock'
      · rfl
    case holds => exact hn.holds
    case saves => exact hn.saves
  · intro halive hsafe
    refine hsafe.own hs.locally (by rw [hs.discards]) ?_ ?_ ?_ ?_ ?_
    · rw [hs.view]
      exact hsafe.continues
    · rw [hs.view]
      intro j hj hji
      rcases hjobs j hj hji with hold | hnew
      · exact hsafe.jobs j hold hji
      · exact hnew.2.2 halive
    · rw [hs.view]
      exact fun _ _ _ h => h
    · intro lock hlock
      rcases (hnext (hnext' lock hlock)).locks lock hlock with ⟨hsession', hlock'⟩ | rfl
      · exact hsafe.locks t hsession' lock hlock'
      · exact hsafe.discards
    · intro hsession
      rw [hs.view]
      exact (hnext hsession).safe halive hsafe
  · intro halive hgone
    refine hgone.own hs.locally (fun _ => by rw [hs.discards]) ?_ ?_ ?_ ?_
    · rw [hs.view]
      exact fun h => h
    · exact fun _ => hremove
    · intro hne lock hlock
      rcases (hnext (hnext' lock hlock)).locks lock hlock with ⟨hsession', hlock'⟩ | rfl
      · exact hgone.locks hne t hsession' lock hlock'
      · exact hgone.discards hne
    · intro hsession
      rw [hs.view]
      exact (hnext hsession).harmless halive hgone

end SessionService

end AuditSwarm
