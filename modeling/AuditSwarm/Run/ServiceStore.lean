import AuditSwarm.Lib.Records
import AuditSwarm.Run.ServiceFlows

/-!
# Steps on the stored sessions

A flow is saved, and a session is created or deleted.
-/

namespace AuditSwarm

open Python

namespace SessionService

variable {rt : Runtime} {co : Coercions} {s s' : SessionService} {id : Str} {t : ThreadId}
  {env : Env} {p p₀ : ServicePc} {lock : ActionLock}

/-! ## Steps on the stored sessions -/

theorem saved_entry (entry : Dict Str Json) (snapshot : AuditState) :
    StoredTrail co (entry.update (FlowRepository.sessionFields co snapshot))
      snapshot.approvalTrail :=
  .saved snapshot (Dict.get?_set_self _ _ _)

/-- What there is to know of where a thread is once it has saved. -/
structure AfterSave (k : Saver) (p : ServicePc) : Prop where
  creates : p.creates = false
  saves : p.saves = false
  flowRef : p.flowRef = none
  holds : p.holds = k.lock
  locks : p.locks = k.lock
  harmless : k.lock = none → ∀ v, p.Harmless v
  safe : ∀ (v : SessionView) (trail : List Json), v.flow ≠ none → v.stored = some trail →
    k.entries <+: trail → p.Safe v

theorem afterSave_next (id : Str) (k : Saver) : AfterSave k (k.next id) := by
  cases k with
  | create =>
      exact ⟨rfl, rfl, rfl, rfl, rfl, fun _ _ => rfl, fun v trail hv hstored hk =>
        ⟨hv, trail, hstored, hk⟩⟩
  | phase =>
      exact ⟨rfl, rfl, rfl, rfl, rfl, fun _ _ => trivial, fun _ _ _ _ _ => trivial⟩
  | action a lock trail =>
      unfold Saver.next
      dsimp only
      cases a.submits with
      | none =>
          exact ⟨rfl, rfl, rfl, rfl, rfl, fun hnone => (by cases hnone),
            fun v trail' _ hstored hk => ⟨trail', hstored, hk⟩⟩
      | some q =>
          exact ⟨rfl, rfl, rfl, rfl, rfl, fun hnone => (by cases hnone),
            fun v trail' hv hstored hk => ⟨hv, trail', hstored, hk⟩⟩

theorem session_next {k : Saver} {j : Str} (h : (k.next id).session = some j) : j = id := by
  cases k with
  | create => exact (Option.some.inj h).symm
  | phase => cases h
  | action a lock trail =>
      unfold Saver.next at h
      dsimp only at h
      cases hsub : a.submits with
      | none =>
          rw [hsub] at h
          exact (Option.some.inj h).symm
      | some q =>
          rw [hsub] at h
          exact (Option.some.inj h).symm

/-- The process after a thread has saved a flow. -/
def saved (co : Coercions) (s : SessionService) (t : ThreadId) (id : Str) (snapshot : AuditState)
    (k : Saver) : SessionService :=
  ({ s with
    store := (FlowRepository.updateSession s.store id
      (FlowRepository.sessionFields co snapshot)).getD s.store
    saveLock := none } : SessionService).goto t (k.next id)

section

variable {ref : FlowRef} {snapshot : AuditState} {k : Saver}

theorem get?_saved (j : Str) : (s.saved co t id snapshot k).store.get? j =
    if j = id then (s.store.get? id).map fun entry =>
      entry.update (FlowRepository.sessionFields co snapshot) else s.store.get? j := by
  show ((FlowRepository.updateSession s.store id (FlowRepository.sessionFields co snapshot)).getD
    s.store).get? j = _
  unfold FlowRepository.updateSession
  cases hold : s.store.get? id with
  | none =>
      by_cases hj : j = id
      · rw [if_pos hj, hj]
        exact hold
      · rw [if_neg hj]
        rfl
  | some entry =>
      by_cases hj : j = id
      · rw [if_pos hj, hj]
        exact Dict.get?_set_self _ _ _
      · rw [if_neg hj]
        exact Dict.get?_set_of_ne _ _ hj

theorem locally_saved (hsaving : s.saveLock = some t) :
    Locally s (s.saved co t id snapshot k) id t :=
  { @locally_goto s id t (k.next id) with
    owned := fun _ _ h => ⟨h.allocated, h.session⟩
    saveLock := fun _ hu hl => absurd (Option.some.inj (hsaving.symm.trans hl)).symm hu
    store := fun j hj => (get?_saved j).trans (if_neg hj) }

theorem kept_saved : KeptSession s (s.saved co t id snapshot k) id := by
  refine ⟨Iff.rfl, Iff.rfl, fun h => h, ?_⟩
  unfold Dict.contains
  rw [get?_saved, if_pos rfl]
  cases s.store.get? id <;> rfl

theorem ThreadInv.saved (h : s.ThreadInv id t (.write id ref snapshot k)) :
    (s.saved co t id snapshot k).ThreadInv id t (k.next id) := by
  have hnext := afterSave_next id k
  constructor
  case named => exact h.named
  case shown => exact fun _ => h.shown rfl
  case creates =>
    rw [hnext.creates]
    exact fun hfalse => by cases hfalse
  case owned =>
    rw [hnext.flowRef]
    exact fun _ hr => by cases hr
  case locks =>
    rw [hnext.locks]
    exact fun l hl => h.locks l hl
  case holds =>
    rw [hnext.holds]
    exact fun l hl => h.holds l hl
  case saves =>
    rw [hnext.saves]
    exact fun hfalse => by cases hfalse

/-- Only the thread with `_SAVE_LOCK` is saving. -/
theorem saves_of_ne (h : SessionInv co s id) (hsaving : s.saveLock = some t) {u : ThreadId}
    (hut : u ≠ t) (hu : (s.pc u).session = some id) : (s.pc u).saves = false := by
  cases hsaves : (s.pc u).saves with
  | false => rfl
  | true =>
      have hother := (h.thread u hu).saves hsaves
      rw [hsaving] at hother
      exact absurd (Option.some.inj hother).symm hut

/-- The stored trail is now that of the snapshot, which continues the one before. -/
theorem SessionSafe.saved (hsafe : s.SessionSafe id) (h : SessionInv co s id)
    (hpc : s.pc t = .write id ref snapshot k) (halive : s.Alive id) :
    (s.saved co t id snapshot k).SessionSafe id := by
  have hbusy : (s.pc t).session = some id := by rw [hpc]; rfl
  have hsaving : s.saveLock = some t := (h.thread t hbusy).saves (by rw [hpc]; rfl)
  have hself : (s.saved co t id snapshot k).pc t = k.next id := pc_goto_self
  have hwrite := hsafe.pc t hbusy
  rw [hpc] at hwrite
  rcases hwrite with ⟨live, hflow, hlive, hentries, hold⟩
  rcases h.stored_of_alive halive hbusy (by rw [hpc]; rfl) with ⟨entry, hentry⟩
  have hnew : (s.saved co t id snapshot k).store.get? id =
      some (entry.update (FlowRepository.sessionFields co snapshot)) := by
    rw [get?_saved, if_pos rfl, hentry, Option.map_some]
  have hstored : ((s.saved co t id snapshot k).view id).stored =
      some (snapshot.approvalTrail.map storedEntry) := by
    rw [view_stored hnew, (saved_entry entry snapshot).stored]
  have hbefore := view_stored hentry
  refine hsafe.own (locally_saved hsaving) rfl ?_ hsafe.jobs ?_ ?_ ?_
  · intro r l trail hr htrail
    cases hflow.symm.trans hr
    rw [hstored] at htrail
    rw [← Option.some.inj htrail]
    exact hlive
  · intro u hut hu hsafeu
    exact hsafeu.stored hflow hbefore (hold _ hbefore) hlive rfl hstored
      (saves_of_ne h hsaving hut hu)
  · rw [hself, (afterSave_next id k).locks]
    exact fun l hl => hsafe.locks t hbusy l (by rw [hpc]; exact hl)
  · rw [hself]
    refine fun _ => (afterSave_next id k).safe _ _ ?_ hstored hentries
    exact fun hnone => Option.some_ne_none _ (hflow.symm.trans hnone)

theorem SessionGone.saved (hgone : s.SessionGone id) (h : SessionInv co s id)
    (hpc : s.pc t = .write id ref snapshot k) : (s.saved co t id snapshot k).SessionGone id := by
  have hbusy : (s.pc t).session = some id := by rw [hpc]; rfl
  have hsaving : s.saveLock = some t := (h.thread t hbusy).saves (by rw [hpc]; rfl)
  have hself : (s.saved co t id snapshot k).pc t = k.next id := pc_goto_self
  have hwrite := hgone.pc t hbusy
  rw [hpc] at hwrite
  have hnolock : k.lock = none := hwrite
  refine hgone.own (locally_saved hsaving) (fun _ => rfl) (fun h => h) ?_ ?_ ?_
  · rw [hpc]
    exact fun _ => by simp
  · rw [hself, (afterSave_next id k).locks, hnolock]
    exact fun _ _ hl => by cases hl
  · rw [hself]
    exact fun _ => (afterSave_next id k).harmless hnolock _

theorem inv_write (h : ∀ i, SessionInv co s i) (hpc : s.pc t = .write id ref snapshot k) :
    ∀ i, SessionInv co (s.run rt co t env (.write id ref snapshot k)).2 i := by
  have hbusy : (s.pc t).session = some id := by rw [hpc]; rfl
  have hinv := h id
  have hthread := hinv.thread t hbusy
  rw [hpc] at hthread
  have hs := @locally_saved co s id t snapshot k (hthread.saves rfl)
  have hself : (s.saved co t id snapshot k).pc t = k.next id := pc_goto_self
  show ∀ i, SessionInv co (s.saved co t id snapshot k) i
  refine inv_of_own h hs (eq_of_session hbusy) ?_ ?_
  · rw [hself]
    exact fun _ hj => session_next hj
  · refine hinv.own hs kept_saved (.inl hbusy) ?_ ?_ hinv.discards hinv.jobs ?_ ?_ ?_
    · rw [get?_saved, if_pos rfl]
      intro entry hentry
      rcases Option.map_eq_some_iff.mp hentry with ⟨old, -, rfl⟩
      exact ⟨Dict.update_ne_nil (by simp [FlowRepository.sessionFields]), _,
        saved_entry old snapshot⟩
    · exact fun r hr => ⟨(hinv.flow r hr).1, hs.owned id r (hinv.flow r hr).2⟩
    · intro _
      rw [hself]
      exact hthread.saved
    · exact fun halive hsafe => hsafe.saved hinv hpc halive
    · exact fun _ hgone => hgone.saved hinv hpc

end

theorem new_entry (f : AuditFlow) (name createdAt : Str) :
    Dict.update [] (newSession f name createdAt []) ≠ [] ∧
      StoredTrail co (Dict.update [] (newSession f name createdAt [])) [] := by
  refine ⟨Dict.update_ne_nil (by simp [newSession, SessionStore.savedFields]), .unsaved ?_⟩
  rw [Dict.get?_update_of_get?_eq_none _ (by rfl)]
  rfl

/-- The process after a thread has stored a new session. -/
def created (s : SessionService) (t : ThreadId) (id : Str) (ref : FlowRef)
    (entry : Dict Str Json) : SessionService :=
  ({ s with store := s.store.set id entry, shown := id :: s.shown } : SessionService).goto t
    (.dump id ref .create)

section

variable {ref : FlowRef} {name createdAt : Str} {entry : Dict Str Json}

theorem locally_created : Locally s (s.created t id ref entry) id t :=
  { @locally_goto s id t (.dump id ref .create) with
    owned := fun _ _ h => ⟨h.allocated, h.session⟩
    store := fun _ hj => Dict.get?_set_of_ne _ _ hj
    shown := fun _ hj => List.mem_cons.trans (or_iff_right hj) }

theorem get?_created : (s.created t id ref entry).store.get? id = some entry :=
  Dict.get?_set_self _ _ _

/-- No other thread is busy with a session that is being created. -/
theorem thread_created (h : s.ThreadInv id t (.put id ref name createdAt)) {u : ThreadId}
    (hu : ((s.created t id ref entry).pc u).session = some id) : u = t := by
  by_contra hut
  have hpc : (s.created t id ref entry).pc u = s.pc u := locally_created.pc u hut
  rw [hpc] at hu
  exact hut ((h.creates rfl).2.2 u hu)

theorem ThreadInv.created (h : s.ThreadInv id t (.put id ref name createdAt)) :
    (s.created t id ref entry).ThreadInv id t (.dump id ref .create) := by
  constructor
  case named => exact h.named
  case shown => exact fun _ _ => List.mem_cons_self
  case creates => exact fun hfalse => by cases hfalse
  case owned => exact fun r hr => locally_created.owned id r (h.owned r hr)
  case locks => exact fun _ hl => by cases hl
  case holds => exact fun _ hl => by cases hl
  case saves => exact fun hfalse => by cases hfalse

theorem SessionSafe.created (hsafe : s.SessionSafe id)
    (hthread : s.ThreadInv id t (.put id ref name createdAt))
    (hpc : s.pc t = .put id ref name createdAt) (hentry : StoredTrail co entry []) :
    (s.created t id ref entry).SessionSafe id := by
  have hput := hsafe.pc t (by rw [hpc]; rfl)
  rw [hpc] at hput
  rcases hput with ⟨live, hflow⟩
  have hself : (s.created t id ref entry).pc t = .dump id ref .create := pc_goto_self
  have hviewflow : ((s.created t id ref entry).view id).flow = some (ref, live) := hflow
  have hstored : ((s.created t id ref entry).view id).stored = some [] := by
    rw [view_stored get?_created, hentry.stored]
    rfl
  constructor
  case discards => exact hsafe.discards
  case continues =>
    rw [hstored]
    intro r l trail _ htrail
    rw [← Option.some.inj htrail]
    exact List.nil_prefix
  case jobs =>
    rw [hviewflow]
    exact fun _ _ _ => Option.some_ne_none _
  case locks =>
    intro u hu
    rw [thread_created hthread hu, hself]
    exact fun _ hl => by cases hl
  case pc =>
    intro u hu
    rw [thread_created hthread hu, hself]
    exact ⟨live, hviewflow, List.nil_prefix⟩

theorem SessionInv.created (h : SessionInv co s id) (hpc : s.pc t = .put id ref name createdAt)
    (hne : entry ≠ []) (hentry : StoredTrail co entry []) :
    SessionInv co (s.created t id ref entry) id := by
  have hthread := h.thread t (by rw [hpc]; rfl)
  rw [hpc] at hthread
  rcases hthread.creates rfl with ⟨hissued, hnew, -⟩
  have hshown : id ∈ (s.created t id ref entry).shown := List.mem_cons_self
  constructor
  case shown_issued => exact fun _ => hissued
  case issued_named => exact fun _ => hthread.named
  case stored_shown => exact fun _ => hshown
  case entry =>
    rw [get?_created]
    intro e he
    rw [← Option.some.inj he]
    exact ⟨hne, [], hentry⟩
  case flow => exact fun r hr => ⟨(h.flow r hr).1, locally_created.owned id r (h.flow r hr).2⟩
  case discards => exact h.discards
  case jobs => exact fun j hj hji => ⟨(h.jobs j hj hji).1, fun _ => hshown⟩
  case thread =>
    intro u hu
    have hself : (s.created t id ref entry).pc t = .dump id ref .create := pc_goto_self
    rw [thread_created hthread hu, hself]
    exact hthread.created
  case safe =>
    intro _
    have halive : s.Alive id := ⟨hissued, fun hshown => absurd hshown hnew⟩
    exact (h.safe halive).created hthread hpc hentry
  case gone =>
    refine fun hgone => absurd ⟨hissued, fun _ => contains_iff.mpr ?_⟩ hgone
    rw [get?_created]
    exact Option.some_ne_none _

theorem inv_put (h : ∀ i, SessionInv co s i) (hpc : s.pc t = .put id ref name createdAt) :
    ∀ i, SessionInv co (s.run rt co t env (.put id ref name createdAt)).2 i := by
  have hbusy : (s.pc t).session = some id := by rw [hpc]; rfl
  have hthread := (h id).thread t hbusy
  rw [hpc] at hthread
  have hnone : s.store.get? id = none := by
    by_contra hne
    exact (hthread.creates rfl).2.1 ((h id).stored_shown (contains_iff.mpr hne))
  have hfresh : s.store.getD id [] = [] := by
    unfold Dict.getD
    rw [hnone]
    rfl
  unfold run
  dsimp only
  rw [hfresh]
  rcases @new_entry co (s.heap ref) name createdAt with ⟨hne, hunsaved⟩
  generalize Dict.update [] (newSession (s.heap ref) name createdAt []) = entry at hne hunsaved
  have hself : (s.created t id ref entry).pc t = .dump id ref .create := pc_goto_self
  show ∀ i, SessionInv co (s.created t id ref entry) i
  refine inv_of_own h locally_created (eq_of_session hbusy) ?_ ((h id).created hpc hne hunsaved)
  rw [hself]
  exact eq_of_session rfl

end

/-- The process after a thread has deleted a session from the store. -/
def dropped (s : SessionService) (t : ThreadId) (id : Str) (lock : ActionLock) : SessionService :=
  ({ s with store := s.store.without id } : SessionService).goto t (.remove id lock)

theorem locally_dropped : Locally s (s.dropped t id lock) id t :=
  { @locally_goto s id t (.remove id lock) with
    owned := fun _ _ h => ⟨h.allocated, h.session⟩
    store := fun _ hi => Dict.get?_without_of_ne _ hi }

theorem get?_dropped : (s.dropped t id lock).store.get? id = none := Dict.get?_without_self _ _

theorem ThreadInv.dropped (h : s.ThreadInv id t (.drop id lock)) :
    (s.dropped t id lock).ThreadInv id t (.remove id lock) := by
  constructor
  case named => exact h.named
  case shown => exact fun _ => h.shown rfl
  case creates => exact fun hfalse => by cases hfalse
  case owned => exact fun _ hr => by cases hr
  case locks => exact h.locks
  case holds => exact h.holds
  case saves => exact fun hfalse => by cases hfalse

/-- The threads that have not the action lock find the session gone, and do no harm. -/
theorem SessionSafe.dropped (hsafe : s.SessionSafe id) (h : SessionInv co s id)
    (hpc : s.pc t = .drop id lock) (halive : s.Alive id) :
    (s.dropped t id lock).SessionGone id := by
  have hbusy : (s.pc t).session = some id := by rw [hpc]; rfl
  have hheld : (s.pc t).holds = some lock := by rw [hpc]; rfl
  have hself : (s.dropped t id lock).pc t = .remove id lock := pc_goto_self
  have hlocks := hsafe.locks t hbusy
  constructor
  case dropping =>
    have hdiscards := hlocks lock (ServicePc.locks_of_holds hheld)
    have hlockId := (h.thread t hbusy).locks lock (ServicePc.locks_of_holds hheld)
    have hzero : lock = ⟨id, 0⟩ := by
      cases lock
      cases hdiscards
      cases hlockId
      rfl
    exact fun _ => ⟨t, by rw [hself, hzero]⟩
  case discards => exact fun _ => hsafe.discards
  case locks =>
    intro _ u hu
    by_cases hut : u = t
    · rw [hut, hself]
      exact fun l hl => hlocks l (by rw [hpc]; exact hl)
    · have hother : (s.dropped t id lock).pc u = s.pc u := locally_dropped.pc u hut
      rw [hother] at hu ⊢
      exact hsafe.locks u hu
  case pc =>
    intro u hu
    by_cases hut : u = t
    · rw [hut, hself]
      trivial
    · have hother : (s.dropped t id lock).pc u = s.pc u := locally_dropped.pc u hut
      rw [hother] at hu ⊢
      exact (hsafe.pc u hu).harmless (h.exclusive halive hbusy hheld hu hut)
        (h.not_creating hbusy hu hut)

theorem SessionInv.dropped_alive (h : SessionInv co s id) (hpc : s.pc t = .drop id lock)
    (halive : s.Alive id) : SessionInv co (s.dropped t id lock) id := by
  have hbusy : (s.pc t).session = some id := by rw [hpc]; rfl
  have hthread := h.thread t hbusy
  rw [hpc] at hthread
  have hself : (s.dropped t id lock).pc t = .remove id lock := pc_goto_self
  have hshown : id ∈ s.shown := hthread.shown rfl halive.1
  constructor
  case shown_issued => exact h.shown_issued
  case issued_named => exact h.issued_named
  case stored_shown => exact fun _ => hshown
  case entry =>
    rw [get?_dropped]
    exact fun _ he => by cases he
  case flow => exact fun r hr => ⟨(h.flow r hr).1, locally_dropped.owned id r (h.flow r hr).2⟩
  case discards => exact h.discards
  case jobs => exact h.jobs
  case thread =>
    intro u hu
    by_cases hut : u = t
    · rw [hut, hself]
      exact hthread.dropped
    · have hother : (s.dropped t id lock).pc u = s.pc u := locally_dropped.pc u hut
      rw [hother] at hu ⊢
      have huinv := h.thread u hu
      refine { huinv with creates := ?_, owned := ?_ }
      · rw [h.not_creating hbusy hu hut]
        exact fun hfalse => by cases hfalse
      · exact fun r hr => locally_dropped.owned id r (huinv.owned r hr)
  case safe =>
    intro halive'
    exact absurd get?_dropped (contains_iff.mp (halive'.2 hshown))
  case gone => exact fun _ => (h.safe halive).dropped h hpc halive

theorem SessionInv.dropped_gone (h : SessionInv co s id) (hpc : s.pc t = .drop id lock)
    (hgone : ¬ s.Alive id) : SessionInv co (s.dropped t id lock) id := by
  have hbusy : (s.pc t).session = some id := by rw [hpc]; rfl
  have hthread := h.thread t hbusy
  rw [hpc] at hthread
  have hself : (s.dropped t id lock).pc t = .remove id lock := pc_goto_self
  have hholds : (ServicePc.drop id lock).holds = some lock := rfl
  have hflow := h.flow_of_holder hgone hpc rfl hholds (by simp)
  have hk : KeptSession s (s.dropped t id lock) id := by
    refine ⟨Iff.rfl, Iff.rfl, fun h => h, ?_⟩
    rw [h.stored_of_gone hgone]
    unfold Dict.contains
    rw [get?_dropped]
    rfl
  refine h.own locally_dropped hk (.inl hbusy) ?_ ?_ h.discards h.jobs ?_
    (fun halive => absurd halive hgone) ?_
  · rw [get?_dropped]
    exact fun _ he => by cases he
  · exact fun r hr => ⟨(h.flow r hr).1, locally_dropped.owned id r (h.flow r hr).2⟩
  · intro _
    rw [hself]
    exact hthread.dropped
  · intro _ hgone'
    refine hgone'.own locally_dropped (fun _ => rfl) (fun h => h) (fun hne => absurd hflow hne)
      (fun hne => absurd hflow hne) ?_
    rw [hself]
    exact fun _ => trivial

theorem inv_drop (h : ∀ i, SessionInv co s i) (hpc : s.pc t = .drop id lock) :
    ∀ i, SessionInv co (s.run rt co t env (.drop id lock)).2 i := by
  have hself : (s.dropped t id lock).pc t = .remove id lock := pc_goto_self
  show ∀ i, SessionInv co (s.dropped t id lock) i
  refine inv_of_own h locally_dropped (eq_of_session (by rw [hpc]; rfl)) ?_ ?_
  · rw [hself]
    exact eq_of_session rfl
  · by_cases halive : s.Alive id
    · exact (h id).dropped_alive hpc halive
    · exact (h id).dropped_gone hpc halive

/-- A step that takes the flow of a session that is gone out of memory, or discards its lock. -/
theorem inv_gone_step (h : ∀ i, SessionInv co s i) (hpc : s.pc t = p₀)
    (hold : p₀.session = some id) (hcreates : p₀.creates = false) (hs : Locally s s' id t)
    (hself : s'.pc t = p) (hsession : p.session = some id) (hcreates' : p.creates = false)
    (hsaves : p.saves = false) (href : p.flowRef = none) (hholds : p.holds = p₀.holds)
    (hlocks : p.locks = p₀.locks) (hharmless : ∀ v, p.Harmless v)
    (hsafe : ∀ v, ¬ p₀.Safe v)
    (hkept : s'.issued = s.issued ∧ s'.shown = s.shown ∧ s'.named = s.named ∧
      s'.store = s.store ∧ s'.jobs = s.jobs ∧ s'.actionLocks = s.actionLocks)
    (hflow : ∀ r, s'.flows.get? id = some r → s.flows.get? id = some r)
    (hnone : ¬ s.Alive id → (s'.view id).flow = none) : ∀ i, SessionInv co s' i := by
  have hbusy : (s.pc t).session = some id := by rw [hpc]; exact hold
  have hthread := (h id).thread t hbusy
  rw [hpc] at hthread
  rcases hkept with ⟨hissued, hshown, hnamed, hstore, hjobs, hactionLocks⟩
  refine inv_of_own h hs (eq_of_session hbusy) ?_ ?_
  · rw [hself]
    exact eq_of_session hsession
  · have hinv := h id
    have hgone : ¬ s.Alive id := by
      intro halive
      have hfalse := (hinv.safe halive).pc t hbusy
      rw [hpc] at hfalse
      exact hsafe _ hfalse
    have hk : KeptSession s s' id := by
      refine ⟨?_, ?_, ?_, ?_⟩
      · rw [hissued]
      · rw [hshown]
      · rw [hnamed]
        exact fun h => h
      · rw [hstore]
    refine hinv.own hs hk (.inl hbusy) ?_ ?_ ?_ ?_ ?_ (fun halive => absurd halive hgone) ?_
    · rw [hstore]
      exact hinv.entry
    · intro r hr
      have hr' := hinv.flow r (hflow r hr)
      exact ⟨hk.named hr'.1, hs.owned id r hr'.2⟩
    · exact fun _ => hk.named hthread.named
    · rw [hjobs, hissued, hshown, hnamed]
      exact hinv.jobs
    · intro _
      rw [hself]
      constructor
      case named => exact hk.named hthread.named
      case shown =>
        rw [hissued, hshown]
        exact fun _ => hthread.shown hcreates
      case creates =>
        rw [hcreates']
        exact fun hfalse => by cases hfalse
      case owned =>
        rw [href]
        exact fun _ hr => by cases hr
      case locks =>
        rw [hlocks]
        exact hthread.locks
      case holds =>
        rw [hholds, hactionLocks]
        exact hthread.holds
      case saves =>
        rw [hsaves]
        exact fun hfalse => by cases hfalse
    · intro _ hgone'
      refine hgone'.own hs ?_ (fun _ => hnone hgone) ?_ ?_ ?_
      · exact fun hne => absurd (hnone hgone) hne
      · exact fun hne => absurd (hnone hgone) hne
      · intro hne l hl
        rw [hself, hlocks] at hl
        exact hgone'.locks hne t hbusy l (by rw [hpc]; exact hl)
      · rw [hself]
        exact fun _ => hharmless _

theorem inv_remove (h : ∀ i, SessionInv co s i) (hpc : s.pc t = .remove id lock) :
    ∀ i, SessionInv co (s.run rt co t env (.remove id lock)).2 i := by
  have hget : (s.flows.without id).get? id = none := Dict.get?_without_self _ _
  refine inv_gone_step (p := .discard id lock) h hpc rfl rfl ?_ pc_goto_self rfl rfl rfl rfl rfl
    rfl (fun _ => trivial) (fun _ hfalse => hfalse) ⟨rfl, rfl, rfl, rfl, rfl, rfl⟩ ?_ ?_
  · exact { @locally_goto s id t (.discard id lock) with
      owned := fun _ _ h => ⟨h.allocated, h.session⟩
      flows := fun j hj => Dict.get?_without_of_ne _ hj }
  · intro r hr
    have hr' : (s.flows.without id).get? id = some r := hr
    rw [hget] at hr'
    cases hr'
  · intro _
    show ((s.flows.without id).get? id).map _ = none
    rw [hget]
    rfl

theorem inv_discard (h : ∀ i, SessionInv co s i) (hpc : s.pc t = .discard id lock) :
    ∀ i, SessionInv co (s.run rt co t env (.discard id lock)).2 i := by
  have hholds : (ServicePc.discard id lock).holds = some lock := rfl
  have hnone : ¬ s.Alive id → (s.view id).flow = none := fun hgone =>
    (h id).flow_of_holder hgone hpc rfl hholds (by simp)
  refine inv_gone_step (p := .leave id lock none) h hpc rfl rfl ?_ pc_goto_self rfl rfl rfl rfl rfl
    rfl (fun _ => rfl) (fun _ hfalse => hfalse) ⟨rfl, rfl, rfl, rfl, rfl, rfl⟩ (fun _ hr => hr) ?_
  · exact { @locally_goto s id t (.leave id lock none) with
      owned := fun _ _ h => ⟨h.allocated, h.session⟩
      discards := fun j hj => if_neg hj }
  · exact hnone

end SessionService

end AuditSwarm
