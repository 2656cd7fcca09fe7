import AuditSwarm.Run.ServiceSteps

/-!
# Steps between threads

The steps that leave the flows and the stored sessions as they are: a thread goes on, takes or
gives back a lock, or takes or submits a job.
-/

namespace AuditSwarm

open Python

namespace SessionService

variable {rt : Runtime} {co : Coercions} {s s' : SessionService} {id : Str} {t : ThreadId}
  {env : Env} {p p₀ : ServicePc} {lock : ActionLock}

theorem pc_goto_self : (s.goto t p).pc t = p := if_pos rfl

theorem pc_goto_of_ne {u : ThreadId} (hu : u ≠ t) : (s.goto t p).pc u = s.pc u := if_neg hu

/-! ## Steps that leave the data as they are -/

theorem sameData_goto : SameData s (s.goto t p) id t where
  store := rfl
  flows := rfl
  heap := rfl
  allocated := rfl
  discards := rfl
  issued := rfl
  shown := rfl
  named _ := ⟨Or.inl, fun h => h.elim (fun h => h) fun h => h.1 ▸ h.2⟩
  pc _ hu := pc_goto_of_ne hu
  saveLock _ _ h := h
  actionLocks _ _ _ h := h
  jobs _ hj _ := hj

theorem locally_goto : Locally s (s.goto t p) id t := sameData_goto.locally

theorem inv_goto (h : ∀ i, SessionInv co s i) (hpc : s.pc t = p₀) (hold : p₀.session = some id)
    (hcreates : p₀.creates = false) (hremove : p₀ ≠ .remove id ⟨id, 0⟩)
    (hsession : ∀ i, p.session = some i → i = id) (hcreates' : p.creates = false)
    (hsaves : p.saves = false) (howned : ∀ ref, p.flowRef = some ref → s.Owned id ref)
    (hlocks : ∀ lock, p.locks = some lock → p₀.locks = some lock ∨ lock = ⟨id, s.discards id⟩)
    (hholds : ∀ lock, p.holds = some lock → p₀.holds = some lock)
    (hsafe : s.Alive id → s.SessionSafe id → p₀.Safe (s.view id) → p.Safe (s.view id))
    (hharmless : ¬ s.Alive id → p₀.Harmless (s.view id) → p.Harmless (s.view id)) :
    ∀ i, SessionInv co (s.goto t p) i := by
  have hold' : (s.pc t).session = some id := by rw [hpc]; exact hold
  have hthread := (h id).thread t hold'
  rw [hpc] at hthread
  intro i
  have hsame : SameData s (s.goto t p) id t := sameData_goto
  refine SessionInv.goes h hsame ?_ ?_ (.inl hold') ?_
    (fun j hj _ => .inl hj) (fun _ => ?_) i
  · intro j hj
    rw [hold'] at hj
    exact (Option.some.inj hj).symm
  · rw [pc_goto_self]
    exact hsession
  · rw [hpc]
    exact hremove
  · constructor
    case named => exact hthread.named
    case shown => exact hthread.shown hcreates
    case creates => rw [pc_goto_self]; exact hcreates'
    case owned => rw [pc_goto_self]; exact howned
    case locks =>
      rw [pc_goto_self, hpc]
      exact fun lock hlock => (hlocks lock hlock).imp (fun hl => ⟨hold, hl⟩) fun hl => hl
    case holds =>
      rw [pc_goto_self]
      exact fun lock hlock => hthread.holds lock (hholds lock hlock)
    case saves =>
      rw [pc_goto_self, hsaves]
      exact fun hfalse => by cases hfalse
    case safe =>
      rw [pc_goto_self]
      intro halive hs
      have h₀ := hs.pc t hold'
      rw [hpc] at h₀
      exact hsafe halive hs h₀
    case harmless =>
      rw [pc_goto_self]
      intro halive hs
      have h₀ := hs.pc t hold'
      rw [hpc] at h₀
      exact hharmless halive h₀

theorem inv_idle (h : ∀ i, SessionInv co s i) (hpc : s.pc t = p₀) (hold : p₀.session = some id)
    (hcreates : p₀.creates = false) (hremove : p₀ ≠ .remove id ⟨id, 0⟩) :
    ∀ i, SessionInv co (s.goto t .idle) i :=
  inv_goto h hpc hold hcreates hremove (fun _ hi => by cases hi) rfl rfl
    (fun _ href => by cases href) (fun _ hlock => by cases hlock) (fun _ hlock => by cases hlock)
    (fun _ _ _ => trivial) fun _ _ => trivial

theorem inv_require {a : SessionAction} (h : ∀ i, SessionInv co s i)
    (hpc : s.pc t = .require id a) :
    ∀ i, SessionInv co (s.run rt co t env (.require id a)).2 i := by
  unfold run
  dsimp only
  split
  · exact inv_goto (p := .lock id (.action a)) h hpc rfl rfl (by simp)
      (fun _ hi => (Option.some.inj hi).symm) rfl rfl (fun _ href => by cases href)
      (fun _ hlock => by cases hlock) (fun _ hlock => by cases hlock) (fun _ _ _ => trivial)
      fun _ _ => trivial
  · exact inv_idle h hpc rfl rfl (by simp)

theorem inv_lock {u : LockUser} (h : ∀ i, SessionInv co s i) (hpc : s.pc t = .lock id u) :
    ∀ i, SessionInv co (s.run rt co t env (.lock id u)).2 i :=
  inv_goto h hpc rfl rfl (by simp) (fun _ hi => (Option.some.inj hi).symm) rfl rfl
    (fun _ href => by cases href) (fun _ hlock => .inr (Option.some.inj hlock).symm)
    (fun _ hlock => by cases hlock) (fun _ _ _ => trivial) fun _ _ => trivial

theorem view_flow {ref : FlowRef} (h : s.flows.get? id = some ref) :
    (s.view id).flow = some (ref, (s.heap ref).storedEntries) := by
  unfold view
  rw [h]
  rfl

theorem inv_get {u : FlowUser} (h : ∀ i, SessionInv co s i) (hpc : s.pc t = .get id u) :
    ∀ i, SessionInv co (s.run rt co t env (.get id u)).2 i := by
  unfold run
  dsimp only
  cases hflow : s.flows.get? id with
  | some ref =>
      have howned := ((h id).flow ref hflow).2
      have hview := view_flow hflow
      cases u with
      | action a lock =>
          refine inv_goto (p := .act id a lock ref) h hpc rfl rfl (by simp)
            (fun _ hi => (Option.some.inj hi).symm) rfl rfl (fun _ href => ?_)
            (fun _ hlock => .inl hlock) (fun _ hlock => hlock) (fun _ _ _ => ⟨_, hview⟩)
            fun _ hgone => ?_
          · rw [← Option.some.inj href]
            exact howned
          · have hnone : (s.view id).flow = none := hgone
            rw [hview] at hnone
            cases hnone
      | phase q =>
          refine inv_goto (p := .phase id q ref) h hpc rfl rfl (by simp)
            (fun _ hi => (Option.some.inj hi).symm) rfl rfl (fun _ href => ?_)
            (fun _ hlock => by cases hlock) (fun _ hlock => by cases hlock)
            (fun _ _ _ => ⟨_, hview⟩) fun _ _ => trivial
          rw [← Option.some.inj href]
          exact howned
  | none =>
      have hview : (s.view id).flow = none := by
        unfold view
        rw [hflow]
        rfl
      cases u with
      | action a lock =>
          exact inv_goto (p := .load id (.action a lock)) h hpc rfl rfl (by simp)
            (fun _ hi => (Option.some.inj hi).symm) rfl rfl (fun _ href => by cases href)
            (fun _ hlock => .inl hlock) (fun _ hlock => hlock) (fun _ _ _ => hview)
            fun _ _ => trivial
      | phase q =>
          exact inv_goto (p := .load id (.phase q)) h hpc rfl rfl (by simp)
            (fun _ hi => (Option.some.inj hi).symm) rfl rfl (fun _ href => by cases href)
            (fun _ hlock => by cases hlock) (fun _ hlock => by cases hlock)
            (fun _ _ hsafe => absurd hview hsafe) fun _ _ => trivial

theorem loaded_stored {loaded : LoadResult} (h : SessionInv co s id)
    (hload : FlowRepository.load rt co env s.store id = .ok (some loaded)) :
    (s.view id).stored = some loaded.flow.storedEntries := by
  unfold view
  cases hget : s.store.get? id with
  | none =>
      unfold FlowRepository.load at hload
      rw [hget] at hload
      cases hload
  | some entry =>
      rcases (h.entry entry hget).2 with ⟨trail, htrail⟩
      rw [Option.map_some, htrail.stored, AuditFlow.storedEntries, htrail.load hget hload]

theorem SessionInv.stored_of_gone (h : SessionInv co s id) (hgone : ¬ s.Alive id) :
    s.store.contains id = false := by
  cases hstored : s.store.contains id with
  | false => rfl
  | true =>
      exact absurd ⟨h.shown_issued (h.stored_shown hstored), fun _ => hstored⟩ hgone

theorem inv_load {u : FlowUser} (h : ∀ i, SessionInv co s i) (hpc : s.pc t = .load id u) :
    ∀ i, SessionInv co (s.run rt co t env (.load id u)).2 i := by
  have hstop : ∀ i, SessionInv co (s.goto t (u.stop id)) i := by
    cases u with
    | action a lock =>
        exact inv_goto (p := .leave id lock none) h hpc rfl rfl (by simp)
          (fun _ hi => (Option.some.inj hi).symm) rfl rfl (fun _ href => by cases href)
          (fun _ hlock => .inl hlock) (fun _ hlock => hlock) (fun _ _ _ => trivial)
          fun _ _ => rfl
    | phase q => exact inv_idle h hpc rfl rfl (by simp)
  unfold run
  dsimp only
  cases hload : FlowRepository.load rt co env s.store id with
  | error e => exact hstop
  | ok result =>
      cases result with
      | none => exact hstop
      | some loaded =>
          have hstored := loaded_stored (h id) hload
          have hthere : s.store.contains id = true := by
            rw [← stored_ne_none, hstored]
            exact Option.some_ne_none _
          cases u with
          | action a lock =>
              refine inv_goto (p := .set id (.action a lock) loaded.flow) h hpc rfl rfl (by simp)
                (fun _ hi => (Option.some.inj hi).symm) rfl rfl (fun _ href => by cases href)
                (fun _ hlock => .inl hlock) (fun _ hlock => hlock)
                (fun _ _ hsafe => ⟨hsafe, hstored⟩) fun hgone _ => ?_
              rw [(h id).stored_of_gone hgone] at hthere
              cases hthere
          | phase q =>
              refine inv_goto (p := .set id (.phase q) loaded.flow) h hpc rfl rfl (by simp)
                (fun _ hi => (Option.some.inj hi).symm) rfl rfl (fun _ href => by cases href)
                (fun _ hlock => by cases hlock) (fun _ hlock => by cases hlock)
                (fun _ _ hsafe => hsafe) fun hgone _ => ?_
              rw [(h id).stored_of_gone hgone] at hthere
              cases hthere

theorem inv_phase {q : Phase} {ref : FlowRef} (h : ∀ i, SessionInv co s i)
    (hpc : s.pc t = .phase id q ref) :
    ∀ i, SessionInv co (s.run rt co t env (.phase id q ref)).2 i := by
  have hthread := (h id).thread t (by rw [hpc]; rfl)
  rw [hpc] at hthread
  refine inv_goto (p := .dump id ref .phase) h hpc rfl rfl (by simp)
    (fun _ hi => (Option.some.inj hi).symm) rfl rfl hthread.owned (fun _ hlock => by cases hlock)
    (fun _ hlock => by cases hlock) (fun _ _ hsafe => ?_) fun _ _ => rfl
  rcases hsafe with ⟨live, hlive⟩
  exact ⟨live, hlive, List.nil_prefix⟩

theorem inv_fail {q : Phase} {ref : FlowRef} (h : ∀ i, SessionInv co s i)
    (hpc : s.pc t = .phase id q ref) : ∀ i, SessionInv co (s.goto t .idle) i :=
  inv_idle h hpc rfl rfl (by simp)

/-- A session that is there and no longer being created is stored. -/
theorem SessionInv.stored_of_alive (h : SessionInv co s id) (halive : s.Alive id)
    (hsession : (s.pc t).session = some id) (hcreates : (s.pc t).creates = false) :
    ∃ entry, s.store.get? id = some entry := by
  have hshown := (h.thread t hsession).shown hcreates halive.1
  have hne := contains_iff.mp (halive.2 hshown)
  rcases hget : s.store.get? id with _ | entry
  · exact absurd hget hne
  · exact ⟨entry, rfl⟩

theorem view_stored {entry : Dict Str Json} (h : s.store.get? id = some entry) :
    (s.view id).stored = some (storedTrail (storedSnapshot entry)) := by
  unfold view
  rw [h]
  rfl

theorem inv_read (h : ∀ i, SessionInv co s i) (hpc : s.pc t = .read id lock) :
    ∀ i, SessionInv co (s.run rt co t env (.read id lock)).2 i := by
  refine inv_goto (p := .check id lock (s.store.get? id)) h hpc rfl rfl (by simp)
    (fun _ hi => (Option.some.inj hi).symm) rfl rfl (fun _ href => by cases href)
    (fun _ hlock => .inl hlock) (fun _ hlock => hlock) (fun halive _ _ => ?_) fun _ _ => trivial
  rcases (h id).stored_of_alive (t := t) halive (by rw [hpc]; rfl) (by rw [hpc]; rfl) with
    ⟨entry, hentry⟩
  exact ⟨entry, hentry, ((h id).entry entry hentry).1, fun _ => view_stored hentry⟩

theorem any_isGateApproval (trail : List StrEntry) :
    (trail.map storedEntry).any isGateApproval =
      trail.any fun e => e.get? (lit "action") = some (lit "gate_approval") := by
  rw [List.any_map]
  congr 1
  funext e
  rw [Function.comp_apply, Bool.eq_iff_iff, isGateApproval_storedEntry, decide_eq_true_eq]

/-- A session that may be deleted has no approved gate, in memory or in what was read of it. -/
theorem not_hasSignOff {data : Dict Str Json} (h : s.hasSignOff rt id data = false) :
    (∀ ref, s.flows.get? id = some ref →
      (s.heap ref).storedEntries.any isGateApproval = false) ∧
      (storedTrail (storedSnapshot data)).any isGateApproval = false := by
  unfold hasSignOff at h
  rw [Bool.or_eq_false_iff, Bool.or_eq_false_iff] at h
  refine ⟨fun ref href => ?_, h.2⟩
  have hflow := h.1.1
  rw [href] at hflow
  dsimp only at hflow
  rw [Bool.or_eq_false_iff] at hflow
  rw [AuditFlow.storedEntries, any_isGateApproval]
  exact hflow.2

theorem inv_check {data : Option (Dict Str Json)} (h : ∀ i, SessionInv co s i)
    (hpc : s.pc t = .check id lock data) :
    ∀ i, SessionInv co (s.run rt co t env (.check id lock data)).2 i := by
  have hleave : ∀ i, SessionInv co (s.goto t (.leave id lock none)) i :=
    inv_goto h hpc rfl rfl (by simp) (fun _ hi => (Option.some.inj hi).symm) rfl rfl
      (fun _ href => by cases href) (fun _ hlock => .inl hlock) (fun _ hlock => hlock)
      (fun _ _ _ => trivial) fun _ _ => rfl
  have hdrop : (s.Alive id → s.SessionSafe id →
      (ServicePc.check id lock data).Safe (s.view id) →
        (ServicePc.drop id lock).Safe (s.view id)) →
      ∀ i, SessionInv co (s.goto t (.drop id lock)) i := fun hsafe =>
    inv_goto h hpc rfl rfl (by simp) (fun _ hi => (Option.some.inj hi).symm) rfl rfl
      (fun _ href => by cases href) (fun _ hlock => .inl hlock) (fun _ hlock => hlock) hsafe
      fun _ _ => trivial
  unfold run
  rcases data with _ | _ | ⟨kv, rest⟩
  · refine hdrop fun _ _ hcheck => ?_
    rcases hcheck with ⟨entry, hentry, -⟩
    cases hentry
  · refine hdrop fun _ _ hcheck => ?_
    rcases hcheck with ⟨entry, hentry, hne, -⟩
    exact absurd (Option.some.inj hentry).symm hne
  · dsimp only
    cases hsign : s.hasSignOff rt id (kv :: rest) with
    | true => exact hleave
    | false =>
        refine hdrop fun _ hs hcheck => ?_
        rcases not_hasSignOff hsign with ⟨hlive, hread⟩
        have hlive' : ∀ ref live, (s.view id).flow = some (ref, live) →
            live.any isGateApproval = false := by
          intro ref live hview
          cases hflow : s.flows.get? id with
          | none =>
              rw [view, hflow] at hview
              cases hview
          | some r =>
              rw [view_flow hflow] at hview
              cases hview
              exact hlive _ hflow
        refine ⟨fun trail htrail => ?_, hlive'⟩
        rcases hcheck with ⟨entry, hentry, -, hstored⟩
        cases hview : (s.view id).flow with
        | none =>
            rw [hstored hview, ← Option.some.inj hentry] at htrail
            rw [← Option.some.inj htrail]
            exact hread
        | some flow =>
            have hno := hlive' flow.1 flow.2 hview
            have hgrown := hs.continues flow.1 flow.2 trail hview htrail
            rw [List.any_eq_false] at hno ⊢
            exact fun e he => hno e (hgrown.subset he)

/-! ## Steps that take or give back a lock, and jobs -/

/-- Only the thread that deleted a session holds its first action lock, as long as its flow is
there. -/
theorem SessionInv.dropper (h : SessionInv co s id) (hgone : ¬ s.Alive id)
    (hflow : (s.view id).flow ≠ none) (hid : lock.id = id) (hdiscards : lock.discards = 0) :
    ∃ u, s.actionLocks lock = some u ∧ s.pc u = .remove id ⟨id, 0⟩ := by
  rcases (h.gone hgone).dropping hflow with ⟨u, hu⟩
  have hlock : lock = ⟨id, 0⟩ := by
    cases lock
    cases hid
    cases hdiscards
    rfl
  refine ⟨u, ?_, hu⟩
  rw [hlock]
  have hthread := h.thread u (by rw [hu]; rfl)
  rw [hu] at hthread
  exact hthread.holds _ rfl

/-- A thread that holds an action lock of a session that is gone finds no flow of it. -/
theorem SessionInv.flow_of_holder (h : SessionInv co s id) (hgone : ¬ s.Alive id)
    (hpc : s.pc t = p₀) (hsession : p₀.session = some id) (hholds : p₀.holds = some lock)
    (hremove : p₀ ≠ .remove id ⟨id, 0⟩) : (s.view id).flow = none := by
  have hsession' : (s.pc t).session = some id := by rw [hpc]; exact hsession
  have hlocks : (s.pc t).locks = some lock := by
    rw [hpc]
    exact ServicePc.locks_of_holds hholds
  have hthread := h.thread t hsession'
  by_contra hflow
  have hdiscards := (h.gone hgone).locks hflow t hsession' lock hlocks
  rcases h.dropper hgone hflow (hthread.locks lock hlocks) hdiscards with ⟨u, hu, hpcu⟩
  rw [hthread.holds lock (by rw [hpc]; exact hholds)] at hu
  cases hu
  exact hremove (hpc.symm.trans hpcu)

theorem sameData_setActionLock {holder : Option ThreadId}
    (hother : ∀ u, u ≠ t → s.actionLocks lock ≠ some u) :
    SameData s ((s.setActionLock lock holder).goto t p) id t :=
  { @sameData_goto s id t p with
    actionLocks := fun u hu l hl => by
      show (if l = lock then holder else s.actionLocks l) = some u
      by_cases hlock : l = lock
      · rw [hlock] at hl
        exact absurd hl (hother u hu)
      · rw [if_neg hlock]
        exact hl }

theorem inv_wait {u : LockUser} (h : ∀ i, SessionInv co s i) (hpc : s.pc t = .wait id u lock) :
    ∀ i, SessionInv co (s.run rt co t env (.wait id u lock)).2 i := by
  have hsession : (s.pc t).session = some id := by rw [hpc]; rfl
  have hlocks : (s.pc t).locks = some lock := by rw [hpc]; rfl
  have hthread := (h id).thread t hsession
  have key : ∀ p : ServicePc, p.session = some id → p.creates = false → p.saves = false →
      p.flowRef = none → p.locks = some lock → p.holds = some lock →
      p.Safe (s.view id) → ((s.view id).flow = none → p.Harmless (s.view id)) →
      ∀ i, SessionInv co (s.acquire t lock p).2 i := by
    intro p hp hcreates hsaves href hplocks hpholds hsafe hharmless
    unfold acquire
    cases hfree : s.actionLocks lock with
    | some u => exact h
    | none =>
        have hsame : SameData s ((s.setActionLock lock (some t)).goto t p) id t :=
          sameData_setActionLock fun u _ hu => by rw [hfree] at hu; cases hu
        refine SessionInv.goes h hsame ?_ ?_ (.inl hsession) ?_ (fun j hj _ => .inl hj) fun _ => ?_
        · intro j hj
          rw [hsession] at hj
          exact (Option.some.inj hj).symm
        · rw [pc_goto_self, hp]
          exact fun _ hi => (Option.some.inj hi).symm
        · rw [hpc]
          simp
        · constructor
          case named => exact hthread.named
          case shown => exact hthread.shown (by rw [hpc]; rfl)
          case creates => rw [pc_goto_self]; exact hcreates
          case owned =>
            rw [pc_goto_self, href]
            exact fun _ hr => by cases hr
          case locks =>
            rw [pc_goto_self, hplocks]
            intro l hl
            rw [← Option.some.inj hl]
            exact .inl ⟨hsession, hlocks⟩
          case holds =>
            rw [pc_goto_self, hpholds]
            intro l hl
            rw [← Option.some.inj hl]
            exact if_pos rfl
          case saves =>
            rw [pc_goto_self, hsaves]
            exact fun hfalse => by cases hfalse
          case safe =>
            rw [pc_goto_self]
            exact fun _ _ => hsafe
          case harmless =>
            rw [pc_goto_self]
            intro hgone hs
            apply hharmless
            by_contra hflow
            rcases (h id).dropper hgone hflow (hthread.locks lock hlocks)
              (hs.locks hflow t hsession lock hlocks) with ⟨u, hu, -⟩
            rw [hfree] at hu
            cases hu
  cases u with
  | action a => exact key (.get id (.action a lock)) rfl rfl rfl rfl rfl rfl trivial fun h => h
  | delete => exact key (.read id lock) rfl rfl rfl rfl rfl rfl trivial fun _ => trivial

theorem inv_leave {answer : Option (List StrEntry)} (h : ∀ i, SessionInv co s i)
    (hpc : s.pc t = .leave id lock answer) :
    ∀ i, SessionInv co (s.run rt co t env (.leave id lock answer)).2 i := by
  have hsession : (s.pc t).session = some id := by rw [hpc]; rfl
  have hheld := ((h id).thread t hsession).holds lock (by rw [hpc]; rfl)
  have hnone : ((s.setActionLock lock none).goto t .idle).pc t = .idle := pc_goto_self
  show ∀ i, SessionInv co ((s.setActionLock lock none).goto t .idle) i
  have hsame : SameData s ((s.setActionLock lock none).goto t .idle) id t :=
    sameData_setActionLock fun u hu hlock => by
      rw [hheld] at hlock
      exact hu (Option.some.inj hlock).symm
  refine SessionInv.goes h hsame ?_ ?_ (.inl hsession) ?_ (fun j hj _ => .inl hj) fun hbusy => ?_
  · intro j hj
    rw [hsession] at hj
    exact (Option.some.inj hj).symm
  · rw [hnone]
    exact fun _ hi => by cases hi
  · rw [hpc]
    simp
  · rw [hnone] at hbusy
    cases hbusy

theorem inv_dump {ref : FlowRef} {k : Saver} (h : ∀ i, SessionInv co s i)
    (hpc : s.pc t = .dump id ref k) :
    ∀ i, SessionInv co (s.run rt co t env (.dump id ref k)).2 i := by
  have hsession : (s.pc t).session = some id := by rw [hpc]; rfl
  have hthread := (h id).thread t hsession
  rw [hpc] at hthread
  unfold run
  dsimp only
  cases hfree : s.saveLock with
  | some u => exact h
  | none =>
      dsimp only
      generalize hs' : ({ s with saveLock := some t } : SessionService).goto t
        (.write id ref (s.heap ref).state k) = s'
      have hself : s'.pc t = .write id ref (s.heap ref).state k := by
        rw [← hs']
        exact pc_goto_self
      have hsame : SameData s s' id t := by
        rw [← hs']
        exact { @sameData_goto s id t (.write id ref (s.heap ref).state k) with
          saveLock := fun u _ hu => by rw [hfree] at hu; cases hu }
      refine SessionInv.goes h hsame ?_ ?_ (.inl hsession) ?_ ?_ fun _ => ?_
      · intro j hj
        rw [hsession] at hj
        exact (Option.some.inj hj).symm
      · rw [hself]
        exact fun _ hi => (Option.some.inj hi).symm
      · rw [hpc]
        simp
      · rw [← hs']
        exact fun j hj _ => .inl hj
      · constructor
        case named => exact hsame.kept.named hthread.named
        case shown => exact hthread.shown rfl
        case creates => rw [hself]; rfl
        case owned => rw [hself]; exact hthread.owned
        case locks =>
          rw [hself, hpc]
          exact fun _ hl => .inl ⟨rfl, hl⟩
        case holds =>
          rw [hself, ← hs']
          exact hthread.holds
        case saves =>
          rw [← hs']
          exact fun _ => rfl
        case safe =>
          rw [hself]
          intro halive hs
          have hdump := hs.pc t hsession
          rw [hpc] at hdump
          rcases hdump with ⟨live, hlive, hk⟩
          have hentries : (s.heap ref).storedEntries = live := by
            cases hflow : s.flows.get? id with
            | none =>
                rw [view, hflow] at hlive
                cases hlive
            | some r =>
                rw [view_flow hflow] at hlive
                cases hlive
                rfl
          rw [AuditFlow.storedEntries] at hentries
          refine ⟨live, hlive, ?_, ?_, ?_⟩
          · rw [hentries]
          · rw [hentries]
            exact hk
          · rw [hentries]
            exact fun trail htrail => hs.continues ref live trail hlive htrail
        case harmless =>
          rw [hself]
          intro _ hs
          have hdump := hs.pc t hsession
          rw [hpc] at hdump
          exact hdump

theorem inv_submit {q : Phase} {k : Saver} (h : ∀ i, SessionInv co s i)
    (hpc : s.pc t = .submit id q k) :
    ∀ i, SessionInv co (s.run rt co t env (.submit id q k)).2 i := by
  have hsession : (s.pc t).session = some id := by rw [hpc]; rfl
  have hthread := (h id).thread t hsession
  rw [hpc] at hthread
  have hshown := hthread.shown rfl
  show ∀ i, SessionInv co (({ s with jobs := s.jobs ++ [(id, q)] } : SessionService).goto t
    (k.done id)) i
  generalize hs' : ({ s with jobs := s.jobs ++ [(id, q)] } : SessionService).goto t (k.done id) = s'
  have hself : s'.pc t = k.done id := by
    rw [← hs']
    exact pc_goto_self
  have hsame : SameData s s' id t := by
    rw [← hs']
    exact { @sameData_goto s id t (k.done id) with
      jobs := fun j hj hji => by
        rcases List.mem_append.mp hj with hj | hj
        · exact hj
        · rw [List.mem_singleton.mp hj] at hji
          exact absurd rfl hji }
  have hsafe : s.Alive id → s.SessionSafe id → (ServicePc.submit id q k).Safe (s.view id) := by
    intro _ hs
    have hsubmit := hs.pc t hsession
    rw [hpc] at hsubmit
    exact hsubmit
  refine SessionInv.goes h hsame ?_ ?_ (.inl hsession) ?_ ?_ fun hbusy => ?_
  · intro j hj
    rw [hsession] at hj
    exact (Option.some.inj hj).symm
  · rw [hself]
    intro i hi
    cases k <;> first | exact (Option.some.inj hi).symm | cases hi
  · rw [hpc]
    simp
  · rw [← hs']
    intro j hj hji
    rcases List.mem_append.mp hj with hj | hj
    · exact .inl hj
    · exact .inr ⟨hthread.named, hshown, fun halive => (hsafe halive ((h id).safe halive)).1⟩
  · rw [hself] at hbusy
    cases k with
    | create => cases hbusy
    | phase => cases hbusy
    | action a lock trail =>
        constructor
        case named => exact hsame.kept.named hthread.named
        case shown => exact hshown
        case creates => rw [hself]; rfl
        case owned =>
          rw [hself]
          exact fun _ href => by cases href
        case locks =>
          rw [hself, hpc]
          exact fun _ hl => .inl ⟨rfl, hl⟩
        case holds =>
          rw [hself, ← hs']
          exact hthread.holds
        case saves =>
          rw [hself]
          exact fun hfalse => by cases hfalse
        case safe =>
          rw [hself]
          exact fun halive hs => (hsafe halive hs).2
        case harmless =>
          rw [hself]
          intro _ hs
          have hsubmit := hs.pc t hsession
          rw [hpc] at hsubmit
          cases hsubmit

theorem inv_request (h : ∀ i, SessionInv co s i) (hp : p.session = some id)
    (hcreates : p.creates = false) (hsaves : p.saves = false) (hlocks : p.locks = none)
    (href : p.flowRef = none) (hsafe : ∀ v, p.Safe v) (hharmless : ∀ v, p.Harmless v) :
    ∀ i, SessionInv co (s.request t id p).2 i := by
  unfold request
  cases hidle : s.pc t with
  | idle =>
      dsimp only
      split
      case isFalse => exact h
      case isTrue hname =>
        generalize hs' : ({ s with named := id :: s.named } : SessionService).goto t p = s'
        have hself : s'.pc t = p := by
          rw [← hs']
          exact pc_goto_self
        have hsame : SameData s s' id t := by
          rw [← hs']
          exact { @sameData_goto s id t p with
            named := fun i => by
              show i ∈ id :: s.named ↔ i ∈ s.named ∨ i = id ∧ id ∈ id :: s.named
              rw [List.mem_cons]
              exact ⟨fun hi => hi.elim (fun hi => .inr ⟨hi, List.mem_cons_self⟩) .inl,
                fun hi => hi.elim .inr fun hi => .inl hi.1⟩ }
        refine SessionInv.goes h hsame ?_ ?_ (.inr hname) ?_ ?_ fun _ => ?_
        · rw [hidle]
          exact fun _ hi => by cases hi
        · rw [hself, hp]
          exact fun _ hi => (Option.some.inj hi).symm
        · rw [hidle]
          exact ServicePc.noConfusion
        · rw [← hs']
          exact fun j hj _ => .inl hj
        · constructor
          case named =>
            rw [← hs']
            exact List.mem_cons_self
          case shown => exact fun hissued => hname.resolve_right fun hnot => hnot hissued
          case creates => rw [hself]; exact hcreates
          case owned =>
            rw [hself, href]
            exact fun _ hr => by cases hr
          case locks =>
            rw [hself, hlocks]
            exact fun _ hl => by cases hl
          case holds =>
            rw [hself]
            intro lock hl
            rw [ServicePc.locks_of_holds hl] at hlocks
            cases hlocks
          case saves =>
            rw [hself, hsaves]
            exact fun hfalse => by cases hfalse
          case safe =>
            rw [hself]
            exact fun _ _ => hsafe _
          case harmless =>
            rw [hself]
            exact fun _ _ => hharmless _
  | _ => exact h

theorem inv_job (h : ∀ i, SessionInv co s i) : ∀ i, SessionInv co (s.job t).2 i := by
  unfold job
  split
  case h_2 => exact h
  case h_1 id q jobs hidle hjobs =>
    dsimp only
    generalize hs' : ({ s with jobs := jobs } : SessionService).goto t (.get id (.phase q)) = s'
    have hself : s'.pc t = .get id (.phase q) := by
      rw [← hs']
      exact pc_goto_self
    have hmem : ∀ j ∈ s'.jobs, j ∈ s.jobs := by
      rw [← hs', hjobs]
      exact fun j hj => List.mem_cons_of_mem _ hj
    have hjob := (h id).jobs (id, q) (by rw [hjobs]; exact List.mem_cons_self) rfl
    have hsame : SameData s s' id t := by
      rw [← hs']
      exact { @sameData_goto s id t (.get id (.phase q)) with
        jobs := fun j hj _ => hmem j (hs' ▸ hj) }
    refine SessionInv.goes h hsame ?_ ?_ (.inr ?_) ?_ (fun j hj _ => .inl (hmem j hj)) fun _ => ?_
    · rw [hidle]
      exact fun _ hi => by cases hi
    · rw [hself]
      exact fun _ hi => (Option.some.inj hi).symm
    · by_cases hissued : id ∈ s.issued
      · exact .inl (hjob.2 hissued)
      · exact .inr hissued
    · rw [hidle]
      exact ServicePc.noConfusion
    · constructor
      case named => exact hsame.kept.named hjob.1
      case shown => exact hjob.2
      case creates => rw [hself]; rfl
      case owned =>
        rw [hself]
        exact fun _ href => by cases href
      case locks =>
        rw [hself]
        exact fun _ hl => by cases hl
      case holds =>
        rw [hself]
        exact fun _ hl => by cases hl
      case saves =>
        rw [hself]
        exact fun hfalse => by cases hfalse
      case safe =>
        rw [hself]
        exact fun _ hs => hs.jobs (id, q) (by rw [hjobs]; exact List.mem_cons_self) rfl
      case harmless =>
        rw [hself]
        exact fun _ _ => trivial

end SessionService

end AuditSwarm
