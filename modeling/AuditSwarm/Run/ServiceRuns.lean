import AuditSwarm.Run.ServiceStore

/-!
# The invariant of the service

Every step of every run keeps what holds of every session.
-/

namespace AuditSwarm

open Python

namespace SessionService

variable {rt : Runtime} {co : Coercions} {s s' : SessionService} {id : Str} {t : ThreadId}
  {env : Env} {p p₀ : ServicePc} {lock : ActionLock}

/-! ## New sessions, and a new process -/

/-- An id that nobody has named belongs to no session. -/
structure Unused (s : SessionService) (id : Str) : Prop where
  store : s.store.get? id = none
  flows : s.flows.get? id = none
  discards : s.discards id = 0
  jobs : ∀ j ∈ s.jobs, j.1 ≠ id
  pc : ∀ t, (s.pc t).session ≠ some id

theorem SessionInv.unused (h : SessionInv co s id) (hnamed : id ∉ s.named) : Unused s id where
  store := by
    by_contra hne
    exact hnamed (h.issued_named (h.shown_issued (h.stored_shown (contains_iff.mpr hne))))
  flows := by
    cases hflow : s.flows.get? id with
    | none => rfl
    | some ref => exact absurd (h.flow ref hflow).1 hnamed
  discards := by
    by_contra hne
    exact hnamed (h.discards hne)
  jobs j hj hji := hnamed (h.jobs j hj hji).1
  pc t ht := hnamed (h.thread t ht).named

/-- The process after an id is issued to a thread that goes on to `p`. -/
def issue (s : SessionService) (t : ThreadId) (id : Str) (p : ServicePc) : SessionService :=
  ({ s with issued := id :: s.issued, named := id :: s.named } : SessionService).goto t p

/-- Where a thread goes on that was given an id: it registers the new flow, or answers. -/
def Issuing (id : Str) (p : ServicePc) : Prop :=
  p = .idle ∨ ∃ f name createdAt, p = .register id f name createdAt

theorem Issuing.session (h : Issuing id p) : ∀ i, p.session = some i → i = id := by
  rcases h with rfl | ⟨f, name, createdAt, rfl⟩
  · exact fun _ hi => by cases hi
  · exact eq_of_session rfl

theorem locally_issue : Locally s (s.issue t id p) id t :=
  { @locally_goto s id t p with
    owned := fun _ _ h => ⟨h.allocated, h.session⟩
    issued := fun _ hj => List.mem_cons.trans (or_iff_right hj)
    named := fun _ hj => List.mem_cons.trans (or_iff_right hj) }

/-- The only thread that can be busy with a new id is the one it was issued to. -/
theorem Unused.thread_issue (h : Unused s id) (hp : Issuing id p) {u : ThreadId}
    (hu : ((s.issue t id p).pc u).session = some id) :
    u = t ∧ ∃ f name createdAt, (s.issue t id p).pc u = .register id f name createdAt := by
  have hself : (s.issue t id p).pc t = p := pc_goto_self
  by_cases hut : u = t
  · refine ⟨hut, ?_⟩
    rw [hut, hself] at hu ⊢
    rcases hp with rfl | ⟨f, name, createdAt, rfl⟩
    · cases hu
    · exact ⟨f, name, createdAt, rfl⟩
  · have hother : (s.issue t id p).pc u = s.pc u := locally_issue.pc u hut
    rw [hother] at hu
    exact absurd hu (h.pc u)

theorem Unused.view_issue (h : Unused s id) : ((s.issue t id p).view id).flow = none := by
  show (s.flows.get? id).map _ = none
  rw [h.flows]
  rfl

theorem Unused.safe_issue (h : Unused s id) (hp : Issuing id p) :
    (s.issue t id p).SessionSafe id := by
  constructor
  case discards => exact h.discards
  case continues =>
    rw [h.view_issue]
    exact fun _ _ _ hfalse => by cases hfalse
  case jobs => exact fun j hj hji => absurd hji (h.jobs j hj)
  case locks =>
    intro u hu
    rcases h.thread_issue hp hu with ⟨-, f, name, createdAt, hpc⟩
    rw [hpc]
    exact fun _ hl => by cases hl
  case pc =>
    intro u hu
    rcases h.thread_issue hp hu with ⟨-, f, name, createdAt, hpc⟩
    rw [hpc]
    exact h.view_issue

theorem Unused.inv_issue (h : Unused s id) (hnotshown : id ∉ s.shown) (hp : Issuing id p) :
    SessionInv co (s.issue t id p) id := by
  have hissued : id ∈ (s.issue t id p).issued := List.mem_cons_self
  have hnamed : id ∈ (s.issue t id p).named := List.mem_cons_self
  constructor
  case shown_issued => exact fun _ => hissued
  case issued_named => exact fun _ => hnamed
  case stored_shown => exact fun hc => absurd h.store (contains_iff.mp hc)
  case entry =>
    intro entry hentry
    cases h.store.symm.trans hentry
  case flow =>
    intro ref href
    cases h.flows.symm.trans href
  case discards => exact fun _ => hnamed
  case jobs => exact fun j hj hji => absurd hji (h.jobs j hj)
  case thread =>
    intro u hu
    rcases h.thread_issue hp hu with ⟨hut, f, name, createdAt, hpc⟩
    rw [hpc]
    constructor
    case named => exact hnamed
    case shown => exact fun hfalse => by cases hfalse
    case creates =>
      refine fun _ => ⟨hissued, hnotshown, fun w hw => ?_⟩
      rw [hut]
      exact (h.thread_issue hp hw).1
    case owned => exact fun _ hr => by cases hr
    case locks => exact fun _ hl => by cases hl
    case holds => exact fun _ hl => by cases hl
    case saves => exact fun hfalse => by cases hfalse
  case safe => exact fun _ => h.safe_issue hp
  case gone => exact fun hgone => absurd ⟨hissued, fun hs => absurd hs hnotshown⟩ hgone

theorem inv_issued (h : ∀ i, SessionInv co s i) (hnamed : id ∉ s.named)
    (hidle : (s.pc t).session = none) (hp : Issuing id p) :
    ∀ i, SessionInv co (s.issue t id p) i := by
  have hnotshown : id ∉ s.shown := fun hshown =>
    hnamed ((h id).issued_named ((h id).shown_issued hshown))
  have hself : (s.issue t id p).pc t = p := pc_goto_self
  refine inv_of_own h locally_issue ?_ ?_ (((h id).unused hnamed).inv_issue hnotshown hp)
  · rw [hidle]
    exact fun _ heq => by cases heq
  · rw [hself]
    exact hp.session

theorem inv_create {req : CreateRequest} (h : ∀ i, SessionInv co s i) :
    ∀ i, SessionInv co (s.create rt t env id req).2 i := by
  unfold create
  cases hidle : s.pc t with
  | idle =>
      dsimp only
      have hnone : (s.pc t).session = none := by rw [hidle]; rfl
      split
      case isTrue => exact h
      case isFalse hnamed =>
        cases newFlow rt env req with
        | ok f => exact inv_issued h hnamed hnone (.inr ⟨_, _, _, rfl⟩)
        | error e =>
            have hissued := inv_issued (t := t) h hnamed hnone (.inl rfl)
            have hpcs : (fun u => if u = t then ServicePc.idle else s.pc u) = s.pc := by
              funext u
              by_cases hut : u = t
              · rw [if_pos hut, hut, hidle]
              · rw [if_neg hut]
            unfold issue goto at hissued
            dsimp only at hissued
            rw [hpcs] at hissued
            exact hissued
  | _ => exact h

theorem inv_restarted (h : ∀ i, SessionInv co s i) (i : Str) : SessionInv co s.restarted i := by
  have hinv := h i
  have hidle : ∀ u, (s.restarted.pc u).session ≠ some i := fun u hu => by cases hu
  have hflow : (s.restarted.view i).flow = none := rfl
  constructor
  case shown_issued => exact hinv.shown_issued
  case issued_named => exact hinv.issued_named
  case stored_shown => exact hinv.stored_shown
  case entry => exact hinv.entry
  case flow => exact fun _ hr => by cases hr
  case discards => exact fun hne => absurd rfl hne
  case jobs => exact fun _ hj => absurd hj List.not_mem_nil
  case thread => exact fun u hu => absurd hu (hidle u)
  case safe =>
    intro _
    constructor
    case discards => rfl
    case continues => exact fun _ _ _ hfalse => by cases hfalse
    case jobs => exact fun _ hj => absurd hj List.not_mem_nil
    case locks => exact fun u hu => absurd hu (hidle u)
    case pc => exact fun u hu => absurd hu (hidle u)
  case gone =>
    intro _
    constructor
    case dropping => exact fun hne => absurd hflow hne
    case discards => exact fun _ => rfl
    case locks => exact fun hne => absurd hflow hne
    case pc => exact fun u hu => absurd hu (hidle u)

/-! ## Any step, any run -/

theorem inv_run (h : ∀ i, SessionInv co s i) :
    ∀ i, SessionInv co (s.run rt co t env (s.pc t)).2 i := by
  cases hpc : s.pc t with
  | idle => exact h
  | register id flow name createdAt => exact inv_register h hpc
  | put id ref name createdAt => exact inv_put h hpc
  | require id a => exact inv_require h hpc
  | lock id u => exact inv_lock h hpc
  | wait id u lock => exact inv_wait h hpc
  | get id u => exact inv_get h hpc
  | load id u => exact inv_load h hpc
  | set id u flow => exact inv_set h hpc
  | act id a lock ref => exact inv_act h hpc
  | phase id p ref => exact inv_phase h hpc
  | dump id ref k => exact inv_dump h hpc
  | write id ref snapshot k => exact inv_write h hpc
  | submit id p k => exact inv_submit h hpc
  | read id lock => exact inv_read h hpc
  | check id lock data => exact inv_check h hpc
  | drop id lock => exact inv_drop h hpc
  | remove id lock => exact inv_remove h hpc
  | discard id lock => exact inv_discard h hpc
  | leave id lock answer => exact inv_leave h hpc

theorem inv_step (l : ServiceLabel) (h : ∀ i, SessionInv co s i) :
    ∀ i, SessionInv co (s.step rt co l).2 i := by
  cases l with
  | create t env id req => exact inv_create h
  | action t id a =>
      exact inv_request h rfl rfl rfl rfl rfl (fun _ => trivial) fun _ => trivial
  | delete t id =>
      exact inv_request h rfl rfl rfl rfl rfl (fun _ => trivial) fun _ => trivial
  | job t => exact inv_job h
  | run t env => exact inv_run h
  | assign t w =>
      unfold step assign
      dsimp only
      cases hpc : s.pc t with
      | phase id q ref => exact inv_assign h hpc
      | _ => exact h
  | fail t =>
      unfold step fail
      dsimp only
      cases hpc : s.pc t with
      | phase id q ref => exact inv_fail h hpc
      | _ => exact h
  | restart => exact inv_restarted h

theorem inv_initial (i : Str) : SessionInv co initial i := by
  have hidle : ∀ u, (initial.pc u).session ≠ some i := fun u hu => by cases hu
  constructor
  case shown_issued => exact fun hshown => absurd hshown List.not_mem_nil
  case issued_named => exact fun hissued => absurd hissued List.not_mem_nil
  case stored_shown => exact fun hstored => by cases hstored
  case entry => exact fun _ he => by cases he
  case flow => exact fun _ hr => by cases hr
  case discards => exact fun hne => absurd rfl hne
  case jobs => exact fun _ hj => absurd hj List.not_mem_nil
  case thread => exact fun u hu => absurd hu (hidle u)
  case safe => exact fun halive => absurd halive.1 List.not_mem_nil
  case gone =>
    intro _
    constructor
    case dropping => exact fun hne => absurd rfl hne
    case discards => exact fun _ => rfl
    case locks => exact fun hne => absurd rfl hne
    case pc => exact fun u hu => absurd hu (hidle u)

theorem inv_after (labels : List ServiceLabel) (i : Str) :
    SessionInv co (after rt co labels) i :=
  LabelledRun.invariant' (step rt co) (I := fun s => ∀ i, SessionInv co s i)
    (fun _ l h => inv_step l h) labels (fun i => inv_initial i) i

end SessionService

end AuditSwarm
