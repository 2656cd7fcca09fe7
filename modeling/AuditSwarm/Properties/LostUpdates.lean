import AuditSwarm.Properties.Restart
import AuditSwarm.Run.ServiceRuns

/-!
# No update is lost

Requests, phase threads and deletions, in whatever order their steps come, and whatever restarts
come between them.
-/

namespace AuditSwarm

open Python

namespace SessionService

variable {rt : Runtime} {co : Coercions} {s : SessionService} {id : Str} {t : ThreadId} {env : Env}

/-! ## What a step does to the stored sessions -/

/-- Every step: it leaves the stored sessions alone, or one thread stores something of its session,
deletes it, or answers its request. -/
inductive StoreStep (co : Coercions) (s : SessionService) : ServiceResult × SessionService → Prop
  | same {r : ServiceResult} {s' : SessionService} (hr : ∀ id trail, r ≠ .acknowledged id trail)
      (h : s'.store = s.store) (hshown : s'.shown = s.shown) : StoreStep co s (r, s')
  | answered {s' : SessionService} (t : ThreadId) (id : Str) (lock : ActionLock)
      (trail : List StrEntry) (hpc : s.pc t = .leave id lock (some trail))
      (h : s'.store = s.store) (hshown : s'.shown = s.shown) :
      StoreStep co s (.acknowledged id trail, s')
  | put {s' : SessionService} (t : ThreadId) (id : Str) (ref : FlowRef) (name createdAt : Str)
      (entry : Dict Str Json) (hpc : s.pc t = .put id ref name createdAt)
      (h : s'.store = s.store.set id entry) (hshown : s'.shown = id :: s.shown) :
      StoreStep co s (.ran, s')
  | write {s' : SessionService} (t : ThreadId) (id : Str) (ref : FlowRef) (snapshot : AuditState)
      (k : Saver) (entry : Dict Str Json) (hpc : s.pc t = .write id ref snapshot k)
      (hget : s.store.get? id = some entry)
      (h : s'.store = s.store.set id (entry.update (FlowRepository.sessionFields co snapshot)))
      (hshown : s'.shown = s.shown) : StoreStep co s (.ran, s')
  | drop {s' : SessionService} (t : ThreadId) (id : Str) (lock : ActionLock)
      (hpc : s.pc t = .drop id lock) (h : s'.store = s.store.without id)
      (hshown : s'.shown = s.shown) : StoreStep co s (.ran, s')

theorem storeStep_ran {s' : SessionService} (h : s'.store = s.store) (hshown : s'.shown = s.shown) :
    StoreStep co s (.ran, s') := .same (fun _ _ hr => by cases hr) h hshown

theorem storeStep_blocked : StoreStep co s s.blocked := .same (fun _ _ hr => by cases hr) rfl rfl

theorem storeStep_acquire {lock : ActionLock} {p : ServicePc} :
    StoreStep co s (s.acquire t lock p) := by
  unfold acquire
  cases s.actionLocks lock with
  | none => exact storeStep_ran rfl rfl
  | some u => exact storeStep_blocked

theorem storeStep_run : StoreStep co s (s.run rt co t env (s.pc t)) := by
  cases hpc : s.pc t with
  | idle => exact storeStep_blocked
  | put id ref name createdAt => exact .put t id ref name createdAt _ hpc rfl rfl
  | require id a =>
      unfold run
      dsimp only
      split <;> exact storeStep_ran rfl rfl
  | wait id u lock => cases u <;> exact storeStep_acquire
  | get id u =>
      unfold run
      dsimp only
      cases s.flows.get? id <;> exact storeStep_ran rfl rfl
  | load id u =>
      unfold run
      dsimp only
      split <;> exact storeStep_ran rfl rfl
  | act id a lock ref =>
      unfold run
      dsimp only
      rcases AuditFlow.act rt env a.recorded (s.heap ref) with ⟨r, f⟩
      cases r <;> exact storeStep_ran rfl rfl
  | dump id ref k =>
      unfold run
      dsimp only
      cases s.saveLock with
      | none => exact storeStep_ran rfl rfl
      | some u => exact storeStep_blocked
  | write id ref snapshot k =>
      unfold run FlowRepository.updateSession
      dsimp only
      cases hget : s.store.get? id with
      | none => exact storeStep_ran rfl rfl
      | some entry => exact .write t id ref snapshot k entry hpc hget rfl rfl
  | check id lock data =>
      unfold run
      dsimp only
      rcases data with _ | _ | ⟨kv, rest⟩
      · exact storeStep_ran rfl rfl
      · exact storeStep_ran rfl rfl
      · dsimp only
        split <;> exact storeStep_ran rfl rfl
  | drop id lock => exact .drop t id lock hpc rfl rfl
  | leave id lock answer =>
      cases answer with
      | none => exact storeStep_ran rfl rfl
      | some trail => exact .answered t id lock trail hpc rfl rfl
  | _ => exact storeStep_ran rfl rfl

theorem storeStep_request {p : ServicePc} : StoreStep co s (s.request t id p) := by
  unfold request
  cases s.pc t with
  | idle =>
      dsimp only
      split
      · exact storeStep_ran rfl rfl
      · exact storeStep_blocked
  | _ => exact storeStep_blocked

theorem storeStep_step (l : ServiceLabel) : StoreStep co s (s.step rt co l) := by
  cases l with
  | create t env id req =>
      unfold step create
      dsimp only
      cases s.pc t with
      | idle =>
          dsimp only
          split
          · exact storeStep_blocked
          · cases newFlow rt env req <;> exact storeStep_ran rfl rfl
      | _ => exact storeStep_blocked
  | action t id a => exact storeStep_request
  | delete t id => exact storeStep_request
  | job t =>
      unfold step job
      dsimp only
      split
      · exact storeStep_ran rfl rfl
      · exact storeStep_blocked
  | run t env => exact storeStep_run
  | assign t w =>
      unfold step assign
      dsimp only
      cases s.pc t with
      | phase id p ref => exact storeStep_ran rfl rfl
      | _ => exact storeStep_blocked
  | fail t =>
      unfold step fail
      dsimp only
      cases s.pc t with
      | phase id p ref => exact storeStep_ran rfl rfl
      | _ => exact storeStep_blocked
  | restart => exact storeStep_ran rfl rfl

/-! ## Of one session -/

theorem persistedTrail_of_get? {entry : Dict Str Json} (h : s.store.get? id = some entry) :
    s.persistedTrail id = storedTrail (storedSnapshot entry) := by
  unfold persistedTrail Dict.getD
  rw [h]
  rfl

theorem persistedTrail_eq {trail : List Json} (h : (s.view id).stored = some trail) :
    s.persistedTrail id = trail := by
  cases hget : s.store.get? id with
  | none =>
      rw [view, hget] at h
      cases h
  | some entry =>
      rw [view_stored hget] at h
      rw [persistedTrail_of_get? hget, Option.some.inj h]

/-- What a step does to a stored session: it is kept, with a trail that continues the one it had,
unless no gate of it was approved. -/
theorem kept_or_dropped (h : ∀ i, SessionInv co s i) (l : ServiceLabel)
    (hstored : s.store.contains id = true) :
    ((s.step rt co l).2.store.contains id = true ∧
      s.persistedTrail id <+: (s.step rt co l).2.persistedTrail id) ∨
    ((s.step rt co l).2.store.contains id = false ∧
      (s.persistedTrail id).any isGateApproval = false) := by
  have hstep := @storeStep_step rt co s l
  generalize s.step rt co l = x at hstep ⊢
  have hsame : ∀ s' : SessionService, s'.store.get? id = s.store.get? id →
      s'.store.contains id = true ∧ s.persistedTrail id <+: s'.persistedTrail id := by
    intro s' hget
    refine ⟨contains_iff.mpr ?_, ?_⟩
    · rw [hget]
      exact contains_iff.mp hstored
    · unfold persistedTrail Dict.getD
      rw [hget]
  have hshown := (h id).stored_shown hstored
  have halive : s.Alive id := ⟨(h id).shown_issued hshown, fun _ => hstored⟩
  cases hstep with
  | same hr hstore => exact .inl (hsame _ (by rw [hstore]))
  | answered t i lock trail hpc hstore => exact .inl (hsame _ (by rw [hstore]))
  | put t i ref name createdAt entry hpc hstore =>
      have hnew := ((h i).thread t (by rw [hpc]; rfl)).creates (by rw [hpc]; rfl)
      have hne : id ≠ i := by
        rintro rfl
        exact hnew.2.1 hshown
      exact .inl (hsame _ (by rw [hstore, Dict.get?_set_of_ne _ _ hne]))
  | @write s' t i ref snapshot k entry hpc hget hstore =>
      by_cases hi : id = i
      · subst hi
        have hwrite := ((h id).safe halive).pc t (by rw [hpc]; rfl)
        rw [hpc] at hwrite
        rcases hwrite with ⟨live, -, -, -, hold⟩
        have hget' : s'.store.get? id =
            some (entry.update (FlowRepository.sessionFields co snapshot)) := by
          rw [hstore]
          exact Dict.get?_set_self _ _ _
        refine .inl ⟨contains_iff.mpr ?_, ?_⟩
        · rw [hget']
          exact Option.some_ne_none _
        · rw [persistedTrail_of_get? hget', (saved_entry entry snapshot).stored,
            persistedTrail_of_get? hget]
          exact hold _ (view_stored hget)
      · exact .inl (hsame _ (by rw [hstore, Dict.get?_set_of_ne _ _ hi]))
  | @drop s' t i lock hpc hstore =>
      by_cases hi : id = i
      · subst hi
        have hdrop := ((h id).safe halive).pc t (by rw [hpc]; rfl)
        rw [hpc] at hdrop
        refine .inr ⟨?_, ?_⟩
        · cases hc : s'.store.contains id with
          | false => rfl
          | true =>
              have hne := contains_iff.mp hc
              rw [hstore, Dict.get?_without_self] at hne
              exact absurd rfl hne
        · cases hget : s.store.get? id with
          | none => exact absurd hget (contains_iff.mp hstored)
          | some entry =>
              rw [persistedTrail_of_get? hget]
              exact hdrop.1 _ (view_stored hget)
      · exact .inl (hsame _ (by rw [hstore, Dict.get?_without_of_ne _ hi]))

def Deleted (s : SessionService) (id : Str) : Prop :=
  id ∈ s.shown ∧ s.store.contains id = false

theorem shown_step (l : ServiceLabel) (hshown : id ∈ s.shown) :
    id ∈ (s.step rt co l).2.shown := by
  have hstep := @storeStep_step rt co s l
  generalize s.step rt co l = x at hstep ⊢
  cases hstep with
  | put t i ref name createdAt entry hpc hstore hadded =>
      rw [hadded]
      exact List.mem_cons_of_mem _ hshown
  | same hr hstore hsame => exact hsame ▸ hshown
  | answered t i lock trail hpc hstore hsame => exact hsame ▸ hshown
  | write t i ref snapshot k entry hpc hget hstore hsame => exact hsame ▸ hshown
  | drop t i lock hpc hstore hsame => exact hsame ▸ hshown

theorem deleted_step (h : ∀ i, SessionInv co s i) (l : ServiceLabel) (hdel : s.Deleted id) :
    (s.step rt co l).2.Deleted id := by
  refine ⟨shown_step l hdel.1, ?_⟩
  have hstep := @storeStep_step rt co s l
  generalize s.step rt co l = x at hstep ⊢
  have hnone : s.store.get? id = none := by
    by_contra hne
    have hcontains := hdel.2
    rw [contains_iff.mpr hne] at hcontains
    cases hcontains
  have hsame : ∀ s' : SessionService, s'.store.get? id = none →
      s'.store.contains id = false := by
    intro s' hget
    unfold Dict.contains
    rw [hget]
    rfl
  cases hstep with
  | same hr hstore => exact hsame _ (by rw [hstore]; exact hnone)
  | answered t i lock trail hpc hstore => exact hsame _ (by rw [hstore]; exact hnone)
  | put t i ref name createdAt entry hpc hstore =>
      have hnew := ((h i).thread t (by rw [hpc]; rfl)).creates (by rw [hpc]; rfl)
      have hne : id ≠ i := by
        rintro rfl
        exact hnew.2.1 hdel.1
      exact hsame _ (by rw [hstore, Dict.get?_set_of_ne _ _ hne]; exact hnone)
  | write t i ref snapshot k entry hpc hget hstore =>
      have hne : id ≠ i := by
        rintro rfl
        rw [hnone] at hget
        cases hget
      exact hsame _ (by rw [hstore, Dict.get?_set_of_ne _ _ hne]; exact hnone)
  | drop t i lock hpc hstore =>
      by_cases hi : id = i
      · exact hsame _ (by rw [hstore, hi]; exact Dict.get?_without_self _ _)
      · exact hsame _ (by rw [hstore, Dict.get?_without_of_ne _ hi]; exact hnone)

/-! ## Runs -/

theorem after_append (labels more : List ServiceLabel) :
    after rt co (labels ++ more) = LabelledRun.final (step rt co) (after rt co labels) more :=
  LabelledRun.final_append (step rt co) initial labels more

/-- Whatever follows, a stored session is kept with a trail that continues the one it has, or it is
deleted, which no gate of it was approved by. -/
theorem kept_since (labels more : List ServiceLabel)
    (hstored : (after rt co labels).store.contains id = true) :
    ((after rt co (labels ++ more)).store.contains id = true ∧
      (after rt co labels).persistedTrail id <+:
        (after rt co (labels ++ more)).persistedTrail id) ∨
    ((after rt co (labels ++ more)).Deleted id ∧
      ((after rt co labels).persistedTrail id).any isGateApproval = false) := by
  induction more using List.reverseRecOn with
  | nil =>
      rw [List.append_nil]
      exact .inl ⟨hstored, List.prefix_refl _⟩
  | append_singleton more l ih =>
      rw [← List.append_assoc, after_append (labels ++ more) [l]]
      have hinv := @inv_after rt co (labels ++ more)
      show ((step rt co (after rt co (labels ++ more)) l).2.store.contains id = true ∧ _) ∨
        (Deleted (step rt co (after rt co (labels ++ more)) l).2 id ∧ _)
      rcases ih with ⟨hkept, hgrown⟩ | ⟨hdel, hno⟩
      · rcases @kept_or_dropped rt co _ id hinv l hkept with ⟨hkept', hgrown'⟩ | ⟨hdrop, hno⟩
        · exact .inl ⟨hkept', hgrown.trans hgrown'⟩
        · refine .inr ⟨⟨shown_step l ((hinv id).stored_shown hkept), hdrop⟩, ?_⟩
          rw [List.any_eq_false] at hno ⊢
          exact fun e he => hno e (hgrown.subset he)
      · exact .inr ⟨deleted_step hinv l hdel, hno⟩

theorem deleted_since (labels more : List ServiceLabel) (hdel : (after rt co labels).Deleted id) :
    (after rt co (labels ++ more)).Deleted id := by
  rw [after_append]
  refine (LabelledRun.invariant' (step rt co)
    (I := fun s => (∀ i, SessionInv co s i) ∧ s.Deleted id) (fun s l hs => ?_) more
    ⟨inv_after labels, hdel⟩).2
  exact ⟨inv_step l hs.1, deleted_step hs.1 l hs.2⟩

/-- What the threads have done to a session between two points of a run. -/
structure NoUpdateLost (rt : Runtime) (co : Coercions) (labels more : List ServiceLabel)
    (id : Str) : Prop where
  /-- The trail that is stored continues the one that was. -/
  continues : (after rt co labels).store.contains id = true →
    (after rt co (labels ++ more)).store.contains id = true →
      (after rt co labels).persistedTrail id <+: (after rt co (labels ++ more)).persistedTrail id
  /-- What was deleted in between does not come back. -/
  deleted : ∀ before since, labels = before ++ since →
    (after rt co before).store.contains id = true →
      (after rt co labels).store.contains id = false →
        (after rt co (labels ++ more)).store.contains id = false
  /-- A session with an approved gate is not deleted. -/
  approved : (after rt co labels).store.contains id = true →
    ((after rt co labels).persistedTrail id).any isGateApproval = true →
      (after rt co (labels ++ more)).store.contains id = true

/-- No update is lost: in every run, with any interleaving of the requests that create, change and
delete sessions and of the threads that run their phases, restarts included, the stored trail of
every session only grows, a session that was deleted does not come back, and one that has an
approved gate is never deleted. -/
theorem lose_no_update (rt : Runtime) (co : Coercions) (labels more : List ServiceLabel)
    (id : Str) : NoUpdateLost rt co labels more id := by
  constructor
  · intro hstored hafter
    rcases kept_since labels more hstored with ⟨-, hgrown⟩ | ⟨hdel, -⟩
    · exact hgrown
    · rw [hdel.2] at hafter
      cases hafter
  · rintro before since rfl hstored hgone
    rcases kept_since before since hstored with ⟨hkept, -⟩ | ⟨hdel, -⟩
    · rw [hgone] at hkept
      cases hkept
    · exact (deleted_since _ more hdel).2
  · intro hstored happroved
    rcases kept_since labels more hstored with ⟨hkept, -⟩ | ⟨-, hno⟩
    · exact hkept
    · rw [happroved] at hno
      cases hno

/-! ## What a request was answered -/

theorem acknowledged_step {l : ServiceLabel} {trail : List StrEntry} (h : ∀ i, SessionInv co s i)
    (hres : (s.step rt co l).1 = .acknowledged id trail) :
    (s.step rt co l).2.store = s.store ∧ s.store.contains id = true ∧
      trail.map storedEntry <+: s.persistedTrail id := by
  have hleave : ∃ t lock, s.pc t = .leave id lock (some trail) ∧
      (s.step rt co l).2.store = s.store := by
    have hstep := @storeStep_step rt co s l
    generalize s.step rt co l = x at hstep hres ⊢
    cases hstep with
    | same hr hstore hsame => exact absurd hres (hr id trail)
    | answered t i lock entries hpc hstore hsame =>
        cases hres
        exact ⟨t, lock, hpc, hstore⟩
    | put t i ref name createdAt entry hpc hstore hadded => cases hres
    | write t i ref snapshot k entry hpc hget hstore hsame => cases hres
    | drop t i lock hpc hstore hsame => cases hres
  rcases hleave with ⟨t, lock, hpc, hstore⟩
  refine ⟨hstore, ?_⟩
  have hbusy : (s.pc t).session = some id := by rw [hpc]; rfl
  by_cases halive : s.Alive id
  · have hsafe := ((h id).safe halive).pc t hbusy
    rw [hpc] at hsafe
    rcases hsafe with ⟨stored, hview, hgrown⟩
    refine ⟨?_, ?_⟩
    · rw [← stored_ne_none, hview]
      exact Option.some_ne_none _
    · rw [persistedTrail_eq hview]
      exact hgrown
  · have hgone := ((h id).gone halive).pc t hbusy
    rw [hpc] at hgone
    cases hgone

/-- An acknowledged action is kept: when a request that approves a gate, retries, overrides,
returns or decides has succeeded, the trail it left is stored, and at every later point of the run
the stored trail continues it, unless the session was deleted, which an approval rules out. -/
theorem acknowledged_kept (rt : Runtime) (co : Coercions) (labels more : List ServiceLabel)
    (l : ServiceLabel) (id : Str) (trail : List StrEntry)
    (h : (step rt co (after rt co labels) l).1 = .acknowledged id trail) :
    let s := after rt co (labels ++ [l])
    let s' := after rt co (labels ++ l :: more)
    (s.store.contains id = true ∧ trail.map storedEntry <+: s.persistedTrail id) ∧
      (s'.store.contains id = true → trail.map storedEntry <+: s'.persistedTrail id) ∧
      ((∃ e ∈ trail, e.get? (lit "action") = some (lit "gate_approval")) →
        s'.store.contains id = true) := by
  rcases acknowledged_step (inv_after labels) h with ⟨hstore, hstored, hgrown⟩
  have hlast : after rt co (labels ++ [l]) = (step rt co (after rt co labels) l).2 :=
    after_append labels [l]
  have hnow : (after rt co (labels ++ [l])).store.contains id = true ∧
      trail.map storedEntry <+: (after rt co (labels ++ [l])).persistedTrail id := by
    rw [hlast]
    unfold persistedTrail at hgrown ⊢
    rw [hstore]
    exact ⟨hstored, hgrown⟩
  have hsplit : labels ++ l :: more = (labels ++ [l]) ++ more := by simp
  have hsince := kept_since (labels ++ [l]) more hnow.1
  rw [← hsplit] at hsince
  intro s s'
  refine ⟨hnow, ?_, ?_⟩
  · intro hafter
    rcases hsince with ⟨-, hcontinues⟩ | ⟨hdel, -⟩
    · exact hnow.2.trans hcontinues
    · rw [hdel.2] at hafter
      cases hafter
  · rintro ⟨e, he, haction⟩
    rcases hsince with ⟨hkept, -⟩ | ⟨-, hno⟩
    · exact hkept
    · have happroval := (isGateApproval_storedEntry e).mpr haction
      rw [List.any_eq_false] at hno
      exact absurd happroval (hno (storedEntry e) (hnow.2.subset (List.mem_map_of_mem he)))

/-- The trail that a request for a session was answered after. -/
def answerFor (id : Str) : ServiceResult → Option (List StrEntry)
  | .acknowledged i trail => if i = id then some trail else none
  | _ => none

theorem answerFor_eq_some {r : ServiceResult} {trail : List StrEntry}
    (h : answerFor id r = some trail) : r = .acknowledged id trail := by
  unfold answerFor at h
  cases r with
  | acknowledged i entries =>
      dsimp only at h
      by_cases hi : i = id
      · rw [if_pos hi] at h
        rw [hi, Option.some.inj h]
      · rw [if_neg hi] at h
        cases h
  | blocked => cases h
  | ran => cases h

end SessionService

namespace Sample

/-- An audit is created, its planning fails, and a retry of that is about to be answered. -/
def retried : List ServiceLabel :=
  [.create 0 (smallEnv "u1") (lit "s1") ⟨lit "Access", lit "A bank", [], lit "Access audit",
      lit "Ann", lit "declared", lit "2025-01-01T00:00:00"⟩] ++
    List.replicate 5 (.run 0 (smallEnv "u1")) ++
    [.job 1, .run 1 (smallEnv "u2"), .assign 1 (.machine (.error .planning)),
      .assign 1 .commitStatus, .action 2 (lit "s1") (.retryPhase 1 (lit "Bob") (lit "declared"))] ++
    List.replicate 8 (.run 2 (smallEnv "u3"))

end Sample

namespace SessionService

/-- The retry, and a restart after it. -/
theorem acknowledged_kept_retried :
    ∃ trail, (step Sample.rt Sample.coercions (after Sample.rt Sample.coercions Sample.retried)
        (.run 2 (Sample.smallEnv "u3"))).1 = .acknowledged (lit "s1") trail ∧
      trail.map storedEntry <+: (after Sample.rt Sample.coercions
        (Sample.retried ++ [.run 2 (Sample.smallEnv "u3")])).persistedTrail (lit "s1") := by
  have hsome : (answerFor (lit "s1") (step Sample.rt Sample.coercions
      (after Sample.rt Sample.coercions Sample.retried)
        (.run 2 (Sample.smallEnv "u3"))).1).isSome = true := by decide +kernel
  rcases Option.isSome_iff_exists.mp hsome with ⟨trail, htrail⟩
  have hanswer := answerFor_eq_some htrail
  exact ⟨trail, hanswer, (acknowledged_kept Sample.rt Sample.coercions Sample.retried [.restart]
    (.run 2 (Sample.smallEnv "u3")) (lit "s1") trail hanswer).1.2⟩

end SessionService

end AuditSwarm
