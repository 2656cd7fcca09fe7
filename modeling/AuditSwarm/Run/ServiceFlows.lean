import AuditSwarm.Run.ServiceThreads

/-!
# Steps on a flow

A request changes the flow of its session, a phase thread makes an assignment, and a flow is put in
memory.
-/

namespace AuditSwarm

open Python

namespace SessionService

variable {rt : Runtime} {co : Coercions} {s s' : SessionService} {id : Str} {t : ThreadId}
  {env : Env} {p p₀ : ServicePc} {lock : ActionLock}

/-! ## Steps on the flow of a session -/

theorem Owned.unique {i : Str} {ref : FlowRef} (h : s.Owned id ref) (h' : s.Owned i ref) : i = id :=
  Option.some.inj (h'.session.symm.trans h.session)

theorem locally_write {ref : FlowRef} {f : AuditFlow} (h : s.Owned id ref)
    (hf : f.sessionId = (s.heap ref).sessionId) : Locally s ((s.write ref f).goto t p) id t :=
  { @locally_goto s id t p with
    owned := fun i r hr => by
      refine ⟨hr.allocated, ?_⟩
      show (if r = ref then f else s.heap r).sessionId = some i
      by_cases hrr : r = ref
      · rw [if_pos hrr, hf, ← hrr]
        exact hr.session
      · rw [if_neg hrr]
        exact hr.session
    heap := fun i hi r hr => by
      refine if_neg fun hrr => hi ?_
      rw [hrr] at hr
      exact h.unique hr }

theorem kept_write {ref : FlowRef} {f : AuditFlow} :
    KeptSession s ((s.write ref f).goto t p) id := ⟨Iff.rfl, Iff.rfl, fun h => h, rfl⟩

theorem view_write {ref : FlowRef} {f : AuditFlow} :
    ((s.write ref f).goto t p).view id =
      { s.view id with flow := (s.flows.get? id).map fun r =>
          (r, if r = ref then f.storedEntries else (s.heap r).storedEntries) } := by
  unfold view
  show SessionView.mk ((s.flows.get? id).map fun r =>
    (r, (if r = ref then f else s.heap r).storedEntries)) _ = _
  congr 1
  cases s.flows.get? id with
  | none => rfl
  | some r =>
      rw [Option.map_some, Option.map_some]
      split <;> rfl

/-- Only one thread holds an action lock of a session that is there. -/
theorem SessionInv.exclusive (h : SessionInv co s id) (halive : s.Alive id)
    (ht : (s.pc t).session = some id) (hlock : (s.pc t).holds = some lock) {u : ThreadId}
    (hu : (s.pc u).session = some id) (hut : u ≠ t) : (s.pc u).holds = none := by
  cases hholds : (s.pc u).holds with
  | none => rfl
  | some other =>
      have htl := ServicePc.locks_of_holds hlock
      have hul := ServicePc.locks_of_holds hholds
      have hsame : other = lock := by
        have hd := (h.safe halive).locks t ht lock htl
        have hd' := (h.safe halive).locks u hu other hul
        have hi := (h.thread t ht).locks lock htl
        have hi' := (h.thread u hu).locks other hul
        cases lock
        cases other
        cases hd
        cases hd'
        cases hi
        cases hi'
        rfl
      have hheld := (h.thread u hu).holds other hholds
      rw [hsame, (h.thread t ht).holds lock hlock] at hheld
      exact absurd (Option.some.inj hheld).symm hut

/-- While a session is there a thread that is not creating it has company that is not. -/
theorem SessionInv.not_creating (h : SessionInv co s id) (ht : (s.pc t).session = some id)
    {u : ThreadId} (hu : (s.pc u).session = some id) (hut : u ≠ t) :
    (s.pc u).creates = false := by
  cases hcreates : (s.pc u).creates with
  | false => rfl
  | true => exact absurd (((h.thread u hu).creates hcreates).2.2 t ht).symm hut

theorem act_extends {a : RecordedAction} {f g : AuditFlow} {r : Except Exn Unit}
    (h : AuditFlow.act rt env a f = (r, g)) :
    f.storedEntries <+: g.storedEntries ∧ g.sessionId = f.sessionId := by
  refine ⟨?_, (AuditFlow.act_artifactFrame h).sessionId⟩
  unfold AuditFlow.storedEntries
  rcases AuditFlow.trail_act h with htrail | ⟨e, htrail⟩
  · rw [htrail]
  · rw [htrail, List.map_append]
    exact List.prefix_append _ _

theorem inv_acted {a : SessionAction} {ref : FlowRef} {f : AuditFlow}
    (h : ∀ i, SessionInv co s i) (hpc : s.pc t = .act id a lock ref)
    (hlive : (s.heap ref).storedEntries <+: f.storedEntries)
    (hf : f.sessionId = (s.heap ref).sessionId) (hsession : p.session = some id)
    (hcreates : p.creates = false) (hsaves : p.saves = false)
    (href : ∀ r, p.flowRef = some r → r = ref) (hholds : p.holds = some lock)
    (hlocks : p.locks = p.holds)
    (hsafe : ∀ v : SessionView, v.flow = some (ref, f.storedEntries) → p.Safe v) (i : Str) :
    SessionInv co ((s.write ref f).goto t p) i := by
  have hbusy : (s.pc t).session = some id := by rw [hpc]; rfl
  have hheld : (s.pc t).holds = some lock := by rw [hpc]; rfl
  have hthread := (h id).thread t hbusy
  have howned : s.Owned id ref := hthread.owned ref (by rw [hpc]; rfl)
  have hs := @locally_write s id t p ref f howned hf
  refine inv_of_own h hs (eq_of_session hbusy) (by rw [pc_goto_self]; exact eq_of_session hsession)
    ?_ i
  have hinv := h id
  refine hinv.own hs kept_write (.inl hbusy) hinv.entry ?_ hinv.discards hinv.jobs ?_ ?_ ?_
  · exact fun r hr => ⟨(hinv.flow r hr).1, hs.owned id r (hinv.flow r hr).2⟩
  · intro _
    rw [pc_goto_self]
    constructor
    case named => exact hthread.named
    case shown => exact fun _ => hthread.shown (by rw [hpc]; rfl)
    case creates =>
      rw [hcreates]
      exact fun hfalse => by cases hfalse
    case owned =>
      intro r hr
      rw [href r hr]
      exact hs.owned id ref howned
    case locks =>
      rw [hlocks, hholds]
      intro l hl
      rw [← Option.some.inj hl]
      exact hthread.locks lock (ServicePc.locks_of_holds hheld)
    case holds =>
      rw [hholds]
      intro l hl
      rw [← Option.some.inj hl]
      exact hthread.holds lock hheld
    case saves =>
      rw [hsaves]
      exact fun hfalse => by cases hfalse
  · intro halive hsafe'
    have hact := hsafe'.pc t hbusy
    rw [hpc] at hact
    rcases hact with ⟨live, hflow⟩
    have hget : s.flows.get? id = some ref ∧ (s.heap ref).storedEntries = live := by
      cases hget : s.flows.get? id with
      | none =>
          rw [view, hget] at hflow
          cases hflow
      | some r =>
          rw [view_flow hget] at hflow
          cases hflow
          exact ⟨rfl, rfl⟩
    rw [hget.2] at hlive
    have hview := @view_write s id t p ref f
    rw [hget.1, Option.map_some, if_pos rfl] at hview
    refine hsafe'.own hs rfl ?_ ?_ ?_ ?_ ?_
    · rw [hview]
      intro r l trail hr htrail
      cases hr
      exact (hsafe'.continues ref live trail hflow htrail).trans hlive
    · rw [hview]
      exact fun _ _ _ hnone => by cases hnone
    · intro u hut hu hsafeu
      rw [hview]
      exact hsafeu.extended hflow hlive rfl rfl (hinv.exclusive halive hbusy hheld hu hut)
    · rw [pc_goto_self, hlocks, hholds]
      intro l hl
      rw [← Option.some.inj hl]
      exact hsafe'.locks t hbusy lock (ServicePc.locks_of_holds hheld)
    · rw [pc_goto_self, hview]
      exact fun _ => hsafe _ rfl
  · intro halive hgone
    have hact := hgone.pc t hbusy
    rw [hpc] at hact
    exact hact.elim

theorem inv_act {a : SessionAction} {ref : FlowRef} (h : ∀ i, SessionInv co s i)
    (hpc : s.pc t = .act id a lock ref) :
    ∀ i, SessionInv co (s.run rt co t env (.act id a lock ref)).2 i := by
  unfold run
  dsimp only
  rcases hact : AuditFlow.act rt env a.recorded (s.heap ref) with ⟨r, f⟩
  rcases act_extends hact with ⟨hlive, hf⟩
  cases r with
  | ok _ =>
      refine inv_acted h hpc hlive hf rfl rfl rfl (fun r hr => (Option.some.inj hr).symm) rfl rfl
        fun v hv => ?_
      exact ⟨_, hv, List.prefix_refl _⟩
  | error e =>
      exact inv_acted h hpc hlive hf rfl rfl rfl (fun r hr => by cases hr) rfl rfl
        fun _ _ => trivial

theorem inv_assign {q : Phase} {ref : FlowRef} {w : PhaseWrite} (h : ∀ i, SessionInv co s i)
    (hpc : s.pc t = .phase id q ref) (i : Str) :
    SessionInv co (s.write ref (w.apply rt q (s.heap ref))) i := by
  have hbusy : (s.pc t).session = some id := by rw [hpc]; rfl
  have hthread := (h id).thread t hbusy
  have howned : s.Owned id ref := hthread.owned ref (by rw [hpc]; rfl)
  have hsame := @AuditFlow.unassigned_apply rt q (s.heap ref) w
  generalize hf : w.apply rt q (s.heap ref) = f at hsame
  have hpcs : (fun u => if u = t then ServicePc.phase id q ref else s.pc u) = s.pc := by
    funext u
    by_cases hut : u = t
    · rw [if_pos hut, hut, hpc]
    · rw [if_neg hut]
  have hstay : s.write ref f = (s.write ref f).goto t (.phase id q ref) := by
    show s.write ref f = { s.write ref f with
      pc := fun u => if u = t then ServicePc.phase id q ref else s.pc u }
    rw [hpcs]
    rfl
  rw [hstay]
  have hs := @locally_write s id t (.phase id q ref) ref f howned hsame.sessionId
  have hself : ((s.write ref f).goto t (.phase id q ref)).pc t = s.pc t := by
    rw [pc_goto_self, hpc]
  refine inv_of_own h hs (eq_of_session hbusy) (by rw [hself]; exact eq_of_session hbusy) ?_ i
  have hinv := h id
  have hview : ((s.write ref f).goto t (.phase id q ref)).view id = s.view id := by
    rw [view_write]
    unfold view
    cases s.flows.get? id with
    | none => rfl
    | some r =>
        rw [Option.map_some, Option.map_some]
        split
        · rename_i hr
          rw [hr, AuditFlow.storedEntries, AuditFlow.storedEntries, hsame.trail]
        · rfl
  refine hinv.own hs kept_write (.inl hbusy) hinv.entry ?_ hinv.discards hinv.jobs ?_ ?_ ?_
  · exact fun r hr => ⟨(hinv.flow r hr).1, hs.owned id r (hinv.flow r hr).2⟩
  · rw [hself]
    intro _
    constructor
    case named => exact hthread.named
    case shown => exact hthread.shown
    case creates =>
      rw [hpc]
      exact fun hfalse => by cases hfalse
    case owned => exact fun r hr => hs.owned id r (hthread.owned r hr)
    case locks => exact hthread.locks
    case holds => exact hthread.holds
    case saves => exact hthread.saves
  · intro _ hsafe
    refine hsafe.own hs rfl ?_ ?_ ?_ ?_ ?_
    · rw [hview]
      exact hsafe.continues
    · rw [hview]
      exact hsafe.jobs
    · rw [hview]
      exact fun _ _ _ h => h
    · rw [hself]
      exact hsafe.locks t hbusy
    · rw [hself, hview]
      exact hsafe.pc t
  · intro _ hgone
    refine hgone.own hs (fun _ => rfl) ?_ ?_ ?_ ?_
    · rw [hview]
      exact fun h => h
    · rw [hpc]
      exact fun _ => by simp
    · rw [hself]
      exact fun hne => hgone.locks hne t hbusy
    · rw [hself, hview]
      exact hgone.pc t

theorem locally_setFlow {flow : AuditFlow} :
    Locally s ((s.setFlow id flow).goto t p) id t :=
  { @locally_goto s id t p with
    owned := fun i r hr => by
      refine ⟨Nat.lt_succ_of_lt hr.allocated, ?_⟩
      show (if r = s.allocated then _ else s.heap r).sessionId = some i
      rw [if_neg (Nat.ne_of_lt hr.allocated)]
      exact hr.session
    heap := fun _ _ r hr => if_neg (Nat.ne_of_lt hr.allocated)
    flows := fun _ hi => Dict.get?_set_of_ne _ _ hi }

theorem kept_setFlow {flow : AuditFlow} :
    KeptSession s ((s.setFlow id flow).goto t p) id := ⟨Iff.rfl, Iff.rfl, fun h => h, rfl⟩

theorem owned_setFlow {flow : AuditFlow} :
    ((s.setFlow id flow).goto t p).Owned id s.allocated where
  allocated := Nat.lt_succ_self _
  session := by
    show (if s.allocated = s.allocated then _ else s.heap s.allocated).sessionId = some id
    rw [if_pos rfl]

theorem view_setFlow {flow : AuditFlow} :
    ((s.setFlow id flow).goto t p).view id =
      { s.view id with flow := some (s.allocated, flow.storedEntries) } := by
  unfold view
  show SessionView.mk (((s.flows.set id s.allocated).get? id).map fun r =>
    (r, (if r = s.allocated then _ else s.heap r).storedEntries)) _ = _
  rw [Dict.get?_set_self, Option.map_some, if_pos rfl]
  rfl

/-- A thread that puts a flow in memory where there is none. -/
theorem inv_setFlow {flow : AuditFlow} (h : ∀ i, SessionInv co s i) (hpc : s.pc t = p₀)
    (hold : p₀.session = some id) (hsession : p.session = some id)
    (hcreates : p.creates = p₀.creates) (hsaves : p.saves = false)
    (href : ∀ r, p.flowRef = some r → r = s.allocated) (hlocks : p.locks = p₀.locks)
    (hholds : p.holds = p₀.holds)
    (hsafe : s.Alive id → p₀.Safe (s.view id) → (s.view id).flow = none ∧
      (∀ trail, (s.view id).stored = some trail → trail <+: flow.storedEntries) ∧
      (p₀.creates = true ∨ p₀.holds ≠ none) ∧
      p.Safe { s.view id with flow := some (s.allocated, flow.storedEntries) })
    (hharmless : ∀ v, ¬ p₀.Harmless v) (i : Str) :
    SessionInv co ((s.setFlow id flow).goto t p) i := by
  have hbusy : (s.pc t).session = some id := by rw [hpc]; exact hold
  have hthread := (h id).thread t hbusy
  have hs := @locally_setFlow s id t p flow
  refine inv_of_own h hs (eq_of_session hbusy) (by rw [pc_goto_self]; exact eq_of_session hsession)
    ?_ i
  have hinv := h id
  have hview := @view_setFlow s id t p flow
  refine hinv.own hs kept_setFlow (.inl hbusy) hinv.entry ?_ hinv.discards hinv.jobs ?_ ?_ ?_
  · intro r hr
    have hr' : (s.flows.set id s.allocated).get? id = some r := hr
    rw [Dict.get?_set_self] at hr'
    rw [← Option.some.inj hr']
    exact ⟨hthread.named, owned_setFlow⟩
  · intro _
    rw [pc_goto_self]
    rw [hpc] at hthread
    constructor
    case named => exact hthread.named
    case shown =>
      rw [hcreates]
      exact hthread.shown
    case creates =>
      rw [hcreates]
      intro hc
      rcases hthread.creates hc with ⟨hissued, hshown, honly⟩
      refine ⟨hissued, hshown, fun u hu => ?_⟩
      by_contra hut
      rw [pc_goto_of_ne hut] at hu
      exact hut (honly u hu)
    case owned =>
      intro r hr
      rw [href r hr]
      exact owned_setFlow
    case locks =>
      rw [hlocks]
      exact hthread.locks
    case holds =>
      rw [hholds]
      exact hthread.holds
    case saves =>
      rw [hsaves]
      exact fun hfalse => by cases hfalse
  · intro halive hsafe'
    have hsafet := hsafe'.pc t hbusy
    rw [hpc] at hsafet
    rcases hsafe halive hsafet with ⟨hnone, hstored, hwho, hp⟩
    refine hsafe'.own hs rfl ?_ ?_ ?_ ?_ ?_
    · rw [hview]
      intro r l trail hr htrail
      cases hr
      exact hstored trail htrail
    · rw [hview]
      exact fun _ _ _ hfalse => by cases hfalse
    · intro u hut hu hsafeu
      rw [hview]
      rcases hwho with hc | hl
      · have honly := (hthread.creates (by rw [hpc]; exact hc)).2.2
        exact absurd (honly u hu) hut
      · rcases Option.ne_none_iff_exists'.mp hl with ⟨l, hl⟩
        have hheld : (s.pc t).holds = some l := by rw [hpc]; exact hl
        refine hsafeu.loaded hnone (fun hfalse => by cases hfalse)
          (hinv.exclusive halive hbusy hheld hu hut) ?_
        exact hinv.not_creating hbusy hu hut
    · rw [pc_goto_self, hlocks, ← hpc]
      exact hsafe'.locks t hbusy
    · rw [pc_goto_self, hview]
      exact fun _ => hp
  · intro _ hgone
    have hpc₀ := hgone.pc t hbusy
    rw [hpc] at hpc₀
    exact absurd hpc₀ (hharmless _)

theorem inv_set {u : FlowUser} {flow : AuditFlow} (h : ∀ i, SessionInv co s i)
    (hpc : s.pc t = .set id u flow) :
    ∀ i, SessionInv co (s.run rt co t env (.set id u flow)).2 i := by
  cases u with
  | action a lock =>
      refine inv_setFlow (p := .act id a lock s.allocated) h hpc rfl rfl rfl rfl
        (fun r hr => (Option.some.inj hr).symm) rfl rfl (fun _ hsafe => ?_) fun _ hfalse => hfalse
      refine ⟨hsafe.1, fun trail htrail => ?_, .inr (Option.some_ne_none _), _, rfl⟩
      rw [hsafe.2] at htrail
      rw [Option.some.inj htrail]
  | phase q =>
      exact inv_setFlow (p := .phase id q s.allocated) h hpc rfl rfl rfl rfl
        (fun r hr => (Option.some.inj hr).symm) rfl rfl (fun _ hsafe => hsafe.elim)
        fun _ hfalse => hfalse

theorem inv_register {flow : AuditFlow} {name createdAt : Str} (h : ∀ i, SessionInv co s i)
    (hpc : s.pc t = .register id flow name createdAt) :
    ∀ i, SessionInv co (s.run rt co t env (.register id flow name createdAt)).2 i := by
  have hbusy : (s.pc t).session = some id := by rw [hpc]; rfl
  have hthread := (h id).thread t hbusy
  have hnew := (hthread.creates (by rw [hpc]; rfl)).2.1
  refine inv_setFlow (p := .put id s.allocated name createdAt) h hpc rfl rfl rfl rfl
    (fun r hr => (Option.some.inj hr).symm) rfl rfl (fun _ hsafe => ?_) fun _ hfalse => hfalse
  refine ⟨hsafe, fun trail htrail => ?_, .inl rfl, _, rfl⟩
  have hstored : s.store.contains id = true := by
    rw [← stored_ne_none, htrail]
    exact Option.some_ne_none _
  exact absurd ((h id).stored_shown hstored) hnew

end SessionService

end AuditSwarm
