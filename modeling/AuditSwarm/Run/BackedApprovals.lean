import AuditSwarm.Properties.Restart
import AuditSwarm.Run.Approvals

/-!
# What the approval entries of a run are of

As long as every entry can be stamped, the approval entry of a gate records the digest of the
artifact the flow still has, and a flow has artifacts only of the phases its status has reached.
Both survive a restart.
-/

namespace AuditSwarm

open Python

/-- The phases that have begun when an audit is in a status. -/
def AuditStatus.reached : AuditStatus → List Phase
  | waitingForScope => []
  | running p | waitingHumanGate p | qaRejected p | error p => p.before ++ [p]
  | completed => [.planning, .fieldwork, .reporting]

theorem AuditStatus.ofPhase_or_closed {s : AuditStatus} {p : Phase} (h : p ∈ s.reached) :
    s.ofPhase p ∨ p ∈ s.closedGates := by
  have hphase : ∀ q : Phase, p ∈ q.before ++ [q] → p = q ∨ p ∈ q.before := by
    intro q hq
    rcases List.mem_append.mp hq with hbefore | hsame
    · exact .inr hbefore
    · exact .inl (List.mem_singleton.mp hsame)
  cases s with
  | waitingForScope => cases h
  | running q => exact (hphase q h).imp_left fun heq => .inl (by rw [heq])
  | waitingHumanGate q => exact (hphase q h).imp_left fun heq => .inr (.inl (by rw [heq]))
  | qaRejected q => exact (hphase q h).imp_left fun heq => .inr (.inr (.inl (by rw [heq])))
  | error q => exact (hphase q h).imp_left fun heq => .inr (.inr (.inr (by rw [heq])))
  | completed => exact .inr h

theorem AuditStatus.reached_approvalTarget (p : Phase) :
    (waitingHumanGate p).reached ⊆ (AuditStateMachine.approvalTarget p).reached := by
  cases p <;> decide

namespace AuditFlow

variable {rt : Runtime} {co : Coercions} {env : Env} {f g : AuditFlow} {r : Except Exn Unit}
  {p : Phase}

/-- An approval of the gate of a phase that records the digest of its artifact. -/
structure ApprovedBy (rt : Runtime) (f : AuditFlow) (p : Phase) (e : StrEntry) : Prop where
  gate : e.get? (lit "gate") = some p.gateLabel
  digest : ∃ artifact digest, f.state.artifact p = some artifact ∧
    Trail.artifactDigest rt artifact = .ok digest ∧ e.get? (lit "artifact_digest") = some digest

/-- The artifacts a flow has are of phases that have begun, and its approvals are of them. -/
structure ApprovalsBacked (rt : Runtime) (f : AuditFlow) : Prop where
  gates : GateInv f
  drafted : ∀ p, storedModel f.state p ≠ none → p ∈ f.machine.status.reached
  approved : ∀ e ∈ f.state.approvalTrail, isApproval e = true → ∃ p, ApprovedBy rt f p e

theorem approvalsBacked_fresh (theme businessContext : Str) (frameworks : List Str)
    (sessionId : Option Str) :
    ApprovalsBacked rt (.fresh theme businessContext frameworks sessionId) where
  gates := gateInv_fresh theme businessContext frameworks sessionId
  drafted := by
    intro p hp
    cases p <;> exact absurd rfl hp
  approved := by
    intro e he
    exact absurd he List.not_mem_nil

theorem ApprovedBy.congr {e : StrEntry} (h : ApprovedBy rt f p e)
    (hartifact : g.state.artifact p = f.state.artifact p) : ApprovedBy rt g p e where
  gate := h.gate
  digest := by
    rw [hartifact]
    exact h.digest

theorem ApprovedBy.closed {e : StrEntry} (h : ApprovedBy rt f p e)
    (he : e ∈ f.state.approvalTrail) (happroval : isApproval e = true) :
    some p.gateLabel ∈ approvedGates f.state.approvalTrail := by
  unfold approvedGates
  rw [← h.gate]
  exact List.mem_map_of_mem (List.mem_filter.mpr ⟨he, happroval⟩)

/-! ## Recorded actions -/

theorem reached_act {a : RecordedAction} {k : (recorded rt env a).κ} {e : StrEntry}
    (hk : (recorded rt env a).check f = .ok k) :
    f.machine.status.reached ⊆
      ((recorded rt env a).conclude k (pushEntry e
        ((recorded rt env a).mutate k f))).machine.status.reached := by
  cases a with
  | recordPreparer preparedBy required source => exact List.Subset.refl _
  | recordDecision req => exact List.Subset.refl _
  | approveGate gate humanId source =>
      rw [(checkApproval_eq_ok hk).status]
      exact AuditStatus.reached_approvalTarget gate
  | retryPhase phase humanId source =>
      rcases (retryAction_check_eq_ok hk).2 with hs | hs
      · rw [hs]
        exact List.Subset.refl _
      · rw [hs]
        exact List.Subset.refl _
  | returnForRework phase humanId notes source =>
      rw [(checkRework_eq_ok hk).status]
      exact List.Subset.refl _
  | overrideQaRejection phase humanId reason source =>
      rw [(checkOverride_eq_ok hk).status]
      exact List.Subset.refl _

theorem approvalsBacked_act {a : RecordedAction} (h : act rt env a f = (r, g))
    (hdigest : ∀ c, r ≠ .error (.digest c)) (hf : ApprovalsBacked rt f) :
    ApprovalsBacked rt g := by
  have hframe := act_artifactFrame h
  have hartifact : ∀ p : Phase, g.state.artifact p = f.state.artifact p :=
    fun p => artifact_congr (hframe.storedModel p)
  have hgates := gateInv_act h hdigest hf.gates
  rcases act_entry h with ⟨err, -, -, rfl⟩ | ⟨k, err, hk, hseal, hr, -⟩ | ⟨k, e, hk, he, -, rfl⟩
  · exact hf
  · rcases sealOf_cases hk ((recorded rt env a).mutate k f) with ⟨c, hc⟩ | ⟨e, he, -⟩
    · rw [hseal] at hc
      rw [Except.error.inj hc] at hr
      exact absurd hr (hdigest c)
    · cases hseal.symm.trans he
  · refine ⟨hgates, ?_, ?_⟩
    · intro p hp
      rw [hframe.storedModel p] at hp
      exact reached_act hk (hf.drafted p hp)
    · intro e' he' happroval
      rw [act_trail, List.mem_append, List.mem_singleton] at he'
      rcases he' with hold | rfl
      · rcases hf.approved e' hold happroval with ⟨p, hp⟩
        exact ⟨p, hp.congr (hartifact p)⟩
      · unfold isApproval at happroval
        rw [he.stamped.action, decide_eq_true_eq, Option.some.injEq] at happroval
        cases a with
        | approveGate gate humanId source =>
            rcases (entryOf_approval hk he).digest with ⟨digest, hget, hcomputed⟩
            refine ⟨gate, he.stamped.gate, _, digest, ?_, hcomputed, hget⟩
            rw [hartifact]
            exact (checkApproval_eq_ok hk).artifact
        | recordPreparer preparedBy required source => exact absurd happroval (by simp)
        | recordDecision req => exact absurd happroval (by simp)
        | retryPhase phase humanId source => exact absurd happroval (by simp)
        | returnForRework phase humanId notes source => exact absurd happroval (by simp)
        | overrideQaRejection phase humanId reason source => exact absurd happroval (by simp)

/-! ## Phase runs -/

theorem reached_generate (h : (generate rt env p).exec f = (r, g)) :
    g = f ∨ (f.machine.status.reached ⊆ p.before ++ [p] ∧
      g.machine.status.reached = p.before ++ [p]) := by
  rcases generate_cases h with ⟨e, -, rfl⟩ | ⟨hs, ks, -, -, hend⟩
  · exact .inl rfl
  · refine .inr ⟨?_, ?_⟩
    · unfold started at hs
      split at hs
      · rename_i hc
        rw [hc.2]
        exact List.nil_subset _
      · rw [hs]
        exact List.Subset.refl _
    · cases hend with
      | stuck e _ _ hm _ _ _ =>
          rw [hm, hs]
          rfl
      | ended _ _ _ hcrew =>
          cases hcrew with
          | failed hst _ =>
              rw [hst]
              rfl
          | rejected hst _ _ =>
              rw [hst]
              rfl
          | approved hst _ _ =>
              rw [hst]
              rfl

/-! ## Runs and restarts -/

theorem approvalsBacked_step {c : Call}
    (hdigest : ∀ cause, (step rt f c).1 ≠ .error (.digest cause)) (hf : ApprovalsBacked rt f) :
    ApprovalsBacked rt (step rt f c).2 := by
  have hgates := gateInv_step hdigest hf.gates
  -- an approval stays where the trail does: the artifact of a closed gate is not replaced
  have hkept : (step rt f c).2.state.approvalTrail = f.state.approvalTrail →
      ∀ e ∈ (step rt f c).2.state.approvalTrail, isApproval e = true →
        ∃ p, ApprovedBy rt (step rt f c).2 p e := by
    intro htrail e he happroval
    rw [htrail] at he
    rcases hf.approved e he happroval with ⟨p, hp⟩
    exact ⟨p, hp.congr (artifact_congr (storedModel_step hf.gates (hp.closed he happroval)))⟩
  rcases c with ⟨env, op⟩
  cases op with
  | record a => exact approvalsBacked_act (r := (act rt env a f).1) rfl hdigest hf
  | beginPhase1 =>
      have hstep : step rt f ⟨env, .beginPhase1⟩ = beginPhase1.exec f := rfl
      rcases exec_beginPhase1 f with ⟨hs, h⟩ | ⟨_, _, h⟩
      · rw [hstep, h] at hgates hkept ⊢
        refine ⟨hgates, ?_, hkept rfl⟩
        intro p hp
        have hreached := hf.drafted p hp
        rw [hs] at hreached
        cases hreached
      · rw [hstep, h]
        exact hf
  | generate q =>
      cases hrun : (generate rt env q).exec f with
      | mk r g =>
          have hstep : (step rt f ⟨env, .generate q⟩).2 = g := congrArg Prod.snd hrun
          rw [hstep] at hgates hkept ⊢
          rcases generate_cases hrun with ⟨e, -, rfl⟩ | ⟨-, ks, -, hframe, -⟩
          · exact hf
          · refine ⟨hgates, ?_, hkept hframe.trail⟩
            intro p hp
            rcases reached_generate hrun with rfl | ⟨hbefore, hafter⟩
            · exact hf.drafted p hp
            · rw [hafter]
              by_cases hpq : p = q
              · rw [hpq]
                exact List.mem_append_right _ List.mem_cons_self
              · rw [hframe.artifacts p hpq] at hp
                exact hbefore (hf.drafted p hp)

theorem ApprovalsBacked.reloaded (hf : ApprovalsBacked rt f) (env : Env) (id : Str) :
    ApprovalsBacked rt (f.reloaded env id) := by
  have hstate := reloaded_state env id f
  have hmachine := reloaded_machine env id f
  have htrail : (f.reloaded env id).state.approvalTrail = f.state.approvalTrail := by
    rw [hstate]
  have hstored : ∀ p, storedModel (f.reloaded env id).state p = storedModel f.state p := by
    intro p
    rw [hstate]
    cases p <;> rfl
  refine ⟨⟨?_, ?_⟩, ?_, ?_⟩
  · unfold Mirrored
    rw [hmachine, hstate]
    exact hf.gates.mirrored
  · rw [htrail, hmachine]
    exact hf.gates.gates
  · intro p hp
    rw [hstored] at hp
    rw [hmachine]
    exact hf.drafted p hp
  · intro e he happroval
    rw [htrail] at he
    rcases hf.approved e he happroval with ⟨p, hp⟩
    exact ⟨p, hp.congr (artifact_congr (hstored p))⟩

/-- The flows some run leads to in which every entry can be stamped, and a flow may be saved and
loaded again at any time. -/
inductive Stamping (rt : Runtime) (co : Coercions) : AuditFlow → Prop
  | fresh (theme businessContext : Str) (frameworks : List Str) (sessionId : Option Str) :
      Stamping rt co (.fresh theme businessContext frameworks sessionId)
  | call {f : AuditFlow} (c : Call) (hf : Stamping rt co f)
      (hdigest : ∀ cause, (step rt f c).1 ≠ .error (.digest cause)) :
      Stamping rt co (step rt f c).2
  | reload {f : AuditFlow} {env : Env} {sessions saved : Sessions} {id : Str}
      {loaded : LoadResult} (hf : Stamping rt co f)
      (hsave : FlowRepository.save co sessions id f = some saved)
      (hload : FlowRepository.load rt co env saved id = .ok (some loaded)) :
      Stamping rt co loaded.flow

theorem Stamping.live (hf : Stamping rt co f) : Live rt co f := by
  induction hf with
  | fresh theme businessContext frameworks sessionId => exact .fresh _ _ _ _
  | call c _ _ ih => exact .call c ih
  | reload _ hsave hload ih => exact .reload ih hsave hload

theorem Stamping.approvalsBacked (hrt : LowersAscii rt) (hf : Stamping rt co f) :
    ApprovalsBacked rt f := by
  induction hf with
  | fresh theme businessContext frameworks sessionId => exact approvalsBacked_fresh _ _ _ _
  | call c _ hdigest ih => exact approvalsBacked_step hdigest ih
  | reload hf hsave hload ih =>
      rw [load_save hrt (hf.live.storable hrt) hsave] at hload
      rw [← Option.some.inj (Except.ok.inj hload)]
      exact ih.reloaded _ _

end AuditFlow

end AuditSwarm
