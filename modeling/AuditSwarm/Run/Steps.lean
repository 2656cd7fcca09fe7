import AuditSwarm.Run.Generation

/-!
# What one call can do

The cases of a call put together, and the facts about single calls that the properties of whole
runs share.
-/

namespace AuditSwarm

open Python StrEnum

namespace AuditFlow

variable {rt : Runtime} {env : Env} {f g : AuditFlow} {r : Except Exn Unit} {p : Phase}

/-! ## Starting a phase -/

theorem exec_beginPhase1 (f : AuditFlow) :
    (f.machine.status = .waitingForScope ∧
      beginPhase1.exec f =
        (.ok (), (f.moveTo (.running .planning)).withDossier (lit "Planning is running."))) ∨
    ∃ current target, beginPhase1.exec f = (.error (.invalidTransition current target), f) := by
  unfold beginPhase1
  rw [exec_transition_bind]
  cases hm : f.machine.startPhase1 with
  | ok m =>
      obtain ⟨hs, rfl⟩ := AuditStateMachine.startPhase1_eq_ok_iff.mp hm
      exact .inl ⟨hs, rfl⟩
  | error e => exact .inr ⟨_, _, by rw [AuditStateMachine.transition_eq_error hm]⟩

theorem started_of_running (hs : f.machine.status = .running p) : started p f = f := by
  unfold started
  rw [if_neg]
  rintro ⟨-, h⟩
  rw [hs] at h
  cases h

theorem started_status :
    (started p f).machine.status = .running p ↔
      f.machine.status = .running p ∨ (p = .planning ∧ f.machine.status = .waitingForScope) := by
  unfold started
  split
  · rename_i h
    simp [h.1, h.2]
  · rename_i h
    simp [h]

theorem PhaseFrame.started (h : PhaseFrame p (started p f) g) : PhaseFrame p f g := by
  unfold AuditFlow.started at h
  split at h
  · have hmove : PhaseFrame p f (f.moveTo (.running .planning)) :=
      ⟨rfl, rfl, rfl, rfl, rfl, fun q _ => storedModel_congr rfl rfl rfl q⟩
    exact hmove.trans h
  · exact h

theorem TwoKickoffs.started {ks : List Kickoff} (h : TwoKickoffs p (started p f) g ks) :
    TwoKickoffs p f g ks := by
  refine ⟨?_, h.length_le, h.phase⟩
  rw [h.kickoffs]
  unfold AuditFlow.started
  split <;> rfl

theorem storedModel_started (q : Phase) :
    storedModel (started p f).state q = storedModel f.state q := by
  unfold started
  split
  · exact storedModel_congr rfl rfl rfl q
  · rfl

/-- Everything a `generate_*` call can do: it is refused and changes nothing, or it runs the
phase. -/
theorem generate_cases (h : (generate rt env p).exec f = (r, g)) :
    (∃ e, r = .error (.runtimeError e) ∧ g = f) ∨
    ((started p f).machine.status = .running p ∧
      ∃ ks, TwoKickoffs p f g ks ∧ PhaseFrame p f g ∧
        GenerationEnd rt env p (started p f) g ks r) := by
  rw [exec_generate] at h
  by_cases hs : (started p f).machine.status = .running p
  · obtain ⟨ks, hks, hframe, hend⟩ := run_cases hs h
    exact .inr ⟨hs, ks, hks.started, hframe.started, hend⟩
  · obtain ⟨e, he⟩ := (@run_refused rt env) hs
    obtain ⟨rfl, rfl⟩ := Prod.mk.inj (he.symm.trans h)
    refine .inl ⟨e, rfl, ?_⟩
    unfold started at hs ⊢
    split at hs
    · rename_i hc
      exact absurd (by rw [hc.1]; rfl) hs
    · rename_i hc
      rw [if_neg hc]

/-! ## Recorded actions -/

/-- Recorded actions leave the artifacts and the kickoffs alone. -/
structure ArtifactFrame (f g : AuditFlow) : Prop where
  racm : g.state.racmPlan = f.state.racmPlan
  papers : g.state.workingPapers = f.state.workingPapers
  report : g.state.finalReport = f.state.finalReport
  kickoffs : g.kickoffs = f.kickoffs
  sessionId : g.sessionId = f.sessionId

theorem act_artifactFrame {a : RecordedAction} (h : act rt env a f = (r, g)) :
    ArtifactFrame f g := by
  rcases act_cases h with ⟨err, -, -, rfl⟩ | ⟨k, c, -, -, rfl⟩ | ⟨k, e, -, -, -, rfl⟩
  · exact ⟨rfl, rfl, rfl, rfl, rfl⟩
  · cases a <;> exact ⟨rfl, rfl, rfl, rfl, rfl⟩
  · cases a <;> exact ⟨rfl, rfl, rfl, rfl, rfl⟩

theorem ArtifactFrame.storedModel (h : ArtifactFrame f g) (q : Phase) :
    storedModel g.state q = storedModel f.state q :=
  storedModel_congr h.racm h.papers h.report q

theorem act_ok {a : RecordedAction} (h : act rt env a f = (r, g))
    (hdigest : ∀ c, r ≠ .error (.digest c)) :
    g = f ∨ ∃ k e, (recorded rt env a).check f = .ok k ∧
      Stamped ((recorded rt env a).gate k) ((recorded rt env a).human k)
        (recorded rt env a).action e ∧
      g = (recorded rt env a).conclude k (pushEntry e ((recorded rt env a).mutate k f)) := by
  rcases act_cases h with ⟨err, -, -, rfl⟩ | ⟨k, c, -, hr, -⟩ | ⟨k, e, hk, he, -, hg⟩
  · exact .inl rfl
  · exact absurd hr (hdigest c)
  · exact .inr ⟨k, e, hk, he, hg⟩

theorem act_trail {a : RecordedAction} (k : (recorded rt env a).κ) (e : StrEntry) :
    ((recorded rt env a).conclude k
      (pushEntry e ((recorded rt env a).mutate k f))).state.approvalTrail =
        f.state.approvalTrail ++ [e] := by
  cases a <;> rfl

/-! ## The trail only grows -/

theorem trail_act {a : RecordedAction} (h : act rt env a f = (r, g)) :
    g.state.approvalTrail = f.state.approvalTrail ∨
      ∃ e, g.state.approvalTrail = f.state.approvalTrail ++ [e] := by
  rcases act_cases h with ⟨err, -, -, rfl⟩ | ⟨k, c, -, -, rfl⟩ | ⟨k, e, -, -, -, rfl⟩
  · exact .inl rfl
  · left
    cases a <;> rfl
  · exact .inr ⟨e, act_trail k e⟩

theorem trail_step (f : AuditFlow) (c : Call) :
    f.state.approvalTrail <+: (step rt f c).2.state.approvalTrail := by
  obtain ⟨env, op⟩ := c
  cases op with
  | record a =>
      rcases @trail_act rt env f _ _ a rfl with h | ⟨e, h⟩
      · exact (List.prefix_refl _).trans (h ▸ List.prefix_refl _)
      · exact ⟨[e], h.symm⟩
  | beginPhase1 =>
      rcases exec_beginPhase1 f with ⟨-, h⟩ | ⟨_, _, h⟩
      · rw [show step rt f ⟨env, .beginPhase1⟩ = beginPhase1.exec f from rfl, h]
        exact List.prefix_refl _
      · rw [show step rt f ⟨env, .beginPhase1⟩ = beginPhase1.exec f from rfl, h]
  | generate p =>
      rcases @generate_cases rt env f _ _ p rfl with
        ⟨e, -, h⟩ | ⟨-, ks, -, hframe, -⟩
      · exact ⟨[], by rw [List.append_nil]; exact (congrArg (·.state.approvalTrail) h).symm⟩
      · exact ⟨[], by rw [List.append_nil]; exact hframe.trail.symm⟩

/-! ## Runs without a digest failure -/

/-- No call of a run raises because a trail digest cannot be computed. -/
def DigestsSucceed (rt : Runtime) (f : AuditFlow) (calls : List Call) : Prop :=
  ∀ t ∈ trace rt f calls, ∀ c, t.result ≠ .error (.digest c)

/-- Whether a call raised because a digest cannot be computed. -/
def digestFailed : Except Exn Unit → Bool
  | .error (.digest _) => true
  | _ => false

theorem digestFailed_eq_false_iff :
    digestFailed r = false ↔ ∀ c, r ≠ .error (.digest c) := by
  unfold digestFailed
  split
  · simp
  · rename_i hne
    simp only [true_iff]
    exact fun c hc => hne c hc

instance (f : AuditFlow) (calls : List Call) : Decidable (DigestsSucceed rt f calls) :=
  decidable_of_iff (∀ t ∈ trace rt f calls, digestFailed t.result = false)
    (forall₂_congr fun _ _ => digestFailed_eq_false_iff)

theorem DigestsSucceed.left {calls more : List Call}
    (h : DigestsSucceed rt f (calls ++ more)) : DigestsSucceed rt f calls := by
  intro t ht
  refine h t ?_
  rw [trace, LabelledRun.trace_append]
  exact List.mem_append_left _ ht

theorem DigestsSucceed.right {calls more : List Call}
    (h : DigestsSucceed rt f (calls ++ more)) : DigestsSucceed rt (after rt f calls) more := by
  intro t ht
  refine h t ?_
  rw [trace, LabelledRun.trace_append]
  exact List.mem_append_right _ ht

theorem digestsSucceed_completed :
    DigestsSucceed Sample.rt (.fresh (lit "Access") (lit "A bank") [] none)
      (Sample.completed ++ [Sample.verification]) := by
  decide +kernel

end AuditFlow

end AuditSwarm
