import AuditSwarm.Run.Steps

/-!
# Entry into a gate

QA fails closed: a phase comes to its human gate only through a run whose last attempt QA approved,
or through an override of the rejection of the run that produced the stored artifact.
-/

namespace AuditSwarm

open Python StrEnum

namespace AuditFlow

variable {rt : Runtime} {env : Env} {f g : AuditFlow} {r : Except Exn Unit} {p : Phase}

/-- A phase run whose last attempt was approved: the verdict is the boolean `True`, the stored
artifact is that attempt's, and in fieldwork every finding of it was verified. -/
structure EnteredByQa (rt : Runtime) (c : Call) (p : Phase) (f g : AuditFlow) : Prop where
  call : c.op = .generate p
  approved : ∃ ks, TwoKickoffs p f g ks ∧ ks ≠ [] ∧ ApprovedWith rt c.env p ks.length g

/-- A phase run that ended rejected, the artifact of its last attempt stored. -/
structure RejectedRun (rt : Runtime) (p : Phase) (t : Transition AuditFlow Call (Except Exn Unit))
    (a : PyModel) : Prop where
  call : t.label.op = .generate p
  status : t.after.machine.status = .qaRejected p
  attempt : ∃ ks k qa, TwoKickoffs p t.before t.after ks ∧ ks.getLast? = some k ∧
    ReadAs rt p k qa (some a)
  stored : storedModel t.after.state p = some a

/-- An override, for a stated reason, of the rejection of a phase run: the artifact is that run's,
and no crew was started since. -/
structure EnteredByOverride (rt : Runtime) (past : List (Transition AuditFlow Call (Except Exn Unit)))
    (c : Call) (p : Phase) (f : AuditFlow) : Prop where
  call : ∃ phase humanId reason source,
    c.op = .record (.overrideQaRejection phase humanId reason source) ∧
      Phase.ofNumber? phase = some p ∧ strip reason ≠ []
  status : f.machine.status = .qaRejected p
  artifact : ∃ a, storedModel f.state p = some a ∧
    ∃ t ∈ past, RejectedRun rt p t a ∧ f.kickoffs = t.after.kickoffs

/-! ## One call -/

/-- A call that brings a phase to its gate is a run QA approved or an override. -/
theorem entered_cases {c : Call} (hg : (step rt f c).2 = g)
    (hs : g.machine.status = .waitingHumanGate p) (hf : f.machine.status ≠ .waitingHumanGate p) :
    EnteredByQa rt c p f g ∨
      ∃ phase humanId reason source plan,
        c.op = .record (.overrideQaRejection phase humanId reason source) ∧ plan.phase = p ∧
          Overridable rt c.env f phase humanId reason plan := by
  obtain ⟨env, op⟩ := c
  cases op with
  | record a =>
      right
      have hact : act rt env a f = ((act rt env a f).1, g) := Prod.ext rfl hg
      have hmoved : ∃ k, (recorded rt env a).check f = .ok k ∧
          g.machine = ((recorded rt env a).mutate k f).machine := by
        rcases act_cases hact with ⟨err, -, -, rfl⟩ | ⟨k, c, hk, -, rfl⟩ | ⟨k, e, hk, -, -, rfl⟩
        · exact absurd hs hf
        · exact ⟨k, hk, rfl⟩
        · refine ⟨k, hk, ?_⟩
          cases a <;> rfl
      obtain ⟨k, hk, hmachine⟩ := hmoved
      rw [hmachine] at hs
      cases a with
      | recordPreparer preparedBy required source => exact absurd hs hf
      | recordDecision req => exact absurd hs hf
      | approveGate gate humanId source =>
          exfalso
          have htarget : AuditStateMachine.approvalTarget gate = .waitingHumanGate p := hs
          cases gate <;> cases htarget
      | retryPhase phase humanId source => exact absurd hs (by rintro ⟨⟩)
      | returnForRework phase humanId notes source => exact absurd hs (by rintro ⟨⟩)
      | overrideQaRejection phase humanId reason source =>
          exact ⟨phase, humanId, reason, source, k, rfl, AuditStatus.waitingHumanGate.inj hs,
            checkOverride_eq_ok hk⟩
  | beginPhase1 =>
      exfalso
      have hstep : (beginPhase1.exec f).2 = g := hg
      rcases exec_beginPhase1 f with ⟨-, h⟩ | ⟨_, _, h⟩
      · rw [h] at hstep
        subst hstep
        cases hs
      · rw [h] at hstep
        subst hstep
        exact hf hs
  | generate q =>
      left
      have hgen : (generate rt env q).exec f = (((generate rt env q).exec f).1, g) :=
        Prod.ext rfl hg
      rcases generate_cases hgen with ⟨e, -, rfl⟩ | ⟨hrunning, ks, hks, -, hend⟩
      · exact absurd hs hf
      · cases hend with
        | stuck e _ _ hmachine =>
            rw [hmachine, hrunning] at hs
            cases hs
        | ended _ _ _ hend =>
            cases hend with
            | failed hstatus => cases hstatus.symm.trans hs
            | rejected hstatus => cases hstatus.symm.trans hs
            | approved hstatus hne happroved =>
                obtain rfl : q = p := AuditStatus.waitingHumanGate.inj (hstatus.symm.trans hs)
                exact ⟨rfl, ks, hks, hne, happroved⟩

/-! ## The rejection a status comes from -/

/-- Where a rejected phase comes from: the run that was rejected, whose last attempt's artifact or
nothing is stored, with no crew started since. -/
def RejectedSince (rt : Runtime) (past : List (Transition AuditFlow Call (Except Exn Unit)))
    (f : AuditFlow) : Prop :=
  ∀ p, f.machine.status = .qaRejected p → ∃ t ∈ past,
    t.label.op = .generate p ∧ t.after.machine.status = .qaRejected p ∧
      (∃ ks, TwoKickoffs p t.before t.after ks ∧ ks ≠ []) ∧ RejectedWith rt p t.after ∧
      storedModel f.state p = storedModel t.after.state p ∧ f.kickoffs = t.after.kickoffs

theorem RejectedSince.kept {past : List (Transition AuditFlow Call (Except Exn Unit))}
    {t : Transition AuditFlow Call (Except Exn Unit)} (h : RejectedSince rt past f)
    (hframe : ArtifactFrame f g)
    (hstatus : ∀ p, g.machine.status = .qaRejected p → f.machine.status = .qaRejected p) :
    RejectedSince rt (past ++ [t]) g := by
  intro p hp
  obtain ⟨u, hu, hcall, hs, hks, hrejected, hstored, hkickoffs⟩ := h p (hstatus p hp)
  exact ⟨u, List.mem_append_left _ hu, hcall, hs, hks, hrejected,
    (hframe.storedModel p).trans hstored, hframe.kickoffs.trans hkickoffs⟩

theorem rejectedSince_step {past : List (Transition AuditFlow Call (Except Exn Unit))}
    (f : AuditFlow) (c : Call) (h : RejectedSince rt past f) :
    RejectedSince rt (past ++ [LabelledRun.transition (step rt) f c]) (step rt f c).2 := by
  obtain ⟨env, op⟩ := c
  cases op with
  | record a =>
      have hact : act rt env a f = ((act rt env a f).1, (act rt env a f).2) := rfl
      refine h.kept (act_artifactFrame hact) ?_
      intro p hp
      have hp' : (act rt env a f).2.machine.status = .qaRejected p := hp
      have hcases : (act rt env a f).2 = f ∨
          ∃ k, (act rt env a f).2.machine = ((recorded rt env a).mutate k f).machine := by
        rcases act_cases hact with ⟨err, -, -, hg⟩ | ⟨k, c, -, -, hg⟩ | ⟨k, e, -, -, -, hg⟩
        · exact .inl hg
        · exact .inr ⟨k, congrArg (·.machine) hg⟩
        · refine .inr ⟨k, (congrArg (·.machine) hg).trans ?_⟩
          cases a <;> rfl
      rcases hcases with hg | ⟨k, hmachine⟩
      · rwa [hg] at hp'
      · rw [hmachine] at hp'
        cases a with
        | recordPreparer preparedBy required source => exact hp'
        | recordDecision req => exact hp'
        | approveGate gate humanId source =>
            have htarget : AuditStateMachine.approvalTarget gate = .qaRejected p := hp'
            cases gate <;> cases htarget
        | retryPhase phase humanId source => cases hp'
        | returnForRework phase humanId notes source => cases hp'
        | overrideQaRejection phase humanId reason source => cases hp'
  | beginPhase1 =>
      rcases exec_beginPhase1 f with ⟨-, hb⟩ | ⟨_, _, hb⟩
      · intro p hp
        rw [show step rt f ⟨env, .beginPhase1⟩ = beginPhase1.exec f from rfl, hb] at hp
        cases hp
      · rw [show (step rt f ⟨env, .beginPhase1⟩).2 = f from congrArg Prod.snd hb]
        exact h.kept ⟨rfl, rfl, rfl, rfl, rfl⟩ fun p hp => hp
  | generate q =>
      rcases @generate_cases rt env f _ _ q rfl with
        ⟨e, -, hg⟩ | ⟨hrunning, ks, hks, -, hend⟩
      · rw [show (step rt f ⟨env, .generate q⟩).2 = f from hg]
        exact h.kept ⟨rfl, rfl, rfl, rfl, rfl⟩ fun p hp => hp
      · intro p hp
        have hp' : ((generate rt env q).exec f).2.machine.status = .qaRejected p := hp
        cases hend with
        | stuck e _ _ hmachine =>
            have hmoved := (congrArg (·.status) hmachine).trans hrunning
            cases hmoved.symm.trans hp'
        | ended _ _ _ hend =>
            cases hend with
            | failed hstatus => cases hstatus.symm.trans hp'
            | approved hstatus => cases hstatus.symm.trans hp'
            | rejected hstatus hne hrejected =>
                obtain rfl : q = p := AuditStatus.qaRejected.inj (hstatus.symm.trans hp')
                exact ⟨_, List.mem_append_right _ List.mem_cons_self, rfl, hp, ⟨ks, hks, hne⟩,
                  hrejected, rfl, rfl⟩

theorem rejectedSince_run (theme businessContext : Str) (frameworks : List Str)
    (sessionId : Option Str) (calls : List Call) :
    RejectedSince rt (trace rt (.fresh theme businessContext frameworks sessionId) calls)
      (after rt (.fresh theme businessContext frameworks sessionId) calls) :=
  LabelledRun.history (step rt) (H := RejectedSince rt)
    (fun p hp => absurd hp (by rintro ⟨⟩)) (fun _ s l h => rejectedSince_step s l h) calls

theorem RejectedSince.rejectedRun {past : List (Transition AuditFlow Call (Except Exn Unit))}
    (h : RejectedSince rt past f) (hs : f.machine.status = .qaRejected p)
    (hstored : storedModel f.state p ≠ none) :
    ∃ a, storedModel f.state p = some a ∧
      ∃ t ∈ past, RejectedRun rt p t a ∧ f.kickoffs = t.after.kickoffs := by
  obtain ⟨t, ht, hcall, hts, ⟨ks, hks, hne⟩, ⟨k, qa, artifact, hk, hread, hkept⟩, hsame,
    hkickoffs⟩ := h p hs
  obtain ⟨a, ha⟩ := Option.ne_none_iff_exists'.mp hstored
  have hartifact : artifact = some a := by
    rcases hkept with hnone | hsome
    · rw [hsame, hnone] at ha
      cases ha
    · rw [← hsome, ← hsame, ha]
  subst hartifact
  have hlast : ks.getLast? = some k := by
    rw [hks.kickoffs, List.getLast?_append] at hk
    obtain ⟨b, hb⟩ : ∃ b, ks.getLast? = some b := ⟨_, List.getLast?_eq_some_getLast hne⟩
    rw [hb, Option.some_or] at hk
    rw [hb, hk]
  exact ⟨a, ha, t, ht, ⟨hcall, hts, ⟨ks, k, qa, hks, hlast, hread⟩, hsame ▸ ha⟩, hkickoffs⟩

theorem storedModel_ne_none {s : AuditState} {dumped : Json} (h : s.artifact p = some dumped) :
    storedModel s p ≠ none := by
  cases p with
  | planning => cases hs : s.racmPlan <;> simp_all [AuditState.artifact, storedModel]
  | fieldwork => cases hs : s.workingPapers <;> simp_all [AuditState.artifact, storedModel]
  | reporting => cases hs : s.finalReport <;> simp_all [AuditState.artifact, storedModel]

/-- QA fails closed: over every run, a phase comes to its gate only through a run whose last
attempt QA approved, or through an override of a rejected run of which the artifact is; and a phase
run makes at most two crew attempts. -/
theorem gate_entered (rt : Runtime) (theme businessContext : Str) (frameworks : List Str)
    (sessionId : Option Str) (calls : List Call) (c : Call) :
    let start := AuditFlow.fresh theme businessContext frameworks sessionId
    let f := after rt start calls
    let g := (step rt f c).2
    (∀ p, g.machine.status = .waitingHumanGate p → f.machine.status ≠ .waitingHumanGate p →
      EnteredByQa rt c p f g ∨ EnteredByOverride rt (trace rt start calls) c p f) ∧
    ∀ p, c.op = .generate p → ∃ ks, TwoKickoffs p f g ks := by
  intro start f g
  constructor
  · intro p hs hf
    rcases (@entered_cases rt _ g) rfl hs hf with hqa |
      ⟨phase, humanId, reason, source, plan, hop, rfl, hover⟩
    · exact .inl hqa
    · right
      obtain ⟨dumped, hdumped, -⟩ := hover.artifact
      have hrun := (rejectedSince_run theme businessContext frameworks sessionId
        calls).rejectedRun hover.status (storedModel_ne_none hdumped)
      refine ⟨⟨phase, humanId, reason, source, hop, hover.phase, ?_⟩, hover.status, hrun⟩
      rw [← hover.reason]
      exact hover.reason_ne
  · intro p hop
    obtain ⟨env, op⟩ := c
    obtain rfl : op = .generate p := hop
    rcases @generate_cases rt env f _ _ p rfl with
      ⟨e, -, hg⟩ | ⟨-, ks, hks, -, -⟩
    · exact ⟨[], .none (congrArg (·.kickoffs) hg)⟩
    · exact ⟨ks, hks⟩

end AuditFlow

end AuditSwarm
