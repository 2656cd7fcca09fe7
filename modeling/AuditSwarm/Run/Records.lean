import AuditSwarm.Run.Entries

/-!
# The generation records of a run

A phase run that gets to its crew appends one record, fills it in, and ends it with one outcome.
Nothing else touches the records of a flow.
-/

namespace AuditSwarm

open Python StrEnum

namespace AuditFlow

variable {rt : Runtime} {env : Env} {f g : AuditFlow} {r : Except Exn Unit} {p : Phase}
variable {before : List GenerationRun} {start : GenerationRun}

/-! ## The record in progress -/

/-- The fields a run fixes when it starts. -/
structure SameRun (a b : GenerationRun) : Prop where
  runId : b.runId = a.runId
  phase : b.phase = a.phase
  provider : b.provider = a.provider
  model : b.model = a.model
  promptFingerprint : b.promptFingerprint = a.promptFingerprint
  temperature : b.temperature = a.temperature
  qaTemperature : b.qaTemperature = a.qaTemperature

theorem SameRun.refl (a : GenerationRun) : SameRun a a := ⟨rfl, rfl, rfl, rfl, rfl, rfl, rfl⟩

theorem SameRun.trans {a b c : GenerationRun} (h : SameRun a b) (h' : SameRun b c) :
    SameRun a c :=
  ⟨h'.runId.trans h.runId, h'.phase.trans h.phase, h'.provider.trans h.provider,
    h'.model.trans h.model, h'.promptFingerprint.trans h.promptFingerprint,
    h'.temperature.trans h.temperature, h'.qaTemperature.trans h.qaTemperature⟩

/-- The temperatures a phase run records. -/
structure Tempered (run : GenerationRun) : Prop where
  temperature : run.temperature = 0 ∨ run.temperature = 1 / 10
  qaTemperature : run.qaTemperature = 0

theorem SameRun.tempered {a b : GenerationRun} (h : SameRun a b) (ha : Tempered a) :
    Tempered b where
  temperature := by rw [h.temperature]; exact ha.temperature
  qaTemperature := h.qaTemperature.trans ha.qaTemperature

/-- The last record of the flow is that of a run in progress. -/
def Recording (before : List GenerationRun) (start : GenerationRun) (f : AuditFlow) : Prop :=
  ∃ run : GenerationRun, f.state.generationRuns = before ++ [run] ∧ SameRun start run

/-- The last record of the flow is that of a run that ended with the outcome. -/
def RecordedAs (before : List GenerationRun) (start : GenerationRun) (outcome : String)
    (f : AuditFlow) : Prop :=
  ∃ run : GenerationRun, f.state.generationRuns = before ++ [run] ∧ SameRun start run ∧
    run.outcome = lit outcome ∧ run.endedAt.isSome = true

theorem Recording.congr (h : Recording before start f)
    (hruns : g.state.generationRuns = f.state.generationRuns) : Recording before start g := by
  obtain ⟨run, hrun, hsame⟩ := h
  exact ⟨run, hruns.trans hrun, hsame⟩

theorem RecordedAs.congr {outcome : String} (h : RecordedAs before start outcome f)
    (hruns : g.state.generationRuns = f.state.generationRuns) :
    RecordedAs before start outcome g := by
  obtain ⟨run, hrun, hsame⟩ := h
  exact ⟨run, hruns.trans hrun, hsame⟩

theorem Recording.fill (h : Recording before start f) {fill : GenerationRun → GenerationRun}
    (hruns : g.state.generationRuns = f.state.generationRuns.modifyLast fill)
    (hfill : ∀ run, SameRun run (fill run)) : Recording before start g := by
  obtain ⟨run, hrun, hsame⟩ := h
  refine ⟨fill run, ?_, hsame.trans (hfill run)⟩
  rw [hruns, hrun, List.modifyLast_concat]

theorem Recording.endRun (h : Recording before start f) (env : Env) (outcome : String) :
    RecordedAs before start outcome ((AuditFlow.endRun env outcome).exec f).2 := by
  obtain ⟨run, hrun, hsame⟩ := h
  refine ⟨{ run with endedAt := some (env.now 1), outcome := lit outcome }, ?_, ?_, rfl, rfl⟩
  · unfold AuditFlow.endRun
    rw [exec_updateRun]
    simp only [withRuns, hrun, List.modifyLast_concat]
  · exact hsame.trans ⟨rfl, rfl, rfl, rfl, rfl, rfl, rfl⟩

/-! ## Attempts and ends -/

theorem runAttempt_recording {attempt : Nat} {inputs : CrewInputs} {r : Except Exn AttemptEnd}
    (h : (runAttempt rt env p attempt inputs).exec f = (r, g)) (hf : Recording before start f) :
    Recording before start g := by
  have hattempt : Recording before start
      (f.withRuns (f.state.generationRuns.modifyLast fun run => { run with attempts := attempt })) :=
    hf.fill rfl fun run => ⟨rfl, rfl, rfl, rfl, rfl, rfl, rfl⟩
  unfold runAttempt updateRun at h
  simp only [Proc.exec_modify_bind] at h
  cases hread : readOutputs rt p (env.kickoff p attempt inputs) with
  | error exc =>
      simp only [hread, Proc.exec_pure, Prod.mk.injEq] at h
      rw [← h.2]
      exact hattempt.congr rfl
  | ok out =>
      simp only [hread, Proc.exec_get_bind, Proc.exec_modify_bind, Proc.exec_pure,
        Prod.mk.injEq] at h
      rw [← h.2]
      exact hattempt.fill rfl fun run => ⟨rfl, rfl, rfl, rfl, rfl, rfl, rfl⟩

theorem generationRuns_keptArtifact (rt : Runtime) (p : Phase) (artifact : Option PyModel)
    (s : AuditState) : (keptArtifact rt p artifact s).generationRuns = s.generationRuns := by
  unfold keptArtifact storeArtifact clearArtifact
  cases p <;> rcases artifact with _ | (_ | _ | _ | _ | _) <;> rfl

theorem generationRuns_storeArtifact {artifact : Option PyModel} {s t : AuditState}
    (h : storeArtifact rt p artifact s = .ok t) : t.generationRuns = s.generationRuns := by
  have hkept := generationRuns_keptArtifact rt p artifact s
  unfold keptArtifact at hkept
  rw [h] at hkept
  exact hkept

theorem crash_records (hs : f.machine.status = .running p) (hf : Recording before start f)
    (reason : Str) :
    RecordedAs before start "error"
      ((do endRun env "error"; failPhase p reason; return false : FlowM Bool).exec f).2 := by
  have hend := hf.endRun env "error"
  obtain ⟨runs, hruns⟩ := @exec_endRun env "error" f
  rw [hruns] at hend
  rw [Proc.exec_bind_ok hruns,
    Proc.exec_bind_ok (@exec_failPhase p (f.withRuns runs) hs reason)]
  exact hend.congr rfl

theorem rejectRun_records (hs : f.machine.status = .running p) (hf : Recording before start f)
    (last : Judged) :
    RecordedAs before start "qa_rejected" ((rejectRun rt env p last).exec f).2 := by
  have hm : f.machine.rejectPhase p = .ok ⟨.qaRejected p⟩ :=
    AuditStateMachine.rejectPhase_eq_ok_iff.mpr ⟨hs, rfl⟩
  have hkept : Recording before start (f.withState (keptArtifact rt p last.artifact f.state)) :=
    hf.congr (generationRuns_keptArtifact rt p last.artifact f.state)
  have hend := hkept.endRun env "qa_rejected"
  unfold endRun updateRun at hend
  unfold rejectRun endRun updateRun
  simp only [Proc.exec_modify_bind, exec_transition_bind, hm]
  exact hend.congr rfl

/-- How the record of a crew loop ends: with the outcome the loop reports. -/
inductive LoopRecord (p : Phase) (before : List GenerationRun) (start : GenerationRun)
    (r : Except Exn Bool) (g : AuditFlow) : Prop
  | approved (hr : r = .ok true) (hrecord : RecordedAs before start "qa_approved" g)
  | rejected (hr : r = .ok false) (hstatus : g.machine.status = .qaRejected p)
      (hrecord : RecordedAs before start "qa_rejected" g)
  | failed (hr : r = .ok false) (hstatus : g.machine.status = .error p)
      (hrecord : RecordedAs before start "error" g)

theorem crash_loopRecord (hs : f.machine.status = .running p) (hf : Recording before start f)
    {reason : Str} {r : Except Exn Bool}
    (h : (do endRun env "error"; failPhase p reason; return false : FlowM Bool).exec f = (r, g)) :
    LoopRecord p before start r g := by
  have hrecord := @crash_records env f p before start hs hf reason
  obtain ⟨g', hg, hend, -⟩ := @crash_ended env p f hs reason
  rw [h] at hrecord
  obtain ⟨rfl, rfl⟩ := Prod.mk.inj (hg.symm.trans h)
  exact .failed rfl hend.status hrecord

theorem approveRun_records (hs : f.machine.status = .running p) (hf : Recording before start f)
    {artifact : Option PyModel} {r : Except Exn Bool}
    (h : (approveRun rt env p artifact).exec f = (r, g)) : LoopRecord p before start r g := by
  unfold approveRun at h
  cases artifact with
  | none => exact crash_loopRecord hs hf h
  | some a =>
      simp only [Option.isNone_some, Bool.false_eq_true, if_false, Proc.exec_get_bind] at h
      cases hstore : storeArtifact rt p (some a) f.state with
      | error err =>
          rw [hstore] at h
          exact crash_loopRecord hs hf h
      | ok s =>
          rw [hstore] at h
          have hkept : Recording before start (f.withState s) :=
            hf.congr (generationRuns_storeArtifact hstore)
          have hend := hkept.endRun env "qa_approved"
          obtain ⟨rfl, rfl⟩ := Prod.mk.inj h
          exact .approved rfl hend

/-- The record of the crew loop: kept through its attempts, and ended with its outcome. -/
theorem crewLoop_records {seeded : Str} {n attempt : Nat} {inputs : CrewInputs} {last : Judged}
    {r : Except Exn Bool} (hs : f.machine.status = .running p)
    (hf : Recording before start f)
    (h : (crewLoop rt env p seeded n attempt inputs last).exec f = (r, g)) :
    LoopRecord p before start r g := by
  induction n generalizing f attempt inputs last with
  | zero =>
      have hrecord := @rejectRun_records rt env f p before start hs hf last
      obtain ⟨g', hg, hend, -⟩ := (@rejectRun_ended rt env) hs last
      unfold crewLoop at h
      rw [Proc.exec_bind_ok hg, Proc.exec_pure, Prod.mk.injEq] at h
      obtain ⟨rfl, rfl⟩ := h
      rw [hg] at hrecord
      exact .rejected rfl hend.status hrecord
  | succ n ih =>
      unfold crewLoop at h
      rcases hattempt : (runAttempt rt env p attempt inputs).exec f with ⟨ra, f1⟩
      have hf1 := runAttempt_recording hattempt hf
      obtain ⟨runs, rfl, hcases⟩ := runAttempt_cases hattempt
      set f1 := (f.withRuns runs).withKickoff ⟨p, env.kickoff p attempt inputs⟩
      have hs1 : f1.machine.status = .running p := hs
      clear_value f1
      rcases hcases with ⟨text, rfl⟩ | ⟨qa, j, rfl, -, -⟩
      · rw [Proc.exec_bind_ok hattempt] at h
        exact crash_loopRecord hs1 hf1 h
      · rw [Proc.exec_bind_ok hattempt] at h
        cases hrej : j.rejection with
        | none =>
            simp only [hrej] at h
            exact approveRun_records hs1 hf1 h
        | some rejection =>
            simp only [hrej] at h
            exact ih hs1 hf1 h

/-! ## One call -/

/-- The outcome of a run and the status it ends in. -/
def OutcomeAgrees (p : Phase) (run : GenerationRun) (s : AuditStatus) : Prop :=
  (run.outcome = lit "qa_approved" ∧ s = .waitingHumanGate p) ∨
    (run.outcome = lit "qa_rejected" ∧ s = .qaRejected p) ∨
    (run.outcome = lit "error" ∧ s = .error p)

structure RunRecorded (env : Env) (p : Phase) (run : GenerationRun) (f g : AuditFlow) :
    Prop where
  appended : g.state.generationRuns = f.state.generationRuns ++ [run]
  runId : run.runId = env.uuid
  phase : run.phase = p
  ended : run.endedAt.isSome = true
  agrees : OutcomeAgrees p run g.machine.status

def inputPhase : Phase → Option Phase
  | .planning => none
  | .fieldwork => some .planning
  | .reporting => some .fieldwork

/-- What a phase run leaves in the records: nothing when its set-up raised or its input was
missing, or else its own record. -/
inductive RunRecord (env : Env) (p : Phase) (f g : AuditFlow) (r : Except Exn Unit) : Prop
  | stuck (hruns : g.state.generationRuns = f.state.generationRuns)
      (hstatus : g.machine.status = .running p) (hr : r ≠ .ok ())
  | missing (hruns : g.state.generationRuns = f.state.generationRuns)
      (hstatus : g.machine.status = .error p)
      (hinput : ∃ q, inputPhase p = some q ∧ storedModel f.state q = none)
  | recorded (run : GenerationRun) (hrun : RunRecorded env p run f g) (htempered : Tempered run)

theorem missingInput_eq_some {skills : List Skill × List Str} {reason : Str}
    (h : (runner rt env p).missingInput (readied skills f) = some reason) :
    ∃ q, inputPhase p = some q ∧ storedModel f.state q = none := by
  cases p with
  | planning => cases h
  | fieldwork =>
      refine ⟨.planning, rfl, ?_⟩
      have hmissing : (if f.state.racmPlan.isNone then
        some (lit "Cannot run Fieldwork: no Phase 1 RACM in state.") else none) = some reason := h
      cases hracm : f.state.racmPlan with
      | none => simp [storedModel, hracm]
      | some m =>
          rw [hracm] at hmissing
          cases hmissing
  | reporting =>
      refine ⟨.fieldwork, rfl, ?_⟩
      have hmissing : (if f.state.workingPapers.isNone then
        some (lit "Cannot run Reporting: no Phase 2 working papers in state.") else none) =
          some reason := h
      cases hpapers : f.state.workingPapers with
      | none => simp [storedModel, hpapers]
      | some m =>
          rw [hpapers] at hmissing
          cases hmissing

theorem newGenerationRun_eq_ok {run : GenerationRun}
    (h : newGenerationRun rt env p f = .ok run) :
    run.runId = env.uuid ∧ run.phase = p ∧ Tempered run := by
  unfold newGenerationRun at h
  dsimp only at h
  have htemperature : (if demoModeRequested rt env = true then (0 : Rat) else 1 / 10) = 0 ∨
      (if demoModeRequested rt env = true then (0 : Rat) else 1 / 10) = 1 / 10 := by
    split
    · exact .inl rfl
    · exact .inr rfl
  split at h
  all_goals
    simp only [Except.bind_eq_ok_iff, Except.pure_eq_ok_iff] at h
  · obtain ⟨_, -, _, -, rfl⟩ := h
    exact ⟨rfl, rfl, htemperature, rfl⟩
  · obtain ⟨_, -, _, -, rfl⟩ := h
    exact ⟨rfl, rfl, htemperature, rfl⟩

theorem RecordedAs.recorded {outcome : String} {k : AuditFlow}
    (h : RecordedAs f.state.generationRuns start outcome g) (hid : start.runId = env.uuid)
    (hphase : start.phase = p) (htempered : Tempered start)
    (hruns : k.state.generationRuns = g.state.generationRuns)
    (hagrees : ∀ run : GenerationRun, run.outcome = lit outcome →
      OutcomeAgrees p run k.machine.status) : RunRecord env p f k r := by
  obtain ⟨run, hrun, hsame, houtcome, hended⟩ := h
  exact .recorded run ⟨hruns.trans hrun, hsame.runId.trans hid, hsame.phase.trans hphase, hended,
    hagrees run houtcome⟩ (hsame.tempered htempered)

/-- A run whose record was started ends with one outcome, which the status shows. -/
theorem crewPhase_records {inputs : CrewInputs} (hs : f.machine.status = .running p)
    (hrun : newGenerationRun rt env p f = .ok start)
    (h : (crewPhase rt env p inputs).exec f = (r, g)) : RunRecord env p f g r := by
  obtain ⟨hid, hphase, htempered⟩ := newGenerationRun_eq_ok hrun
  have hstart := @exec_startGenerationRun rt env p f
  simp only [hrun] at hstart
  rcases hloop : (crewLoop rt env p inputs.feedback maxQaAttempts 1 inputs
    ⟨none, none, false⟩).exec (f.withRuns (f.state.generationRuns ++ [start])) with ⟨rl, g1⟩
  have hcrew : (runCrewWithQa rt env p inputs).exec f = (rl, g1) := by
    unfold runCrewWithQa
    rw [Proc.exec_bind_ok hstart, hloop]
  have hrecording : Recording f.state.generationRuns start
      (f.withRuns (f.state.generationRuns ++ [start])) := ⟨start, rfl, .refl start⟩
  obtain ⟨ks, -, -, hends⟩ :=
    crewLoop_cases (f := f.withRuns (f.state.generationRuns ++ [start])) hs
      (fun h0 => absurd h0 (by simp [maxQaAttempts])) hloop
  have hrecord := crewLoop_records (f := f.withRuns (f.state.generationRuns ++ [start])) hs
    hrecording hloop
  unfold crewPhase at h
  cases hrecord with
  | approved hr hrecord =>
      subst hr
      have hm : g1.machine = f.machine := by
        rcases hends with ⟨hr, -⟩ | ⟨hr, -⟩ | ⟨-, hm, -⟩
        · cases hr
        · cases hr
        · exact hm
      have hdone : g1.machine.completePhase p = .ok ⟨.waitingHumanGate p⟩ :=
        AuditStateMachine.completePhase_eq_ok_iff.mpr ⟨by rw [hm]; exact hs, rfl⟩
      rw [Proc.exec_bind_ok hcrew, if_pos rfl, exec_transition_bind, hdone] at h
      obtain ⟨-, rfl⟩ := Prod.mk.inj h
      exact hrecord.recorded hid hphase htempered rfl fun run houtcome => .inl ⟨houtcome, rfl⟩
  | rejected hr hstatus hrecord =>
      subst hr
      rw [Proc.exec_bind_ok hcrew] at h
      obtain ⟨-, rfl⟩ := Prod.mk.inj h
      exact hrecord.recorded hid hphase htempered rfl fun run houtcome => .inr (.inl ⟨houtcome, hstatus⟩)
  | failed hr hstatus hrecord =>
      subst hr
      rw [Proc.exec_bind_ok hcrew] at h
      obtain ⟨-, rfl⟩ := Prod.mk.inj h
      exact hrecord.recorded hid hphase htempered rfl fun run houtcome => .inr (.inr ⟨houtcome, hstatus⟩)

theorem run_records (hs : f.machine.status = .running p)
    (h : ((runner rt env p).run rt env).exec f = (r, g)) : RunRecord env p f g r := by
  unfold PhaseRunner.run at h
  simp only [Proc.exec_get_bind, runner_phase, hs, ne_eq, not_true_eq_false, if_false] at h
  have hprep := @exec_prepareSkills rt env p f
  cases hskills : prepared env p f with
  | error e =>
      rw [hskills] at hprep
      simp only [Proc.exec_bind, hprep, Prod.mk.injEq] at h
      obtain ⟨rfl, rfl⟩ := h
      exact .stuck rfl hs (by simp)
  | ok skills =>
      rw [hskills] at hprep
      rw [Proc.exec_bind_ok hprep, exec_setQaRejectionReason_bind, Proc.exec_get_bind] at h
      rw [show (f.withSkills skills.1 skills.2).withQaReason none = readied skills f from rfl] at h
      have hs' : (readied skills f).machine.status = .running p := hs
      cases hmissing : (runner rt env p).missingInput (readied skills f) with
      | some reason =>
          simp only [hmissing] at h
          obtain ⟨-, rfl⟩ := Prod.mk.inj ((exec_failPhase hs' reason).symm.trans h)
          exact .missing rfl rfl (missingInput_eq_some hmissing)
      | none =>
          simp only [hmissing, Proc.exec_ofExcept_bind] at h
          cases hinputs : (runner rt env p).inputs (readied skills f) with
          | error e =>
              simp only [hinputs] at h
              obtain ⟨rfl, rfl⟩ := Prod.mk.inj h
              exact .stuck rfl hs (by simp)
          | ok inputs =>
              simp only [hinputs] at h
              cases hrun : newGenerationRun rt env p (readied skills f) with
              | error e =>
                  have hcrew : (runCrewWithQa rt env p
                      ((readied skills f).seedFeedback p inputs)).exec (readied skills f) =
                        (.error e, readied skills f) := by
                    unfold runCrewWithQa
                    rw [Proc.exec_bind, exec_startGenerationRun, hrun]
                  rw [Proc.exec_bind_error hcrew] at h
                  obtain ⟨rfl, rfl⟩ := Prod.mk.inj h
                  exact .stuck rfl hs (by simp)
              | ok run =>
                  cases crewPhase_records hs' hrun h with
                  | stuck hruns hstatus hr => exact .stuck hruns hstatus hr
                  | missing hruns hstatus hinput =>
                      obtain ⟨q, hq, hnone⟩ := hinput
                      exact .missing hruns hstatus
                        ⟨q, hq, (storedModel_congr rfl rfl rfl q).trans hnone⟩
                  | recorded run hrec htempered =>
                      exact .recorded run ⟨hrec.appended, hrec.runId, hrec.phase, hrec.ended,
                        hrec.agrees⟩ htempered

/-- The records after a `generate_*` call: it was refused and changed nothing, or it ran the
phase. -/
theorem generate_records (h : (generate rt env p).exec f = (r, g)) :
    (r ≠ .ok () ∧ g = f) ∨ RunRecord env p f g r := by
  rcases generate_cases h with ⟨e, hr, hg⟩ | ⟨hs, -⟩
  · exact .inl ⟨by rw [hr]; simp, hg⟩
  · right
    rw [exec_generate] at h
    have hruns : (started p f).state.generationRuns = f.state.generationRuns := by
      unfold started
      split <;> rfl
    cases run_records hs h with
    | stuck hsame hstatus hr => exact .stuck (hsame.trans hruns) hstatus hr
    | missing hsame hstatus hinput =>
        obtain ⟨q, hq, hnone⟩ := hinput
        exact .missing (hsame.trans hruns) hstatus ⟨q, hq, (storedModel_started q).symm.trans hnone⟩
    | recorded run hrec htempered =>
        exact .recorded run ⟨by rw [hrec.appended, hruns], hrec.runId, hrec.phase, hrec.ended,
          hrec.agrees⟩ htempered

theorem generationRuns_act {a : RecordedAction} (h : act rt env a f = (r, g)) :
    g.state.generationRuns = f.state.generationRuns := by
  rcases act_cases h with ⟨err, -, -, rfl⟩ | ⟨k, c, -, -, rfl⟩ | ⟨k, e, -, -, -, rfl⟩
  · rfl
  · cases a <;> rfl
  · cases a <;> rfl

/-- Everything a call does to the records: nothing, or one ended run is appended. -/
theorem records_step (f : AuditFlow) (c : Call) :
    (step rt f c).2.state.generationRuns = f.state.generationRuns ∨
      ∃ p run, c.op = .generate p ∧ RunRecorded c.env p run f (step rt f c).2 ∧
        Tempered run := by
  obtain ⟨env, op⟩ := c
  cases op with
  | record a => exact .inl (generationRuns_act (a := a) rfl)
  | beginPhase1 =>
      left
      rcases exec_beginPhase1 f with ⟨-, h⟩ | ⟨_, _, h⟩
      · exact congrArg (·.2.state.generationRuns) h
      · exact congrArg (·.2.state.generationRuns) h
  | generate p =>
      rcases @generate_records rt env f _ _ p rfl with ⟨-, hg⟩ | hrecord
      · exact .inl (congrArg (·.state.generationRuns) hg)
      · cases hrecord with
        | stuck hruns => exact .inl hruns
        | missing hruns => exact .inl hruns
        | recorded run hrun htempered => exact .inr ⟨p, run, rfl, hrun, htempered⟩

end AuditFlow

end AuditSwarm
