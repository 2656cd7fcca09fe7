import AuditSwarm.Properties.CarriedFeedback

/-!
# What reaches a crew

A phase run calls its crew at most twice.  The first call gets the inputs of the phase with the
feedback the run starts with, and the second the same inputs with that feedback followed by the
reason the first draft was rejected for.
-/

namespace AuditSwarm

open Python

namespace AuditFlow

variable {rt : Runtime} {env : Env} {f : AuditFlow} {p : Phase}
  {kickoff : Phase → Nat → CrewInputs → Except Raised (List TaskOutput)}

def crewInputs (rt : Runtime) (f : AuditFlow) : Phase → Except Exn CrewInputs
  | .planning => f.planningInputs
  | .fieldwork => f.fieldworkInputs
  | .reporting => f.reportingInputs rt

def firstInputs (f : AuditFlow) (p : Phase) (inputs : CrewInputs) : CrewInputs :=
  { inputs with feedback := f.startingFeedback p }

/-- The inputs of the second attempt, after the first was rejected for a reason. -/
def secondInputs (f : AuditFlow) (p : Phase) (inputs : CrewInputs) (reason : Str) : CrewInputs :=
  { inputs with feedback := f.startingFeedback p ++ qaFeedback p reason }

/-- The reason an attempt on this flow is rejected for, if it does not crash and is rejected. -/
def attemptRejection (rt : Runtime) (env : Env) (p : Phase) (attempt : Nat) (inputs : CrewInputs)
    (f : AuditFlow) : Option Str :=
  match ((runAttempt rt env p attempt inputs).exec f).1 with
  | .ok (.ok judged) => judged.rejection
  | _ => none

/-- Another crew does the same on what the two attempts of a run give it. -/
def CrewsAgree (rt : Runtime) (env : Env)
    (kickoff : Phase → Nat → CrewInputs → Except Raised (List TaskOutput)) (f : AuditFlow)
    (p : Phase) : Prop :=
  ∀ inputs, crewInputs rt f p = .ok inputs →
    kickoff p 1 (f.firstInputs p inputs) = env.kickoff p 1 (f.firstInputs p inputs) ∧
      ∀ reason, attemptRejection rt env p 1 (f.firstInputs p inputs) f = some reason →
        kickoff p 2 (f.secondInputs p inputs reason) =
          env.kickoff p 2 (f.secondInputs p inputs reason)

/-! ## The attempts -/

theorem runAttempt_congr {attempt : Nat} {inputs : CrewInputs}
    (h : kickoff p attempt inputs = env.kickoff p attempt inputs) :
    runAttempt rt { env with kickoff := kickoff } p attempt inputs =
      runAttempt rt env p attempt inputs := by
  unfold runAttempt
  dsimp only
  rw [h]
  rfl

theorem attemptRejection_of_exec {attempt : Nat} {inputs : CrewInputs} {judged : Judged}
    {g : AuditFlow} (h : (runAttempt rt env p attempt inputs).exec f = (.ok (.ok judged), g)) :
    attemptRejection rt env p attempt inputs f = judged.rejection := by
  unfold attemptRejection
  rw [h]

/-- What an attempt is rejected for does not depend on what the run has recorded of itself. -/
theorem attemptRejection_readied {attempt : Nat} {inputs : CrewInputs}
    (skills : List Skill × List Str) (runs : List GenerationRun) :
    attemptRejection rt env p attempt inputs ((readied skills f).withRuns runs) =
      attemptRejection rt env p attempt inputs f := by
  unfold attemptRejection runAttempt updateRun
  simp only [Proc.exec_modify_bind]
  cases hread : readOutputs rt p (env.kickoff p attempt inputs) with
  | error exc => rfl
  | ok out =>
      rcases out with ⟨qa, artifact⟩
      rfl

theorem attemptRejection_moveTo {attempt : Nat} {inputs : CrewInputs} (status : AuditStatus) :
    attemptRejection rt env p attempt inputs (f.moveTo status) =
      attemptRejection rt env p attempt inputs f := by
  unfold attemptRejection runAttempt updateRun
  simp only [Proc.exec_modify_bind]
  cases hread : readOutputs rt p (env.kickoff p attempt inputs) with
  | error exc => rfl
  | ok out =>
      rcases out with ⟨qa, artifact⟩
      rfl

theorem crewLoop_second_congr {seeded : Str} {inputs : CrewInputs} {last : Judged}
    (h : kickoff p 2 inputs = env.kickoff p 2 inputs) :
    crewLoop rt { env with kickoff := kickoff } p seeded 1 2 inputs last =
      crewLoop rt env p seeded 1 2 inputs last := by
  unfold crewLoop
  rw [runAttempt_congr h]
  rfl

theorem exec_crewLoop_congr {seeded : Str} {inputs : CrewInputs} {last : Judged}
    (hfirst : kickoff p 1 inputs = env.kickoff p 1 inputs)
    (hsecond : ∀ reason, attemptRejection rt env p 1 inputs f = some reason →
      kickoff p 2 { inputs with feedback := seeded ++ qaFeedback p reason } =
        env.kickoff p 2 { inputs with feedback := seeded ++ qaFeedback p reason }) :
    (crewLoop rt { env with kickoff := kickoff } p seeded 2 1 inputs last).exec f =
      (crewLoop rt env p seeded 2 1 inputs last).exec f := by
  unfold crewLoop
  rw [runAttempt_congr hfirst]
  rcases hattempt : (runAttempt rt env p 1 inputs).exec f with ⟨r, g⟩
  rw [Proc.exec_bind, Proc.exec_bind, hattempt]
  cases r with
  | error err => rfl
  | ok ended =>
      cases ended with
      | error text => rfl
      | ok judged =>
          dsimp only
          cases hrejection : judged.rejection with
          | none => rfl
          | some reason =>
              have hreason := attemptRejection_of_exec hattempt
              rw [hrejection] at hreason
              have hloop := @crewLoop_second_congr rt env p kickoff seeded
                { inputs with feedback := seeded ++ qaFeedback p reason } judged
                (hsecond reason hreason)
              exact congrArg (fun loop : FlowM Bool => loop.exec g) hloop

/-! ## The run -/

theorem exec_runCrewWithQa_congr {inputs : CrewInputs}
    (hfirst : kickoff p 1 inputs = env.kickoff p 1 inputs)
    (hsecond : ∀ runs reason, attemptRejection rt env p 1 inputs (f.withRuns runs) = some reason →
      kickoff p 2 { inputs with feedback := inputs.feedback ++ qaFeedback p reason } =
        env.kickoff p 2 { inputs with feedback := inputs.feedback ++ qaFeedback p reason }) :
    (runCrewWithQa rt { env with kickoff := kickoff } p inputs).exec f =
      (runCrewWithQa rt env p inputs).exec f := by
  have hstart : startGenerationRun rt { env with kickoff := kickoff } p =
      startGenerationRun rt env p := rfl
  unfold runCrewWithQa
  rw [hstart, Proc.exec_bind, Proc.exec_bind, exec_startGenerationRun]
  cases newGenerationRun rt env p f with
  | error err => rfl
  | ok run => exact exec_crewLoop_congr hfirst (hsecond (f.state.generationRuns ++ [run]))

theorem feedback_crewInputs {inputs : CrewInputs} (h : crewInputs rt f p = .ok inputs) :
    inputs.feedback = [] := by
  cases p with
  | planning =>
      rw [← Except.ok.inj h]
      rfl
  | fieldwork =>
      rw [← Except.ok.inj h]
      rfl
  | reporting =>
      rcases Except.bind_eq_ok_iff.mp h with ⟨papers, -, h⟩
      split at h
      · cases h
      · rw [← Except.ok.inj h]
        rfl

theorem withFeedback_nil {inputs : CrewInputs} (h : inputs.feedback = []) :
    { inputs with feedback := [] } = inputs := by
  rw [← h]

theorem seedFeedback_eq {inputs : CrewInputs} (h : inputs.feedback = []) :
    f.seedFeedback p inputs = f.firstInputs p inputs := by
  unfold firstInputs
  rw [startingFeedback_eq]
  unfold seedFeedback
  cases f.carriedFeedback p with
  | none => exact (withFeedback_nil h).symm
  | some feedback =>
      dsimp only
      rw [Option.getD_some]
      split
      · rename_i hnil
        rw [hnil]
        exact (withFeedback_nil h).symm
      · rfl

theorem crewInputs_readied (skills : List Skill × List Str) :
    (runner rt env p).inputs (readied skills f) = crewInputs rt f p := by
  cases p <;> rfl

/-- The run of a phase whose crew is swapped for one that agrees on what it is given. -/
theorem exec_run_congr (hs : f.machine.status = .running p)
    (h : CrewsAgree rt env kickoff f p) :
    ((runner rt { env with kickoff := kickoff } p).run rt { env with kickoff := kickoff }).exec f =
      ((runner rt env p).run rt env).exec f := by
  unfold PhaseRunner.run
  simp only [Proc.exec_get_bind, runner_phase, hs, ne_eq, not_true_eq_false, if_false]
  have hprepared : prepared { env with kickoff := kickoff } p f = prepared env p f := rfl
  rw [Proc.exec_bind, Proc.exec_bind, exec_prepareSkills, exec_prepareSkills, hprepared]
  cases prepared env p f with
  | error err => rfl
  | ok skills =>
      dsimp only
      rw [exec_setQaRejectionReason_bind, exec_setQaRejectionReason_bind, Proc.exec_get_bind,
        Proc.exec_get_bind,
        show (f.withSkills skills.1 skills.2).withQaReason none = readied skills f from rfl]
      have hmissing : (runner rt { env with kickoff := kickoff } p).missingInput
          (readied skills f) = (runner rt env p).missingInput (readied skills f) := by
        cases p <;> rfl
      rw [hmissing]
      cases (runner rt env p).missingInput (readied skills f) with
      | some reason => rfl
      | none =>
          dsimp only
          rw [Proc.exec_ofExcept_bind, Proc.exec_ofExcept_bind, crewInputs_readied,
            crewInputs_readied]
          cases hinputs : crewInputs rt f p with
          | error err => rfl
          | ok inputs =>
              dsimp only
              have hseed : (readied skills f).seedFeedback p inputs = f.firstInputs p inputs :=
                seedFeedback_eq (f := f) (feedback_crewInputs hinputs)
              rcases h inputs hinputs with ⟨hfirst, hsecond⟩
              have hcrew := @exec_runCrewWithQa_congr rt env (readied skills f) p kickoff
                (f.firstInputs p inputs) hfirst fun runs reason hreason =>
                  hsecond reason ((attemptRejection_readied skills runs).symm.trans hreason)
              rw [hseed, Proc.exec_bind, Proc.exec_bind, hcrew]
              cases p <;> rfl

theorem exec_run_refused (hs : f.machine.status ≠ .running p) :
    ((runner rt env p).run rt env).exec f =
      (.error (.runtimeError ((runner rt env p).refusal ++ f.machine.status.value ++ lit ")")),
        f) := by
  unfold PhaseRunner.run
  simp only [Proc.exec_get_bind, runner_phase, ne_eq, hs, not_false_eq_true, if_true]
  rfl

/-- What reaches a crew: a phase run depends on its crew only through the first attempt on the
inputs of the phase with the feedback the run starts with, and, when that draft is rejected, the
second attempt on the same inputs with that feedback followed by the new reason. -/
theorem crew_sees_only (rt : Runtime) (env : Env)
    (kickoff : Phase → Nat → CrewInputs → Except Raised (List TaskOutput)) (f : AuditFlow)
    (p : Phase) (h : CrewsAgree rt env kickoff f p) :
    (generate rt { env with kickoff := kickoff } p).exec f = (generate rt env p).exec f := by
  rw [exec_generate, exec_generate]
  by_cases hs : (started p f).machine.status = .running p
  · refine exec_run_congr hs ?_
    unfold started
    split
    · rename_i hplanning
      rcases hplanning.1 with rfl
      intro inputs hinputs
      rcases h inputs hinputs with ⟨hfirst, hsecond⟩
      refine ⟨hfirst, fun reason hreason => hsecond reason ?_⟩
      exact (attemptRejection_moveTo (.running .planning)).symm.trans hreason
    · exact h
  · rw [exec_run_refused hs, exec_run_refused hs]
    have hrefusal : (runner rt { env with kickoff := kickoff } p).refusal =
        (runner rt env p).refusal := by
      cases p <;> rfl
    rw [hrefusal]

end AuditFlow

namespace Sample

/-- A crew whose first draft is rejected without a reason. -/
def secondDraft : Phase → Nat → CrewInputs → Except Raised (List TaskOutput) :=
  fun p attempt _ => .ok (outputs p (.racm smallRacm) (attempt ≠ 1))

/-- A crew that knows nothing but the two prompts that are to reach it. -/
def onlyPrompts : Phase → Nat → CrewInputs → Except Raised (List TaskOutput) :=
  fun p attempt inputs =>
    if attempt = 1 ∧ inputs.feedback = [] ∨
        attempt = 2 ∧ inputs.feedback = AuditFlow.qaFeedback p AuditFlow.qaNoReason then
      secondDraft p attempt inputs
    else .error ⟨lit "KeyError", lit "prompt"⟩

end Sample

namespace AuditFlow

theorem crew_sees_only_prompts :
    (generate Sample.rt { Sample.env "u1" Sample.secondDraft with kickoff := Sample.onlyPrompts }
        .planning).exec (.fresh (lit "Access") (lit "A bank") [] none) =
      (generate Sample.rt (Sample.env "u1" Sample.secondDraft) .planning).exec
        (.fresh (lit "Access") (lit "A bank") [] none) := by
  refine crew_sees_only Sample.rt (Sample.env "u1" Sample.secondDraft) Sample.onlyPrompts
    (.fresh (lit "Access") (lit "A bank") [] none) .planning fun inputs hinputs => ?_
  cases hinputs
  refine ⟨rfl, fun reason hreason => ?_⟩
  have hno : attemptRejection Sample.rt (Sample.env "u1" Sample.secondDraft) .planning 1
      (firstInputs (.fresh (lit "Access") (lit "A bank") [] none) .planning
        (scopeInputs (.fresh (lit "Access") (lit "A bank") [] none)))
      (.fresh (lit "Access") (lit "A bank") [] none) = some qaNoReason := by decide +kernel
  have hsame : reason = qaNoReason := Option.some.inj (hreason.symm.trans hno)
  rw [hsame]
  exact if_pos (.inr ⟨rfl, rfl⟩)

end AuditFlow

end AuditSwarm
