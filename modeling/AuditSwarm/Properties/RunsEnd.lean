import AuditSwarm.Run.Steps

/-!
# Ends of a phase run

A phase run entered from its running status comes to its gate, to a rejection or to an error
exactly when its set-up does not raise: what raises before the crew loop is recorded nowhere, and
the phase stays running.
-/

namespace AuditSwarm

open Python StrEnum

namespace AuditFlow

variable {rt : Runtime} {env : Env} {f g : AuditFlow} {r : Except Exn Unit} {p : Phase}

/-- The reviewer can act: the phase waits at its gate, was rejected by QA or stopped with an
error. -/
def Settled (p : Phase) (f : AuditFlow) : Prop :=
  f.Mirrored ∧ (f.machine.status = .waitingHumanGate p ∨ f.machine.status = .qaRejected p ∨
    f.machine.status = .error p)

/-! ## What the set-up needs -/

/-- The models of the drafting crew and of QA, as the routing check reads them. -/
def crewModel (env : Env) : Str × Str :=
  (env.describeCrewLlm.toOption).getD (lit "unknown", lit "unknown")

def qaModel (env : Env) : Str × Str :=
  (env.describeQaLlm.toOption).getD (lit "unknown", lit "unknown")

/-- The routing check of `_start_generation_run` does not raise: it is off, or the models are not
of one known family. -/
def RoutingPasses (rt : Runtime) (env : Env) : Prop :=
  demoModeRequested rt env = true ∨ flagSet env "AUDIT_ENFORCE_CROSS_FAMILY" = false ∨
    ModelRouting.assertDisjointFamily rt
      ((crewModel env).1 ++ lit "/" ++ (crewModel env).2)
      ((qaModel env).1 ++ lit "/" ++ (qaModel env).2) = .ok ()

/-- The prompt files can be read and the specialist prompt of the skills can be encoded. -/
def FingerprintReady (rt : Runtime) (env : Env) (p : Phase) (skills : List Skill) : Prop :=
  (∀ name ∈ phaseConfigFiles p, ∃ bytes, env.readConfig name = .ok bytes) ∧
    (skills = [] ∨ ∃ prompt, SkillLoader.specialistPrompt rt skills = .ok prompt ∧
      Encodable prompt)

/-- Nothing before the crew loop of a run raises: the skills are found and, unless the artifact
the phase works from is missing, the crew inputs can be built, the routing check passes and the
prompts can be fingerprinted. -/
def CanSetUp (rt : Runtime) (env : Env) (p : Phase) (f : AuditFlow) : Prop :=
  ∃ skills, prepared env p f = .ok skills ∧
    ((runner rt env p).missingInput (readied skills f) = none →
      (∃ inputs, (runner rt env p).inputs (readied skills f) = .ok inputs) ∧
        RoutingPasses rt env ∧ FingerprintReady rt env p skills.1)

theorem mapM_ok_iff {α β ε : Type} {x : α → Except ε β} {as : List α} :
    (∃ bs, as.mapM x = .ok bs) ↔ ∀ a ∈ as, ∃ b, x a = .ok b := by
  induction as with
  | nil => simp [List.mapM_nil, pure, Except.pure]
  | cons a as ih =>
      simp only [List.mapM_cons, Except.bind_eq_ok_iff, Except.pure_eq_ok_iff, List.forall_mem_cons,
        ← ih]
      constructor
      · rintro ⟨_, b, hb, bs, hbs, -⟩
        exact ⟨⟨b, hb⟩, bs, hbs⟩
      · rintro ⟨⟨b, hb⟩, bs, hbs⟩
        exact ⟨_, b, hb, bs, hbs, rfl⟩

theorem raising_ok_iff {α : Type} {x : Except Raised α} :
    (∃ a, raising x = .ok a) ↔ ∃ a, x = .ok a := by
  cases x <;> simp [raising]

theorem promptFingerprint_ok_iff {skills : List Skill} :
    (∃ d, promptFingerprint rt env p skills = .ok d) ↔ FingerprintReady rt env p skills := by
  unfold promptFingerprint FingerprintReady
  have hconfigs : (∃ bs, ((phaseConfigFiles p).mapM fun name => raising (env.readConfig name)) =
      .ok bs) ↔ ∀ name ∈ phaseConfigFiles p, ∃ bytes, env.readConfig name = .ok bytes := by
    rw [mapM_ok_iff]
    exact forall₂_congr fun _ _ => raising_ok_iff
  have hprompts : (∃ bs, encodedPrompts rt skills = .ok bs) ↔
      skills = [] ∨ ∃ prompt, SkillLoader.specialistPrompt rt skills = .ok prompt ∧
        Encodable prompt := by
    unfold encodedPrompts
    by_cases hskills : skills = []
    · simp [hskills]
    · simp only [hskills, if_false, Except.bind_eq_ok_iff, Except.orRaise_eq_ok_iff,
        Except.pure_eq_ok_iff, false_or, Python.Encodable, Option.isSome_iff_exists]
      constructor
      · rintro ⟨_, prompt, hprompt, bytes, hbytes, -⟩
        exact ⟨prompt, hprompt, bytes, hbytes⟩
      · rintro ⟨prompt, hprompt, bytes, hbytes⟩
        exact ⟨_, prompt, hprompt, bytes, hbytes, rfl⟩
  rw [← hconfigs, ← hprompts]
  simp only [Except.bind_eq_ok_iff, Except.pure_eq_ok_iff]
  constructor
  · rintro ⟨_, cs, hcs, bs, hbs, -⟩
    exact ⟨⟨cs, hcs⟩, bs, hbs⟩
  · rintro ⟨⟨cs, hcs⟩, bs, hbs⟩
    exact ⟨_, cs, hcs, bs, hbs, rfl⟩

/-- A computation followed by a function of its value returns when it does. -/
theorem bind_pure_ok_iff {α β ε : Type} {x : Except ε α} {k : α → β} :
    (∃ b, (do let a ← x; pure (k a)) = Except.ok b) ↔ ∃ a, x = .ok a := by
  cases x <;> simp [bind, Except.bind, pure, Except.pure]

theorem newGenerationRun_ok_iff :
    (∃ run, newGenerationRun rt env p f = .ok run) ↔
      RoutingPasses rt env ∧ FingerprintReady rt env p f.skillContext := by
  rw [← promptFingerprint_ok_iff]
  unfold newGenerationRun RoutingPasses crewModel qaModel
  cases hdemo : demoModeRequested rt env with
  | true =>
      simp only [Bool.not_true, Bool.false_and, Bool.false_eq_true, if_false, true_or, true_and]
      exact bind_pure_ok_iff
  | false =>
      cases hflag : flagSet env "AUDIT_ENFORCE_CROSS_FAMILY" with
      | false =>
          simp only [Bool.not_false, Bool.true_and, Bool.false_eq_true, if_false, true_or,
            or_true, true_and]
          exact bind_pure_ok_iff
      | true =>
          simp only [Bool.not_false, Bool.true_and, Bool.false_eq_true, if_false, if_true,
            Bool.true_eq_false, false_or]
          cases hassert : ModelRouting.assertDisjointFamily rt
              ((env.describeCrewLlm.toOption.getD (lit "unknown", lit "unknown")).1 ++ lit "/" ++
                (env.describeCrewLlm.toOption.getD (lit "unknown", lit "unknown")).2)
              ((env.describeQaLlm.toOption.getD (lit "unknown", lit "unknown")).1 ++ lit "/" ++
                (env.describeQaLlm.toOption.getD (lit "unknown", lit "unknown")).2) with
          | error e => simp
          | ok u =>
              simp only [Except.ok_bind, true_and]
              exact bind_pure_ok_iff

theorem setUp_ok_iff : (∃ x, setUp rt env p f = .ok x) ↔ CanSetUp rt env p f := by
  unfold setUp CanSetUp
  cases hskills : prepared env p f with
  | error e => simp
  | ok skills =>
      simp only [Except.ok_bind, Except.ok.injEq, exists_eq_left']
      cases hmissing : (runner rt env p).missingInput (readied skills f) with
      | some reason => simp [pure, Except.pure]
      | none =>
          have hrun := (@newGenerationRun_ok_iff rt env (readied skills f) p)
          simp only [forall_const]
          rw [show RoutingPasses rt env ∧ FingerprintReady rt env p skills.1 ↔
            ∃ run, newGenerationRun rt env p (readied skills f) = .ok run from hrun.symm]
          cases hinputs : (runner rt env p).inputs (readied skills f) with
          | error e => simp
          | ok inputs =>
              simp only [Except.ok_bind, Except.ok.injEq, exists_eq', true_and]
              exact bind_pure_ok_iff

/-! ## How a run ends -/

/-- A phase run entered from its running status settles exactly when nothing before its crew loop
raises. -/
theorem run_settles_iff (rt : Runtime) (env : Env) (p : Phase) (f : AuditFlow)
    (hs : f.machine.status = .running p) :
    Settled p ((generate rt env p).exec f).2 ↔ CanSetUp rt env p f := by
  rw [← setUp_ok_iff]
  rcases hgen : (generate rt env p).exec f with ⟨r, g⟩
  rw [exec_generate, started_of_running hs] at hgen
  obtain ⟨ks, -, -, hend⟩ := run_cases hs hgen
  cases hend with
  | stuck e hsetup _ hmachine =>
      constructor
      · intro hsettled
        have hstatus := hsettled.2
        rw [hmachine, hs] at hstatus
        rcases hstatus with h | h | h <;> cases h
      · intro hx
        obtain ⟨x, hx⟩ := hx
        cases hsetup.symm.trans hx
  | ended hsetup _ hmirror hend =>
      refine ⟨fun _ => hsetup, fun _ => ⟨hmirror, ?_⟩⟩
      cases hend with
      | failed hstatus => exact .inr (.inr hstatus)
      | rejected hstatus => exact .inr (.inl hstatus)
      | approved hstatus => exact .inl hstatus

/-- An environment that enforces the model routing and routes both models to one family. -/
def sameFamilyEnv : Env :=
  { Sample.smallEnv "u1" with
    environ := fun name =>
      if name = lit "AUDIT_ENFORCE_CROSS_FAMILY" then some (lit "1") else none
    describeQaLlm := .ok (lit "anthropic", lit "claude") }

/-- A planning run that settles. -/
theorem run_settles_planning :
    Settled .planning ((generate Sample.rt (Sample.smallEnv "u2") .planning).exec
      (after Sample.rt (.fresh (lit "Access") (lit "A bank") [] none)
        [⟨Sample.smallEnv "u1", .beginPhase1⟩])).2 := by
  have hruns : (setUp Sample.rt (Sample.smallEnv "u2") .planning
      (after Sample.rt (.fresh (lit "Access") (lit "A bank") [] none)
        [⟨Sample.smallEnv "u1", .beginPhase1⟩])).toBool = true := by decide +kernel
  apply (run_settles_iff Sample.rt (Sample.smallEnv "u2") .planning _ (by decide +kernel)).mpr
  rw [← setUp_ok_iff]
  cases hsetup : setUp Sample.rt (Sample.smallEnv "u2") .planning
      (after Sample.rt (.fresh (lit "Access") (lit "A bank") [] none)
        [⟨Sample.smallEnv "u1", .beginPhase1⟩]) with
  | error e =>
      rw [hsetup] at hruns
      cases hruns
  | ok x => exact ⟨x, rfl⟩

/-- A routing check that raises leaves a reachable audit running, whatever the crew would do. -/
theorem sameFamily_stuck :
    ¬ ∀ (env : Env) (p : Phase) (f : AuditFlow), Reachable Sample.rt f →
      f.machine.status = .running p → Settled p ((generate Sample.rt env p).exec f).2 := by
  intro h
  have hsettled := h sameFamilyEnv .planning
    (after Sample.rt (.fresh (lit "Access") (lit "A bank") [] none)
      [⟨Sample.smallEnv "u1", .beginPhase1⟩])
    ⟨_, _, _, _, _, rfl⟩ (by decide +kernel)
  have hstatus : ((generate Sample.rt sameFamilyEnv .planning).exec
      (after Sample.rt (.fresh (lit "Access") (lit "A bank") [] none)
        [⟨Sample.smallEnv "u1", .beginPhase1⟩])).2.machine.status = .running .planning := by
    decide +kernel
  have hcases := hsettled.2
  rw [hstatus] at hcases
  rcases hcases with h | h | h <;> cases h

end AuditFlow

end AuditSwarm
