import AuditSwarm.Run.Actions

/-!
# What a phase run can do

A `generate_*` call touches one artifact, the generation records, the skills and the status, and
ends in one of five ways.  The crew loop is followed attempt by attempt, so that each end names
the kickoff whose verdict and artifact it rests on.
-/

namespace AuditSwarm

open Python

namespace AuditFlow

variable (rt : Runtime) (env : Env)

/-! ## Frames -/

/-- What a run of phase `p` leaves alone. -/
structure PhaseFrame (p : Phase) (f g : AuditFlow) : Prop where
  trail : g.state.approvalTrail = f.state.approvalTrail
  preparedBy : g.state.preparedBy = f.state.preparedBy
  decisions : g.state.reviewDecisions = f.state.reviewDecisions
  required : g.state.reviewDecisionsRequired = f.state.reviewDecisionsRequired
  sessionId : g.sessionId = f.sessionId
  artifacts : ∀ q, q ≠ p → storedModel g.state q = storedModel f.state q

/-- The status of the state is that of the machine. -/
def Mirrored (f : AuditFlow) : Prop := f.state.status = f.machine.status.value

@[simp] def withRuns (runs : List GenerationRun) (f : AuditFlow) : AuditFlow :=
  { f with state := { f.state with generationRuns := runs } }

@[simp] def withKickoff (k : Kickoff) (f : AuditFlow) : AuditFlow :=
  { f with kickoffs := f.kickoffs ++ [k] }

@[simp] def withState (s : AuditState) (f : AuditFlow) : AuditFlow := { f with state := s }

@[simp] def withSkills (skills : List Skill) (ids : List Str) (f : AuditFlow) : AuditFlow :=
  { f with skillContext := skills, state := { f.state with activeSkillIds := ids } }

section
variable {p : Phase} {f g k : AuditFlow}

theorem PhaseFrame.refl (p : Phase) (f : AuditFlow) : PhaseFrame p f f :=
  ⟨rfl, rfl, rfl, rfl, rfl, fun _ _ => rfl⟩

theorem PhaseFrame.trans (h : PhaseFrame p f g) (h' : PhaseFrame p g k) : PhaseFrame p f k where
  trail := h'.trail.trans h.trail
  preparedBy := h'.preparedBy.trans h.preparedBy
  decisions := h'.decisions.trans h.decisions
  required := h'.required.trans h.required
  sessionId := h'.sessionId.trans h.sessionId
  artifacts q hq := (h'.artifacts q hq).trans (h.artifacts q hq)

theorem storedModel_congr {s t : AuditState} (h1 : t.racmPlan = s.racmPlan)
    (h2 : t.workingPapers = s.workingPapers) (h3 : t.finalReport = s.finalReport) (q : Phase) :
    storedModel t q = storedModel s q := by
  cases q <;> simp only [storedModel, h1, h2, h3]

/-- A change of one artifact and of nothing else that matters. -/
structure ArtifactUpdate (p : Phase) (s t : AuditState) : Prop where
  trail : t.approvalTrail = s.approvalTrail
  preparedBy : t.preparedBy = s.preparedBy
  decisions : t.reviewDecisions = s.reviewDecisions
  required : t.reviewDecisionsRequired = s.reviewDecisionsRequired
  status : t.status = s.status
  artifacts : ∀ q, q ≠ p → storedModel t q = storedModel s q

/-- Storing an artifact that has the class of the phase stores it, and touches no other. -/
theorem storeArtifact_eq_ok {rt : Runtime} {artifact : Option PyModel} {s t : AuditState}
    (h : storeArtifact rt p artifact s = .ok t) :
    storedModel t p = artifact ∧ ArtifactUpdate p s t := by
  unfold storeArtifact at h
  split at h
  all_goals cases h
  all_goals
    refine ⟨rfl, rfl, rfl, rfl, rfl, rfl, ?_⟩
    intro q hq
    cases q <;> first | rfl | exact absurd rfl hq

theorem clearArtifact_spec (p : Phase) (s : AuditState) :
    storedModel (clearArtifact p s) p = none ∧ ArtifactUpdate p s (clearArtifact p s) := by
  cases p
  all_goals
    refine ⟨rfl, rfl, rfl, rfl, rfl, rfl, ?_⟩
    intro q hq
    cases q <;> first | rfl | exact absurd rfl hq

end

/-! ## One attempt -/

section
variable {rt env} {p : Phase} {f f' : AuditFlow}

theorem exec_updateRun (g : GenerationRun → GenerationRun) (f : AuditFlow) :
    (updateRun g).exec f = (.ok (), f.withRuns (f.state.generationRuns.modifyLast g)) := rfl

theorem exec_endRun (outcome : String) (f : AuditFlow) :
    ∃ runs, (endRun env outcome).exec f = (.ok (), f.withRuns runs) := ⟨_, rfl⟩

theorem qaRejection_ne_nil (qa : Option PyModel) : qaRejection qa ≠ some [] := by
  unfold qaRejection
  split
  · simp [qaUnparseableReason]
  · split
    · simp
    · split
      · split
        · simp [qaNoReason]
        · rename_i reason hne
          intro h
          obtain rfl := Option.some.inj h
          exact hne rfl
      · simp [qaNoReason]
    · simp [qaUnparseableReason]

theorem evidenceRejection_ne_nil (attempt : Nat) (sessionId : Option Str)
    (artifact : Option PyModel) :
    evidenceRejection rt env attempt p sessionId artifact ≠ some [] := by
  unfold evidenceRejection
  split
  · split <;> simp
  · simp

/-- The verdict of a QA output that rejects nothing is the boolean `True`. -/
theorem qaRejection_eq_none {qa : Option PyModel} (h : qaRejection qa = none) :
    ∃ m, qa = some m ∧ m.attr "approved" = some (.bool true) := by
  unfold qaRejection at h
  split at h
  · cases h
  · split at h
    · exact ⟨_, rfl, ‹_›⟩
    · split at h
      · split at h <;> cases h
      · cases h
    · cases h

/-- An artifact with no evidence rejection has, in fieldwork, no unverified finding. -/
theorem evidenceRejection_eq_none {attempt : Nat} {sessionId : Option Str} {a : PyModel}
    (h : evidenceRejection rt env attempt .fieldwork sessionId (some a) = none) :
    unverifiedOf rt env attempt sessionId a = .ok [] := by
  unfold evidenceRejection at h
  simp only at h
  split at h
  · cases h
  · assumption
  · cases h

/-- What one attempt does: it is recorded, and if it did not crash it is judged on the verdict
and the artifact of its own kickoff. -/
theorem runAttempt_cases {attempt : Nat} {inputs : CrewInputs} {r : Except Exn AttemptEnd}
    (h : (runAttempt rt env p attempt inputs).exec f = (r, f')) :
    ∃ runs, f' = (f.withRuns runs).withKickoff ⟨p, env.kickoff p attempt inputs⟩ ∧
      ((∃ text, r = .ok (.error text)) ∨
        ∃ qa j, r = .ok (.ok j) ∧
          readOutputs rt p (env.kickoff p attempt inputs) = .ok (qa, j.artifact) ∧
          (j.rejection = none → qaRejection qa = none ∧
            evidenceRejection rt env attempt p f.sessionId j.artifact = none)) := by
  unfold runAttempt updateRun at h
  simp only [Proc.exec_modify_bind] at h
  cases hread : readOutputs rt p (env.kickoff p attempt inputs) with
  | error exc =>
      simp only [hread, Proc.exec_pure, Prod.mk.injEq] at h
      exact ⟨_, h.2.symm, .inl ⟨_, h.1.symm⟩⟩
  | ok out =>
      obtain ⟨qa, artifact⟩ := out
      simp only [hread, Proc.exec_get_bind, Proc.exec_modify_bind, Proc.exec_pure,
        Prod.mk.injEq] at h
      obtain ⟨rfl, rfl⟩ := h
      refine ⟨_, rfl, .inr ⟨qa, _, rfl, rfl, ?_⟩⟩
      intro hrej
      simp only [ite_eq_left_iff, reduceCtorEq, imp_false, not_not, List.filter_eq_nil_iff,
        List.mem_filterMap, List.mem_cons, List.not_mem_nil, or_false, id_eq,
        exists_eq_right, decide_eq_true_eq] at hrej
      constructor
      · cases hq : qaRejection qa with
        | none => rfl
        | some reason =>
            obtain rfl := hrej reason (.inl hq.symm)
            exact absurd hq (qaRejection_ne_nil qa)
      · cases he : evidenceRejection rt env attempt p f.sessionId artifact with
        | none => rfl
        | some reason =>
            obtain rfl := hrej reason (.inr (.inl he.symm))
            exact absurd he (evidenceRejection_ne_nil _ _ _)

end

/-! ## The ends of a run -/

/-- A phase run that has come to a status without another kickoff. -/
structure Ended (p : Phase) (f g : AuditFlow) (s : AuditStatus) : Prop extends
    PhaseFrame p f g where
  status : g.machine.status = s
  mirrored : g.Mirrored
  kickoffs : g.kickoffs = f.kickoffs

section
variable {rt env} {p : Phase} {f g : AuditFlow}

theorem exec_failPhase (hs : f.machine.status = .running p) (reason : Str) :
    (failPhase p reason).exec f =
      (.ok (), ((f.moveTo (.error p)).withQaReason (some reason)).withDossier
        (p.label ++ lit " stopped with an error: " ++ reason ++
          lit " Retry the phase once the cause is fixed.")) := by
  unfold failPhase
  have hm : f.machine.errorPhase p = .ok ⟨.error p⟩ :=
    AuditStateMachine.errorPhase_eq_ok_iff.mpr ⟨hs, rfl⟩
  simp only [exec_transition_bind, hm]
  rfl

theorem failPhase_ended (hs : f.machine.status = .running p) (reason : Str) :
    ∃ g, (failPhase p reason).exec f = (.ok (), g) ∧ Ended p f g (.error p) ∧
      storedModel g.state p = storedModel f.state p := by
  refine ⟨_, exec_failPhase hs reason, ⟨⟨rfl, rfl, rfl, rfl, rfl, ?_⟩, rfl, rfl, rfl⟩, ?_⟩
  · intro q _
    exact storedModel_congr rfl rfl rfl q
  · exact storedModel_congr rfl rfl rfl p

/-- What a run that ends rejected leaves stored: the last artifact, or nothing when it does not
have the class of the phase. -/
def keptArtifact (rt : Runtime) (p : Phase) (artifact : Option PyModel) (s : AuditState) :
    AuditState :=
  match storeArtifact rt p artifact s with
  | .ok t => t
  | .error _ => clearArtifact p s

theorem keptArtifact_spec (rt : Runtime) (p : Phase) (artifact : Option PyModel)
    (s : AuditState) :
    ArtifactUpdate p s (keptArtifact rt p artifact s) ∧
      (storedModel (keptArtifact rt p artifact s) p = none ∨
        storedModel (keptArtifact rt p artifact s) p = artifact) := by
  unfold keptArtifact
  cases h : storeArtifact rt p artifact s with
  | error err => exact ⟨(clearArtifact_spec p s).2, .inl (clearArtifact_spec p s).1⟩
  | ok t => exact ⟨(storeArtifact_eq_ok h).2, .inr (storeArtifact_eq_ok h).1⟩

theorem rejectRun_ended (hs : f.machine.status = .running p) (last : Judged) :
    ∃ g, (rejectRun rt env p last).exec f = (.ok (), g) ∧ Ended p f g (.qaRejected p) ∧
      (storedModel g.state p = none ∨ storedModel g.state p = last.artifact) := by
  obtain ⟨hupdate, hkept⟩ := keptArtifact_spec rt p last.artifact f.state
  have hm : f.machine.rejectPhase p = .ok ⟨.qaRejected p⟩ :=
    AuditStateMachine.rejectPhase_eq_ok_iff.mpr ⟨hs, rfl⟩
  have hexec : ∃ runs text, (rejectRun rt env p last).exec f =
      (.ok (), ((((f.withState (keptArtifact rt p last.artifact f.state)).withRuns runs).moveTo
        (.qaRejected p)).withQaReason last.rejection).withDossier text) := by
    unfold rejectRun endRun updateRun
    simp only [Proc.exec_modify_bind, exec_transition_bind, hm]
    exact ⟨_, _, rfl⟩
  obtain ⟨runs, text, hexec⟩ := hexec
  generalize keptArtifact rt p last.artifact f.state = s at *
  refine ⟨_, hexec, ⟨⟨hupdate.trail, hupdate.preparedBy, hupdate.decisions, hupdate.required, rfl,
    ?_⟩, rfl, rfl, rfl⟩, ?_⟩
  · intro q hq
    exact (storedModel_congr rfl rfl rfl q).trans (hupdate.artifacts q hq)
  · rcases hkept with h | h
    · exact .inl ((storedModel_congr rfl rfl rfl p).trans h)
    · exact .inr ((storedModel_congr rfl rfl rfl p).trans h)

theorem crash_ended (hs : f.machine.status = .running p) (reason : Str) :
    ∃ g, (do endRun env "error"; failPhase p reason; return false : FlowM Bool).exec f =
        (.ok false, g) ∧ Ended p f g (.error p) ∧
        storedModel g.state p = storedModel f.state p := by
  obtain ⟨runs, hruns⟩ := @exec_endRun env "error" f
  obtain ⟨g, hg, hend, hart⟩ := failPhase_ended (f := f.withRuns runs) hs reason
  refine ⟨g, ?_, ⟨⟨hend.trail, hend.preparedBy, hend.decisions, hend.required, hend.sessionId,
    ?_⟩, hend.status, hend.mirrored, hend.kickoffs⟩, ?_⟩
  · rw [Proc.exec_bind_ok hruns, Proc.exec_bind_ok hg]
    rfl
  · intro q hq
    exact (hend.artifacts q hq).trans (storedModel_congr rfl rfl rfl q)
  · exact hart.trans (storedModel_congr rfl rfl rfl p)

/-- A run whose last attempt was approved either stores that attempt's artifact or ends in an
error. -/
theorem approveRun_cases (hs : f.machine.status = .running p) (artifact : Option PyModel) :
    (∃ g, (approveRun rt env p artifact).exec f = (.ok false, g) ∧ Ended p f g (.error p) ∧
      storedModel g.state p = storedModel f.state p) ∨
    ∃ g a, artifact = some a ∧ (approveRun rt env p artifact).exec f = (.ok true, g) ∧
      PhaseFrame p f g ∧ g.machine = f.machine ∧ g.state.status = f.state.status ∧
      g.kickoffs = f.kickoffs ∧ storedModel g.state p = some a := by
  unfold approveRun
  cases artifact with
  | none => exact .inl (crash_ended hs _)
  | some a =>
      simp only [Option.isNone_some, Bool.false_eq_true, if_false, Proc.exec_get_bind]
      cases hstore : storeArtifact rt p (some a) f.state with
      | error err => exact .inl (crash_ended hs _)
      | ok s =>
          obtain ⟨hsome, hupdate⟩ := storeArtifact_eq_ok hstore
          refine .inr ⟨_, a, rfl, rfl, ⟨hupdate.trail, hupdate.preparedBy, hupdate.decisions,
            hupdate.required, rfl, ?_⟩, rfl, hupdate.status, rfl, ?_⟩
          · intro q hq
            exact (storedModel_congr rfl rfl rfl q).trans (hupdate.artifacts q hq)
          · exact (storedModel_congr rfl rfl rfl p).trans hsome

end

/-! ## The crew loop -/

/-- A kickoff of phase `p` whose crew result reads as a QA verdict and an artifact. -/
def ReadAs (rt : Runtime) (p : Phase) (k : Kickoff) (qa artifact : Option PyModel) : Prop :=
  k.phase = p ∧ readOutputs rt p k.outcome = .ok (qa, artifact)

/-- The last kickoff read as this artifact, and the artifact or nothing is stored. -/
def RejectedWith (rt : Runtime) (p : Phase) (g : AuditFlow) : Prop :=
  ∃ k qa artifact, g.kickoffs.getLast? = some k ∧ ReadAs rt p k qa artifact ∧
    (storedModel g.state p = none ∨ storedModel g.state p = artifact)

/-- The verdict of the last kickoff is the boolean `True`, its artifact is stored, and in
fieldwork no finding of it was unverified at the given attempt. -/
def ApprovedWith (rt : Runtime) (env : Env) (p : Phase) (attempt : Nat) (g : AuditFlow) : Prop :=
  ∃ k qa a, g.kickoffs.getLast? = some k ∧ ReadAs rt p k (some qa) (some a) ∧
    qa.attr "approved" = some (.bool true) ∧ storedModel g.state p = some a ∧
    (p = .fieldwork → unverifiedOf rt env attempt g.sessionId a = .ok [])

/-- The kickoffs a crew loop adds: at most `n`, all of the phase, and none left out. -/
structure Attempted (p : Phase) (n : Nat) (f g : AuditFlow) (ks : List Kickoff) : Prop where
  kickoffs : g.kickoffs = f.kickoffs ++ ks
  length_le : ks.length ≤ n
  ne_nil : 0 < n → ks ≠ []
  phase : ∀ k ∈ ks, k.phase = p

section
variable {rt env} {p : Phase} {f g : AuditFlow}

theorem Attempted.of_kickoffs {n : Nat} {g' : AuditFlow} {ks : List Kickoff}
    (h : Attempted p n f g ks) (hk : g'.kickoffs = g.kickoffs) : Attempted p n f g' ks :=
  ⟨hk.trans h.kickoffs, h.length_le, h.ne_nil, h.phase⟩

theorem Attempted.cons {n : Nat} {g' : AuditFlow} {k : Kickoff} {ks : List Kickoff}
    (h : Attempted p (n + 1) f g [k]) (h' : Attempted p n g g' ks) :
    Attempted p (n + 1) f g' (k :: ks) where
  kickoffs := by rw [h'.kickoffs, h.kickoffs, List.append_assoc, List.singleton_append]
  length_le := Nat.succ_le_succ h'.length_le
  ne_nil _ := List.cons_ne_nil _ _
  phase := by
    intro x hx
    rcases List.mem_cons.mp hx with rfl | hx
    · exact h.phase _ List.mem_cons_self
    · exact h'.phase x hx

/-- Everything the crew loop can do from a running phase: it ends in an error, rejected after its
last attempt, or approved with the artifact stored and the phase still running. -/
theorem crewLoop_cases {seeded : Str} {n attempt : Nat} {inputs : CrewInputs} {last : Judged}
    {r : Except Exn Bool} (hs : f.machine.status = .running p)
    (hlast : n = 0 → ∃ k qa, f.kickoffs.getLast? = some k ∧ ReadAs rt p k qa last.artifact)
    (h : (crewLoop rt env p seeded n attempt inputs last).exec f = (r, g)) :
    ∃ ks, Attempted p n f g ks ∧ PhaseFrame p f g ∧
      ((r = .ok false ∧ g.machine.status = .error p ∧ g.Mirrored ∧
          storedModel g.state p = storedModel f.state p) ∨
        (r = .ok false ∧ g.machine.status = .qaRejected p ∧ g.Mirrored ∧ RejectedWith rt p g) ∨
        (r = .ok true ∧ g.machine = f.machine ∧ g.state.status = f.state.status ∧
          ApprovedWith rt env p (attempt + ks.length - 1) g)) := by
  induction n generalizing f attempt inputs last with
  | zero =>
      obtain ⟨k, qa, hk, hread⟩ := hlast rfl
      obtain ⟨g', hg, hend, hkept⟩ := (@rejectRun_ended rt env) hs last
      unfold crewLoop at h
      rw [Proc.exec_bind_ok hg, Proc.exec_pure, Prod.mk.injEq] at h
      obtain ⟨rfl, rfl⟩ := h
      refine ⟨[], ⟨by simp [hend.kickoffs], by simp, by simp, by simp⟩, hend.toPhaseFrame, ?_⟩
      refine .inr (.inl ⟨rfl, hend.status, hend.mirrored, k, qa, _, ?_, hread, hkept⟩)
      rw [hend.kickoffs, hk]
  | succ n ih =>
      unfold crewLoop at h
      rcases hattempt : (runAttempt rt env p attempt inputs).exec f with ⟨ra, f1⟩
      obtain ⟨runs, rfl, hcases⟩ := runAttempt_cases hattempt
      set k : Kickoff := ⟨p, env.kickoff p attempt inputs⟩ with hk
      have hframe : PhaseFrame p f ((f.withRuns runs).withKickoff k) :=
        ⟨rfl, rfl, rfl, rfl, rfl, fun q _ => storedModel_congr rfl rfl rfl q⟩
      have hart : storedModel ((f.withRuns runs).withKickoff k).state p = storedModel f.state p :=
        storedModel_congr rfl rfl rfl p
      have hone : Attempted p (n + 1) f ((f.withRuns runs).withKickoff k) [k] :=
        ⟨rfl, by simp, by simp, by simp [hk]⟩
      rcases hcases with ⟨text, rfl⟩ | ⟨qa, j, rfl, hread, hnone⟩
      · -- the attempt crashed
        obtain ⟨g', hg, hend, hsame⟩ := @crash_ended env _ ((f.withRuns runs).withKickoff k) hs (p.label ++
            (if attempt = 1 then lit " crew" else lit " crew retry") ++ lit " error: " ++ text)
        rw [Proc.exec_bind_ok hattempt] at h
        obtain ⟨rfl, rfl⟩ := Prod.mk.inj (hg.symm.trans h)
        exact ⟨[k], hone.of_kickoffs hend.kickoffs, hframe.trans hend.toPhaseFrame,
          .inl ⟨rfl, hend.status, hend.mirrored, hsame.trans hart⟩⟩
      rw [Proc.exec_bind_ok hattempt] at h
      cases hrej : j.rejection with
      | none =>
          obtain ⟨hqa, hev⟩ := hnone hrej
          simp only [hrej] at h
          rcases @approveRun_cases rt env _ ((f.withRuns runs).withKickoff k) hs
            j.artifact with ⟨g', hg, hend, hsame⟩ | ⟨g', a, ha, hg, hframe', hm, hst, hks, hstored⟩
          · obtain ⟨rfl, rfl⟩ := Prod.mk.inj (hg.symm.trans h)
            exact ⟨[k], hone.of_kickoffs hend.kickoffs, hframe.trans hend.toPhaseFrame,
              .inl ⟨rfl, hend.status, hend.mirrored, hsame.trans hart⟩⟩
          · obtain ⟨rfl, rfl⟩ := Prod.mk.inj (hg.symm.trans h)
            obtain ⟨m, rfl, happroved⟩ := qaRejection_eq_none hqa
            rw [ha] at hread hev
            refine ⟨[k], hone.of_kickoffs hks, hframe.trans hframe',
              .inr (.inr ⟨rfl, hm, hst, k, m, a, ?_, ⟨rfl, hread⟩, happroved, hstored, ?_⟩)⟩
            · simp [hks]
            · rintro rfl
              rw [hframe'.sessionId]
              exact evidenceRejection_eq_none hev
      | some rejection =>
          simp only [hrej] at h
          obtain ⟨ks, hks, hframe', hends⟩ := ih (f := (f.withRuns runs).withKickoff k) hs
            (fun _ => ⟨k, qa, by simp, rfl, hread⟩) h
          refine ⟨k :: ks, hone.cons hks, hframe.trans hframe', ?_⟩
          rcases hends with ⟨hr, hst, hmir, hsame⟩ | hrejected | ⟨hr, hm, hst, happroved⟩
          · exact .inl ⟨hr, hst, hmir, hsame.trans hart⟩
          · exact .inr (.inl hrejected)
          · refine .inr (.inr ⟨hr, hm, hst, ?_⟩)
            have harith : attempt + 1 + ks.length - 1 = attempt + (k :: ks).length - 1 := by
              rw [List.length_cons]
              omega
            rw [harith] at happroved
            exact happroved

end

/-! ## Setting a run up -/

/-- The skills the scope calls for, with the ids kept of them. -/
def detected (f : AuditFlow) : Except Exn (List Skill × List Str) := do
  let available ← raising env.availableSkills
  let skills ← SkillLoader.detectSkillsFromScope env.keywordMatches available
    (f.state.theme ++ lit " " ++ f.state.businessContext) f.state.frameworks
  return (skills, skills.filterMap fun s =>
    match s.get? (lit "id") with
    | some (.str id) => some id
    | _ => none)

def restored (f : AuditFlow) : Except Exn (List Skill × List Str) := do
  let resolved ← f.state.activeSkillIds.mapM fun id => do
    let available ← raising env.availableSkills
    return available.find? fun s => Trail.fieldIs s (lit "id") id
  if resolved.filterMap id ≠ [] then .ok (resolved.filterMap id, f.state.activeSkillIds)
  else if f.state.theme ≠ [] ∨ f.state.businessContext ≠ [] then detected env f
  else .ok (f.skillContext, f.state.activeSkillIds)

def prepared (p : Phase) (f : AuditFlow) : Except Exn (List Skill × List Str) :=
  if p ≠ .planning ∧ f.skillContext ≠ [] then .ok (f.skillContext, f.state.activeSkillIds)
  else if p = .planning then detected env f
  else restored env f

def runner : Phase → PhaseRunner
  | .planning => planningRunner env
  | .fieldwork => fieldworkRunner env
  | .reporting => reportingRunner rt env

/-- The flow in which the crew inputs of a run are prepared. -/
def readied (skills : List Skill × List Str) (f : AuditFlow) : AuditFlow :=
  (f.withSkills skills.1 skills.2).withQaReason none

/-- What a run does before its first kickoff: its inputs and its record, or nothing when the
artifact it works from is missing. -/
def setUp (p : Phase) (f : AuditFlow) : Except Exn (Option (CrewInputs × GenerationRun)) := do
  let skills ← prepared env p f
  match (runner rt env p).missingInput (readied skills f) with
  | some _ => return none
  | none =>
      let inputs ← (runner rt env p).inputs (readied skills f)
      let run ← newGenerationRun rt env p (readied skills f)
      return some (inputs, run)

section
variable {rt env} {p : Phase} {f g : AuditFlow}

theorem exec_detectSkills (f : AuditFlow) :
    (detectSkills env).exec f =
      match detected env f with
      | .ok x => (.ok (), f.withSkills x.1 x.2)
      | .error e => (.error e, f) := by
  unfold detectSkills detected
  simp only [Proc.exec_get_bind, Proc.exec_ofExcept_bind]
  cases raising env.availableSkills with
  | error e => rfl
  | ok available =>
      simp only [Except.ok_bind]
      cases SkillLoader.detectSkillsFromScope env.keywordMatches available
        (f.state.theme ++ lit " " ++ f.state.businessContext) f.state.frameworks <;> rfl

theorem exec_restoreSkillContext (f : AuditFlow) :
    (restoreSkillContext env).exec f =
      match restored env f with
      | .ok x => (.ok (), f.withSkills x.1 x.2)
      | .error e => (.error e, f) := by
  unfold restoreSkillContext restored
  simp only [Proc.exec_get_bind, Proc.exec_ofExcept_bind]
  cases (f.state.activeSkillIds.mapM fun id => do
      let available ← raising env.availableSkills
      return available.find? fun s => Trail.fieldIs s (lit "id") id : Except Exn _) with
  | error e => rfl
  | ok resolved =>
      simp only [Except.ok_bind]
      split
      · rfl
      · split
        · exact exec_detectSkills f
        · rfl

theorem exec_prepareSkills (p : Phase) (f : AuditFlow) :
    (runner rt env p).prepareSkills.exec f =
      match prepared env p f with
      | .ok x => (.ok (), f.withSkills x.1 x.2)
      | .error e => (.error e, f) := by
  have hensure : ∀ q, q ≠ .planning → (ensureSkillContext env).exec f =
      match prepared env q f with
      | .ok x => (.ok (), f.withSkills x.1 x.2)
      | .error e => (.error e, f) := by
    intro q hq
    unfold ensureSkillContext prepared
    simp only [Proc.exec_get_bind]
    by_cases hctx : f.skillContext = []
    · simp [hq, hctx, exec_restoreSkillContext]
    · simp [hq, hctx]
  cases p with
  | planning => exact (exec_detectSkills f).trans (by simp [prepared])
  | fieldwork => exact hensure _ (by simp)
  | reporting => exact hensure _ (by simp)

theorem runner_phase (p : Phase) : (runner rt env p).phase = p := by
  cases p <;> rfl

/-- The ways a run that has been set up ends. -/
inductive CrewEnd (rt : Runtime) (env : Env) (p : Phase) (f g : AuditFlow)
    (ks : List Kickoff) : Prop
  | failed (hstatus : g.machine.status = .error p)
      (hartifact : storedModel g.state p = storedModel f.state p)
  | rejected (hstatus : g.machine.status = .qaRejected p) (hks : ks ≠ [])
      (hrejected : RejectedWith rt p g)
  | approved (hstatus : g.machine.status = .waitingHumanGate p) (hks : ks ≠ [])
      (happroved : ApprovedWith rt env p ks.length g)

/-- The ways a run of a running phase ends. -/
inductive GenerationEnd (rt : Runtime) (env : Env) (p : Phase) (f g : AuditFlow)
    (ks : List Kickoff) (r : Except Exn Unit) : Prop
  /-- The set-up raised; nothing recorded the failure and the phase is still running. -/
  | stuck (e : Exn) (hsetup : setUp rt env p f = .error e) (hr : r = .error e)
      (hmachine : g.machine = f.machine) (hstatus : g.state.status = f.state.status)
      (hartifact : storedModel g.state p = storedModel f.state p) (hks : ks = [])
  | ended (hsetup : ∃ x, setUp rt env p f = .ok x) (hr : r = .ok ()) (hmirror : g.Mirrored)
      (hend : CrewEnd rt env p f g ks)

/-- The kickoffs of one phase run: at most two, all of the phase. -/
structure TwoKickoffs (p : Phase) (f g : AuditFlow) (ks : List Kickoff) : Prop where
  kickoffs : g.kickoffs = f.kickoffs ++ ks
  length_le : ks.length ≤ 2
  phase : ∀ k ∈ ks, k.phase = p

theorem TwoKickoffs.none (h : g.kickoffs = f.kickoffs) : TwoKickoffs p f g [] :=
  ⟨by rw [List.append_nil, h], by simp, by simp⟩

theorem exec_startGenerationRun (p : Phase) (f : AuditFlow) :
    (startGenerationRun rt env p).exec f =
      match newGenerationRun rt env p f with
      | .ok run => (.ok (), f.withRuns (f.state.generationRuns ++ [run]))
      | .error e => (.error e, f) := by
  unfold startGenerationRun
  simp only [Proc.exec_get_bind, Proc.exec_ofExcept_bind]
  cases newGenerationRun rt env p f <;> rfl

def crewPhase (rt : Runtime) (env : Env) (p : Phase) (inputs : CrewInputs) : FlowM Unit := do
  let ok ← runCrewWithQa rt env p inputs
  if ok then
    transition (·.completePhase p)
    setDossier ((runner rt env p).dossier (← get))

/-- A run whose record was started goes through the crew loop to one of its three ends. -/
theorem crewPhase_cases {inputs : CrewInputs} {run : GenerationRun} {r : Except Exn Unit}
    (hs : f.machine.status = .running p) (hrun : newGenerationRun rt env p f = .ok run)
    (h : (crewPhase rt env p inputs).exec f = (r, g)) :
    ∃ ks, TwoKickoffs p f g ks ∧ PhaseFrame p f g ∧ r = .ok () ∧ g.Mirrored ∧
      CrewEnd rt env p f g ks := by
  have hstart := @exec_startGenerationRun rt env p f
  simp only [hrun] at hstart
  have hframe : PhaseFrame p f (f.withRuns (f.state.generationRuns ++ [run])) :=
    ⟨rfl, rfl, rfl, rfl, rfl, fun q _ => storedModel_congr rfl rfl rfl q⟩
  have hart : storedModel (f.withRuns (f.state.generationRuns ++ [run])).state p =
      storedModel f.state p := storedModel_congr rfl rfl rfl p
  rcases hloop : (crewLoop rt env p inputs.feedback maxQaAttempts 1 inputs
    ⟨none, none, false⟩).exec (f.withRuns (f.state.generationRuns ++ [run])) with ⟨rl, g1⟩
  have hcrew : (runCrewWithQa rt env p inputs).exec f = (rl, g1) := by
    unfold runCrewWithQa
    rw [Proc.exec_bind_ok hstart, hloop]
  obtain ⟨ks, hks, hframe', hends⟩ :=
    crewLoop_cases (f := f.withRuns (f.state.generationRuns ++ [run])) hs
      (fun h0 => absurd h0 (by simp [maxQaAttempts])) hloop
  have hne : ks ≠ [] := hks.ne_nil (by simp [maxQaAttempts])
  have htwo : TwoKickoffs p f g1 ks := ⟨hks.kickoffs, hks.length_le, hks.phase⟩
  unfold crewPhase at h
  rcases hends with ⟨rfl, hst, hmir, hsame⟩ | ⟨rfl, hst, hmir, hrejected⟩ | ⟨rfl, hm, hst, happ⟩
  · rw [Proc.exec_bind_ok hcrew] at h
    obtain ⟨rfl, rfl⟩ := Prod.mk.inj h
    exact ⟨ks, htwo, hframe.trans hframe', rfl, hmir, .failed hst (hsame.trans hart)⟩
  · rw [Proc.exec_bind_ok hcrew] at h
    obtain ⟨rfl, rfl⟩ := Prod.mk.inj h
    exact ⟨ks, htwo, hframe.trans hframe', rfl, hmir, .rejected hst hne hrejected⟩
  · have hdone : g1.machine.completePhase p = .ok ⟨.waitingHumanGate p⟩ :=
      AuditStateMachine.completePhase_eq_ok_iff.mpr ⟨by rw [hm]; exact hs, rfl⟩
    rw [Proc.exec_bind_ok hcrew, if_pos rfl, exec_transition_bind, hdone] at h
    obtain ⟨rfl, rfl⟩ := Prod.mk.inj h
    have hsame : ∀ q, storedModel ((g1.moveTo (.waitingHumanGate p)).withDossier
        ((runner rt env p).dossier (g1.moveTo (.waitingHumanGate p)))).state q =
          storedModel g1.state q := fun q => storedModel_congr rfl rfl rfl q
    refine ⟨ks, ⟨htwo.kickoffs, htwo.length_le, htwo.phase⟩, hframe.trans (hframe'.trans
      ⟨rfl, rfl, rfl, rfl, rfl, fun q _ => hsame q⟩), rfl, rfl, .approved rfl hne ?_⟩
    obtain ⟨k, qa, a, hk, hread, hqa, hstored, hev⟩ := happ
    refine ⟨k, qa, a, hk, hread, hqa, (hsame p).trans hstored, ?_⟩
    intro hp
    have hev' := hev hp
    rw [Nat.add_sub_cancel_left] at hev'
    exact hev'

theorem run_cases {r : Except Exn Unit} (hs : f.machine.status = .running p)
    (h : ((runner rt env p).run rt env).exec f = (r, g)) :
    ∃ ks, TwoKickoffs p f g ks ∧ PhaseFrame p f g ∧ GenerationEnd rt env p f g ks r := by
  unfold PhaseRunner.run at h
  simp only [Proc.exec_get_bind, runner_phase, hs, ne_eq, not_true_eq_false, if_false] at h
  have hprep := @exec_prepareSkills rt env p f
  cases hskills : prepared env p f with
  | error e =>
      rw [hskills] at hprep
      simp only [Proc.exec_bind, hprep, Prod.mk.injEq] at h
      obtain ⟨rfl, rfl⟩ := h
      exact ⟨[], .none rfl, .refl p f,
        .stuck e (by simp [setUp, hskills]) rfl rfl rfl rfl rfl⟩
  | ok skills =>
      rw [hskills] at hprep
      rw [Proc.exec_bind_ok hprep, exec_setQaRejectionReason_bind, Proc.exec_get_bind] at h
      rw [show (f.withSkills skills.1 skills.2).withQaReason none = readied skills f from rfl] at h
      have hs' : (readied skills f).machine.status = .running p := hs
      have hframe : PhaseFrame p f (readied skills f) :=
        ⟨rfl, rfl, rfl, rfl, rfl, fun q _ => storedModel_congr rfl rfl rfl q⟩
      have hart : storedModel (readied skills f).state p = storedModel f.state p :=
        storedModel_congr rfl rfl rfl p
      cases hmissing : (runner rt env p).missingInput (readied skills f) with
      | some reason =>
          have hsetup : setUp rt env p f = .ok none := by
            simp only [setUp, hskills, Except.ok_bind, hmissing]
            rfl
          obtain ⟨g', hg, hend, hsame⟩ := failPhase_ended hs' reason
          simp only [hmissing] at h
          obtain ⟨rfl, rfl⟩ := Prod.mk.inj (hg.symm.trans h)
          exact ⟨[], .none hend.kickoffs, hframe.trans hend.toPhaseFrame,
            .ended ⟨_, hsetup⟩ rfl hend.mirrored (.failed hend.status (hsame.trans hart))⟩
      | none =>
          have hsetup : setUp rt env p f = (do
              let inputs ← (runner rt env p).inputs (readied skills f)
              let run ← newGenerationRun rt env p (readied skills f)
              return some (inputs, run)) := by
            simp only [setUp, hskills, Except.ok_bind, hmissing]
          simp only [hmissing, Proc.exec_ofExcept_bind] at h
          cases hinputs : (runner rt env p).inputs (readied skills f) with
          | error e =>
              simp only [hinputs] at h
              obtain ⟨rfl, rfl⟩ := Prod.mk.inj h
              exact ⟨[], .none rfl, hframe,
                .stuck e (by rw [hsetup, hinputs]; rfl) rfl rfl rfl hart rfl⟩
          | ok inputs =>
              simp only [hinputs] at h
              cases hrun : newGenerationRun rt env p (readied skills f) with
              | error e =>
                  have hcrew : (runCrewWithQa rt env p
                      ((readied skills f).seedFeedback p inputs)).exec (readied skills f) =
                        (.error e, readied skills f) := by
                    unfold runCrewWithQa
                    rw [Proc.exec_bind, exec_startGenerationRun, hrun]
                  rw [Proc.exec_bind_error hcrew] at h
                  obtain ⟨rfl, rfl⟩ := Prod.mk.inj h
                  exact ⟨[], .none rfl, hframe,
                    .stuck e (by rw [hsetup, hinputs, hrun]; rfl) rfl rfl rfl hart rfl⟩
              | ok run =>
                  obtain ⟨ks, hks, hframe', rfl, hmir, hend⟩ := crewPhase_cases hs' hrun h
                  refine ⟨ks, ⟨hks.kickoffs, hks.length_le, hks.phase⟩, hframe.trans hframe',
                    .ended ⟨_, by rw [hsetup, hinputs, hrun]; rfl⟩ rfl hmir ?_⟩
                  cases hend with
                  | failed hst hsame => exact .failed hst (hsame.trans hart)
                  | rejected hst hne hrej => exact .rejected hst hne hrej
                  | approved hst hne happ => exact .approved hst hne happ

/-- The flow a `generate_*` call starts its run from: planning begins itself when the audit is
waiting for its scope. -/
def started (p : Phase) (f : AuditFlow) : AuditFlow :=
  if p = .planning ∧ f.machine.status = .waitingForScope then f.moveTo (.running .planning) else f

theorem exec_generate (p : Phase) (f : AuditFlow) :
    (generate rt env p).exec f = ((runner rt env p).run rt env).exec (started p f) := by
  cases p with
  | planning =>
      unfold generate generatePlanning started
      simp only [Proc.exec_get_bind, true_and]
      by_cases hs : f.machine.status = .waitingForScope
      · have hm : f.machine.startPhase1 = .ok ⟨.running .planning⟩ :=
          AuditStateMachine.startPhase1_eq_ok_iff.mpr ⟨hs, rfl⟩
        simp only [if_pos hs, exec_transition_bind, hm]
        rfl
      · simp only [if_neg hs]
        rfl
  | fieldwork => simp [generate, generateFieldwork, started, runner]
  | reporting => simp [generate, generateReporting, started, runner]

/-- A call in any other status is refused and changes nothing. -/
theorem run_refused (hs : f.machine.status ≠ .running p) :
    ∃ e, ((runner rt env p).run rt env).exec f = (.error (.runtimeError e), f) := by
  unfold PhaseRunner.run
  simp only [Proc.exec_get_bind, runner_phase, ne_eq, hs, not_false_eq_true, if_true]
  exact ⟨_, rfl⟩

end

end AuditFlow

end AuditSwarm
