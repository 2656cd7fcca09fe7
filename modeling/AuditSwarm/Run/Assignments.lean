import AuditSwarm.Model.SessionService
import AuditSwarm.Run.Steps

/-!
# A phase run as assignments

Everything a `generate_*` call does to a flow is a sequence of the assignments a phase thread can
make, so that whatever holds between any two assignments holds in the middle of a run.
-/

namespace AuditSwarm

open Python

namespace AuditFlow

variable {rt : Runtime} {env : Env} {p : Phase} {f g k : AuditFlow}

/-- A flow that some assignments of a run lead to. -/
def Assigned (rt : Runtime) (p : Phase) (f g : AuditFlow) : Prop :=
  ∃ ws : List PhaseWrite, g = ws.foldl (fun f w => w.apply rt p f) f

theorem Assigned.refl (f : AuditFlow) : Assigned rt p f f := ⟨[], rfl⟩

theorem Assigned.trans (h : Assigned rt p f g) (h' : Assigned rt p g k) : Assigned rt p f k := by
  rcases h with ⟨ws, rfl⟩
  rcases h' with ⟨ws', rfl⟩
  exact ⟨ws ++ ws', (List.foldl_append ..).symm⟩

theorem Assigned.one (w : PhaseWrite) : Assigned rt p f (w.apply rt p f) := ⟨[w], rfl⟩

/-! ## The parts of a run -/

theorem assigned_moveTo (status : AuditStatus) : Assigned rt p f (f.moveTo status) :=
  ⟨[.machine status, .commitStatus], rfl⟩

theorem assigned_withQaReason (reason : Option Str) : Assigned rt p f (f.withQaReason reason) :=
  .one (.qaRejectionReason reason)

theorem assigned_withDossier (text : Str) : Assigned rt p f (f.withDossier text) :=
  .one (.dossier text)

theorem assigned_withRuns (runs : List GenerationRun) : Assigned rt p f (f.withRuns runs) :=
  .one (.generationRuns runs)

theorem assigned_withKickoff (kickoff : Kickoff) : Assigned rt p f (f.withKickoff kickoff) :=
  .one (.kickoff kickoff)

theorem assigned_withSkills (skills : List Skill) (ids : List Str) :
    Assigned rt p f (f.withSkills skills ids) := .one (.skills skills ids)

theorem assigned_store {artifact : Option PyModel} {s : AuditState}
    (h : storeArtifact rt p artifact f.state = .ok s) : Assigned rt p f { f with state := s } := by
  refine ⟨[.artifact artifact], ?_⟩
  rw [List.foldl_cons, List.foldl_nil]
  unfold PhaseWrite.apply
  dsimp only
  rw [h]

theorem assigned_keptArtifact (artifact : Option PyModel) :
    Assigned rt p f (f.withState (keptArtifact rt p artifact f.state)) := by
  unfold keptArtifact
  cases h : storeArtifact rt p artifact f.state with
  | ok s => exact assigned_store h
  | error err => exact .one .clearArtifact

theorem assigned_failPhase (hs : f.machine.status = .running p) (reason : Str) :
    Assigned rt p f ((failPhase p reason).exec f).2 := by
  rw [exec_failPhase hs]
  exact ((assigned_moveTo _).trans (assigned_withQaReason _)).trans (assigned_withDossier _)

theorem assigned_crash (hs : f.machine.status = .running p) (reason : Str) :
    Assigned rt p f
      ((do endRun env "error"; failPhase p reason; return false : FlowM Bool).exec f).2 := by
  rcases @exec_endRun env "error" f with ⟨runs, hruns⟩
  have hfail := @exec_failPhase p (f.withRuns runs) hs reason
  rw [Proc.exec_bind_ok hruns, Proc.exec_bind_ok hfail]
  exact (((assigned_withRuns runs).trans (assigned_moveTo _)).trans
    (assigned_withQaReason _)).trans (assigned_withDossier _)

theorem assigned_rejectRun (hs : f.machine.status = .running p) (last : Judged) :
    Assigned rt p f ((rejectRun rt env p last).exec f).2 := by
  have hm : f.machine.rejectPhase p = .ok ⟨.qaRejected p⟩ :=
    AuditStateMachine.rejectPhase_eq_ok_iff.mpr ⟨hs, rfl⟩
  have hexec : ∃ runs text, ((rejectRun rt env p last).exec f).2 =
      ((((f.withState (keptArtifact rt p last.artifact f.state)).withRuns runs).moveTo
        (.qaRejected p)).withQaReason last.rejection).withDossier text := by
    unfold rejectRun endRun updateRun
    simp only [Proc.exec_modify_bind, exec_transition_bind, hm]
    exact ⟨_, _, rfl⟩
  rcases hexec with ⟨runs, text, hexec⟩
  rw [hexec]
  exact ((((assigned_keptArtifact _).trans (assigned_withRuns _)).trans (assigned_moveTo _)).trans
    (assigned_withQaReason _)).trans (assigned_withDossier _)

theorem assigned_approveRun (hs : f.machine.status = .running p) (artifact : Option PyModel) :
    Assigned rt p f ((approveRun rt env p artifact).exec f).2 := by
  unfold approveRun
  cases artifact with
  | none => exact assigned_crash hs _
  | some a =>
      simp only [Option.isNone_some, Bool.false_eq_true, if_false, Proc.exec_get_bind]
      cases hstore : storeArtifact rt p (some a) f.state with
      | error err => exact assigned_crash hs _
      | ok s => exact (assigned_store hstore).trans (assigned_withRuns _)

/-! ## The run -/

theorem assigned_crewLoop {seeded : Str} {n attempt : Nat} {inputs : CrewInputs} {last : Judged}
    (hs : f.machine.status = .running p) :
    Assigned rt p f ((crewLoop rt env p seeded n attempt inputs last).exec f).2 := by
  induction n generalizing f attempt inputs last with
  | zero =>
      have hreject := @assigned_rejectRun rt env p f hs last
      rcases hexec : (rejectRun rt env p last).exec f with ⟨r, g⟩
      rw [hexec] at hreject
      unfold crewLoop
      rw [Proc.exec_bind, hexec]
      cases r <;> exact hreject
  | succ n ih =>
      unfold crewLoop
      rcases hattempt : (runAttempt rt env p attempt inputs).exec f with ⟨ra, f1⟩
      rcases runAttempt_cases hattempt with ⟨runs, hf1, hcases⟩
      have hdone : Assigned rt p f f1 := by
        rw [hf1]
        exact (assigned_withRuns runs).trans (assigned_withKickoff _)
      have hs1 : f1.machine.status = .running p := by
        rw [hf1]
        exact hs
      rcases hcases with ⟨text, rfl⟩ | ⟨qa, judged, rfl, -, -⟩
      · rw [Proc.exec_bind_ok hattempt]
        exact hdone.trans (assigned_crash hs1 _)
      · rw [Proc.exec_bind_ok hattempt]
        dsimp only
        cases judged.rejection with
        | none => exact hdone.trans (assigned_approveRun hs1 _)
        | some rejection => exact hdone.trans (ih hs1)

theorem assigned_runCrewWithQa {inputs : CrewInputs} (hs : f.machine.status = .running p) :
    Assigned rt p f ((runCrewWithQa rt env p inputs).exec f).2 := by
  unfold runCrewWithQa
  rw [Proc.exec_bind, exec_startGenerationRun]
  cases newGenerationRun rt env p f with
  | error err => exact .refl f
  | ok run => exact (assigned_withRuns _).trans (assigned_crewLoop hs)

theorem assigned_run : Assigned rt p f (((runner rt env p).run rt env).exec f).2 := by
  by_cases hs : f.machine.status = .running p
  · unfold PhaseRunner.run
    simp only [Proc.exec_get_bind, runner_phase, hs, ne_eq, not_true_eq_false, if_false]
    rw [Proc.exec_bind, exec_prepareSkills]
    cases prepared env p f with
    | error err => exact .refl f
    | ok skills =>
        dsimp only
        rw [exec_setQaRejectionReason_bind, Proc.exec_get_bind]
        have hready : Assigned rt p f ((f.withSkills skills.1 skills.2).withQaReason none) :=
          (assigned_withSkills _ _).trans (assigned_withQaReason none)
        refine hready.trans ?_
        generalize hg : (f.withSkills skills.1 skills.2).withQaReason none = g
        have hs' : g.machine.status = .running p := by
          rw [← hg]
          exact hs
        cases (runner rt env p).missingInput g with
        | some reason => exact assigned_failPhase hs' reason
        | none =>
            dsimp only
            rw [Proc.exec_ofExcept_bind]
            cases (runner rt env p).inputs g with
            | error err => exact .refl g
            | ok inputs =>
                dsimp only
                have hcrew := @assigned_runCrewWithQa rt env p g (g.seedFeedback p inputs) hs'
                rw [Proc.exec_bind]
                rcases hexec : (runCrewWithQa rt env p (g.seedFeedback p inputs)).exec g with
                  ⟨r, k⟩
                rw [hexec] at hcrew
                cases r with
                | error err => exact hcrew
                | ok ok =>
                    cases ok with
                    | false => exact hcrew
                    | true =>
                        dsimp only
                        rw [if_pos rfl, exec_transition_bind]
                        cases k.machine.completePhase p with
                        | error err => exact hcrew
                        | ok m =>
                            exact (hcrew.trans (assigned_moveTo m.status)).trans
                              (assigned_withDossier _)
  · rcases @run_refused rt env _ _ hs with ⟨e, he⟩
    rw [he]
    exact .refl f

/-- Whatever a `generate_*` call does to a flow, assignments of its phase do. -/
theorem assigned_generate : Assigned rt p f ((generate rt env p).exec f).2 := by
  rw [exec_generate]
  refine Assigned.trans ?_ assigned_run
  unfold started
  split
  · exact assigned_moveTo _
  · exact .refl f

/-! ## What assignments leave alone -/

/-- What an assignment of a phase run does not touch. -/
structure Unassigned (f g : AuditFlow) : Prop where
  trail : g.state.approvalTrail = f.state.approvalTrail
  sessionId : g.sessionId = f.sessionId

theorem unassigned_apply (w : PhaseWrite) : Unassigned f (w.apply rt p f) := by
  cases w with
  | artifact model =>
      unfold PhaseWrite.apply
      dsimp only
      cases hstore : storeArtifact rt p model f.state with
      | error err => exact ⟨rfl, rfl⟩
      | ok s => exact ⟨(storeArtifact_eq_ok hstore).2.trail, rfl⟩
  | clearArtifact => exact ⟨(clearArtifact_spec p f.state).2.trail, rfl⟩
  | machine target => exact ⟨rfl, rfl⟩
  | commitStatus => exact ⟨rfl, rfl⟩
  | qaRejectionReason reason => exact ⟨rfl, rfl⟩
  | dossier text => exact ⟨rfl, rfl⟩
  | generationRuns runs => exact ⟨rfl, rfl⟩
  | skills skills ids => exact ⟨rfl, rfl⟩
  | kickoff kickoff => exact ⟨rfl, rfl⟩

end AuditFlow

/-! ## A phase thread -/

namespace SessionService

variable {rt : Runtime} {co : Coercions} {s : SessionService} {t : ThreadId}

theorem write_self (s : SessionService) (ref : FlowRef) : s.write ref (s.heap ref) = s := by
  unfold write
  have hheap : (fun r => if r = ref then s.heap ref else s.heap r) = s.heap := by
    funext r
    by_cases hr : r = ref
    · rw [if_pos hr, hr]
    · rw [if_neg hr]
  rw [hheap]

theorem write_write (s : SessionService) (ref : FlowRef) (f g : AuditFlow) :
    (s.write ref f).write ref g = s.write ref g := by
  unfold write
  have hheap : (fun r => if r = ref then g else if r = ref then f else s.heap r) =
      fun r => if r = ref then g else s.heap r := by
    funext r
    by_cases hr : r = ref
    · rw [if_pos hr, if_pos hr]
    · rw [if_neg hr, if_neg hr, if_neg hr]
  dsimp only
  rw [hheap]

theorem final_assign {id : Str} {p : Phase} {ref : FlowRef} (hpc : s.pc t = .phase id p ref)
    (ws : List PhaseWrite) :
    LabelledRun.final (step rt co) s (ws.map (.assign t)) =
      s.write ref (ws.foldl (fun f w => w.apply rt p f) (s.heap ref)) := by
  induction ws generalizing s with
  | nil => exact (write_self s ref).symm
  | cons w ws ih =>
      have hstep : (s.step rt co (.assign t w)).2 = s.write ref (w.apply rt p (s.heap ref)) := by
        show (s.assign rt t w).2 = _
        unfold assign
        rw [hpc]
      have hafter : (s.write ref (w.apply rt p (s.heap ref))).pc t = .phase id p ref := hpc
      have hheap : (s.write ref (w.apply rt p (s.heap ref))).heap ref =
          w.apply rt p (s.heap ref) := if_pos rfl
      rw [List.map_cons, LabelledRun.final, hstep, ih hafter, hheap, write_write]
      rfl

/-- What a `generate_*` call does to the flow of a phase thread, the thread does in some of its
assignments. -/
theorem generate_assigns {id : Str} {p : Phase} {ref : FlowRef}
    (hpc : s.pc t = .phase id p ref) (env : Env) :
    ∃ ws : List PhaseWrite, LabelledRun.final (step rt co) s (ws.map (.assign t)) =
      s.write ref ((AuditFlow.generate rt env p).exec (s.heap ref)).2 := by
  rcases @AuditFlow.assigned_generate rt env p (s.heap ref) with ⟨ws, hws⟩
  exact ⟨ws, by rw [final_assign hpc, hws]⟩

end SessionService

end AuditSwarm
