import AuditSwarm.Lib.Episodes
import AuditSwarm.Linter.Trim
import AuditSwarm.Run.Entries
import AuditSwarm.Run.Lives

/-!
# Carried feedback

The feedback a phase run starts with is reconstructed from the last entry of the trail.  It is the
feedback of the step that opened the run: the notes of a return for rework, the reason of the QA
rejection that is retried, and nothing after any other step.
-/

namespace Python

/-! ## Texts that are not blank -/

theorem dropWhile_eq_self {α : Type} {q : α → Bool} {l : List α}
    (h : ∀ a, l.head? = some a → q a = false) : l.dropWhile q = l := by
  cases l with
  | nil => rfl
  | cons a l =>
      rw [List.dropWhile_cons_of_neg]
      rw [h a rfl]
      exact Bool.false_ne_true

theorem strip_strip (s : Str) : strip (strip s) = strip s := by
  unfold strip trimWith
  have hdrop : ((s.dropWhile isSpace).rdropWhile isSpace).dropWhile isSpace =
      (s.dropWhile isSpace).rdropWhile isSpace := by
    apply dropWhile_eq_self
    intro c hc
    have hhead := List.head?_dropWhile_not isSpace s
    rcases List.rdropWhile_prefix isSpace (s.dropWhile isSpace) with ⟨rest, hrest⟩
    cases hcase : (s.dropWhile isSpace).rdropWhile isSpace with
    | nil =>
        rw [hcase] at hc
        cases hc
    | cons a t =>
        rw [hcase] at hc hrest
        cases hc
        rw [← hrest] at hhead
        simpa using hhead
  rw [hdrop, List.rdropWhile_idempotent]

/-- A text with a part that is not blank is not blank. -/
theorem strip_ne_nil_of_infix {s t : Str} (h : s <:+: t) (hs : strip s ≠ []) : strip t ≠ [] := by
  intro hnil
  exact hs (strip_eq_nil_iff.mpr fun c hc => strip_eq_nil_iff.mp hnil c (h.subset hc))

theorem strip_join_ne_nil {sep x : Str} {xs : List Str} (hx : strip x ≠ []) :
    strip (join sep (x :: xs)) ≠ [] := by
  refine strip_ne_nil_of_infix ?_ hx
  cases xs with
  | nil => exact ⟨[], [], by simp [join, List.intercalate]⟩
  | cons y ys => exact ⟨[], sep ++ join sep (y :: ys), by simp [join, List.intercalate]⟩

end Python

namespace AuditSwarm

open Python StrEnum

namespace AuditFlow

variable {rt : Runtime} {co : Coercions} {env : Env} {f g : AuditFlow} {p : Phase}

/-! ## The reason of a rejection -/

theorem strip_qaRejection {qa : Option PyModel} {reason : Str} (h : qaRejection qa = some reason) :
    strip reason ≠ [] := by
  unfold qaRejection at h
  have hunparseable : strip qaUnparseableReason ≠ [] := by decide
  have hnone : strip qaNoReason ≠ [] := by decide
  split at h
  · cases h
    exact hunparseable
  · split at h
    · cases h
    · split at h
      · split at h
        · cases h
          exact hnone
        · rename_i hblank
          cases h
          exact hblank
      · cases h
        exact hnone
    · cases h
      exact hunparseable

theorem strip_evidenceRejection {attempt : Nat} {sessionId : Option Str}
    {artifact : Option PyModel} {reason : Str}
    (h : evidenceRejection rt env attempt p sessionId artifact = some reason) :
    strip reason ≠ [] := by
  have hstart : ∀ rest, strip (lit "Deterministic evidence check " ++ rest) ≠ [] := fun rest =>
    strip_ne_nil_of_infix ⟨[], rest, rfl⟩ (by decide)
  unfold evidenceRejection at h
  split at h
  · split at h
    · cases h
      exact hstart _
    · cases h
    · cases h
      exact hstart _
  · cases h

theorem strip_toFeedback {lint : LintReport} (h : lint.passed = false) :
    strip lint.toFeedback ≠ [] := by
  unfold LintReport.toFeedback
  rw [if_neg (of_decide_eq_false h)]
  exact strip_ne_nil_of_infix ⟨[], _, rfl⟩
    (by decide : strip (lit "Deterministic Audit Linter Violations:\n") ≠ [])

theorem strip_rejection {attempt : Nat} {inputs : CrewInputs} {judged : Judged} {reason : Str}
    (h : (runAttempt rt env p attempt inputs).exec f = (.ok (.ok judged), g))
    (hrejection : judged.rejection = some reason) : strip reason ≠ [] := by
  unfold runAttempt updateRun at h
  simp only [Proc.exec_modify_bind] at h
  cases hread : readOutputs rt p (env.kickoff p attempt inputs) with
  | error exc =>
      simp only [hread, Proc.exec_pure, Prod.mk.injEq] at h
      cases h.1
  | ok out =>
      rcases out with ⟨qa, artifact⟩
      simp only [hread, Proc.exec_get_bind, Proc.exec_modify_bind, Proc.exec_pure,
        Prod.mk.injEq, Except.ok.injEq] at h
      rw [← h.1] at hrejection
      dsimp only at hrejection
      generalize hfilter : List.filter (fun x : Str => decide (x ≠ [])) _ = reasons at hrejection
      cases reasons with
      | nil => cases hrejection
      | cons reason reasons =>
        cases Option.some.inj hrejection
        apply strip_join_ne_nil
        have hmem := hfilter ▸ @List.mem_cons_self _ reason reasons
        simp only [List.mem_filter, List.mem_filterMap, List.mem_cons, List.not_mem_nil, or_false,
          id_eq, exists_eq_right] at hmem
        rcases hmem.1 with hqa | hevidence | hlint
        · exact strip_qaRejection hqa.symm
        · exact strip_evidenceRejection hevidence.symm
        · split at hlint
          · rename_i hfailed
            cases hlint
            rw [Bool.and_eq_true, Bool.not_eq_true'] at hfailed
            exact strip_toFeedback hfailed.1
          · cases hlint

def ReasonHeld (p : Phase) (f : AuditFlow) : Prop :=
  f.machine.status = .qaRejected p →
    ∃ reason, f.state.qaRejectionReason = some reason ∧ strip reason ≠ []

theorem ReasonHeld.of_status (h : f.machine.status ≠ .qaRejected p) : ReasonHeld p f :=
  fun hs => absurd hs h

theorem reasonHeld_rejectRun {last : Judged} {reason : Str} (hs : f.machine.status = .running p)
    (hlast : last.rejection = some reason) (hreason : strip reason ≠ []) :
    ReasonHeld p ((rejectRun rt env p last).exec f).2 := by
  have hm : f.machine.rejectPhase p = .ok ⟨.qaRejected p⟩ :=
    AuditStateMachine.rejectPhase_eq_ok_iff.mpr ⟨hs, rfl⟩
  intro _
  refine ⟨reason, ?_, hreason⟩
  rw [← hlast]
  unfold rejectRun endRun updateRun
  simp only [Proc.exec_modify_bind, exec_transition_bind, hm]
  rfl

theorem reasonHeld_crewLoop {seeded : Str} {n attempt : Nat} {inputs : CrewInputs} {last : Judged}
    {r : Except Exn Bool} (hs : f.machine.status = .running p)
    (hlast : n = 0 → ∃ reason, last.rejection = some reason ∧ strip reason ≠ [])
    (h : (crewLoop rt env p seeded n attempt inputs last).exec f = (r, g)) : ReasonHeld p g := by
  induction n generalizing f attempt inputs last with
  | zero =>
      rcases hlast rfl with ⟨reason, hlast, hreason⟩
      have hheld := @reasonHeld_rejectRun rt env _ _ _ _ hs hlast hreason
      rcases (@rejectRun_ended rt env _ _ hs last) with ⟨g', hg, -, -⟩
      rw [hg] at hheld
      unfold crewLoop at h
      rw [Proc.exec_bind_ok hg, Proc.exec_pure, Prod.mk.injEq] at h
      rw [← h.2]
      exact hheld
  | succ n ih =>
      unfold crewLoop at h
      rcases hattempt : (runAttempt rt env p attempt inputs).exec f with ⟨ra, f1⟩
      rcases runAttempt_cases hattempt with ⟨runs, rfl, hcases⟩
      rcases hcases with ⟨text, rfl⟩ | ⟨qa, judged, rfl, -, -⟩
      · rcases @crash_ended env _ ((f.withRuns runs).withKickoff ⟨p, env.kickoff p attempt inputs⟩)
          hs (p.label ++ (if attempt = 1 then lit " crew" else lit " crew retry") ++
            lit " error: " ++ text) with ⟨g', hg, hend, -⟩
        rw [Proc.exec_bind_ok hattempt] at h
        rcases Prod.mk.inj (hg.symm.trans h) with ⟨-, rfl⟩
        apply ReasonHeld.of_status
        rw [hend.status]
        exact AuditStatus.noConfusion
      · rw [Proc.exec_bind_ok hattempt] at h
        cases hrejection : judged.rejection with
        | none =>
            simp only [hrejection] at h
            apply ReasonHeld.of_status
            rcases @approveRun_cases rt env _ ((f.withRuns runs).withKickoff
              ⟨p, env.kickoff p attempt inputs⟩) hs judged.artifact with
              ⟨g', hg, hend, -⟩ | ⟨g', a, -, hg, -, hmachine, -⟩
            · rcases Prod.mk.inj (hg.symm.trans h) with ⟨-, rfl⟩
              rw [hend.status]
              exact AuditStatus.noConfusion
            · rcases Prod.mk.inj (hg.symm.trans h) with ⟨-, rfl⟩
              rw [hmachine]
              show f.machine.status ≠ .qaRejected p
              rw [hs]
              exact AuditStatus.noConfusion
        | some rejection =>
            simp only [hrejection] at h
            exact ih (f := (f.withRuns runs).withKickoff _) hs
              (fun _ => ⟨rejection, hrejection, strip_rejection hattempt hrejection⟩) h

theorem reasonHeld_runCrewWithQa {inputs : CrewInputs} {r : Except Exn Bool}
    (hs : f.machine.status = .running p)
    (h : (runCrewWithQa rt env p inputs).exec f = (r, g)) : ReasonHeld p g := by
  have hstart := @exec_startGenerationRun rt env p f
  unfold runCrewWithQa at h
  cases hrun : newGenerationRun rt env p f with
  | error err =>
      rw [hrun] at hstart
      rw [Proc.exec_bind_error hstart] at h
      rcases Prod.mk.inj h with ⟨-, rfl⟩
      apply ReasonHeld.of_status
      rw [hs]
      exact AuditStatus.noConfusion
  | ok run =>
      rw [hrun] at hstart
      rw [Proc.exec_bind_ok hstart] at h
      exact reasonHeld_crewLoop (f := f.withRuns (f.state.generationRuns ++ [run])) hs
        (fun hzero => absurd hzero (by decide)) h

theorem reasonHeld_run {r : Except Exn Unit} (hs : f.machine.status = .running p)
    (h : ((runner rt env p).run rt env).exec f = (r, g)) : ReasonHeld p g := by
  have hrunning : ∀ k : AuditFlow, k.machine = f.machine → ReasonHeld p k := by
    intro k hk
    apply ReasonHeld.of_status
    rw [hk, hs]
    exact AuditStatus.noConfusion
  unfold PhaseRunner.run at h
  simp only [Proc.exec_get_bind, runner_phase, hs, ne_eq, not_true_eq_false, if_false] at h
  have hprepared := @exec_prepareSkills rt env p f
  cases hskills : prepared env p f with
  | error err =>
      rw [hskills] at hprepared
      rw [Proc.exec_bind_error hprepared] at h
      rcases Prod.mk.inj h with ⟨-, rfl⟩
      exact hrunning _ rfl
  | ok skills =>
      rw [hskills] at hprepared
      rw [Proc.exec_bind_ok hprepared, exec_setQaRejectionReason_bind, Proc.exec_get_bind] at h
      rw [show (f.withSkills skills.1 skills.2).withQaReason none = readied skills f from rfl] at h
      have hs' : (readied skills f).machine.status = .running p := hs
      cases hmissing : (runner rt env p).missingInput (readied skills f) with
      | some reason =>
          rcases failPhase_ended hs' reason with ⟨g', hg, hend, -⟩
          simp only [hmissing] at h
          rcases Prod.mk.inj (hg.symm.trans h) with ⟨-, rfl⟩
          apply ReasonHeld.of_status
          rw [hend.status]
          exact AuditStatus.noConfusion
      | none =>
          simp only [hmissing, Proc.exec_ofExcept_bind] at h
          cases hinputs : (runner rt env p).inputs (readied skills f) with
          | error err =>
              simp only [hinputs] at h
              rcases Prod.mk.inj h with ⟨-, rfl⟩
              exact hrunning _ rfl
          | ok inputs =>
              simp only [hinputs] at h
              rcases hcrew : (runCrewWithQa rt env p ((readied skills f).seedFeedback p
                inputs)).exec (readied skills f) with ⟨rc, g1⟩
              have hheld := reasonHeld_runCrewWithQa hs' hcrew
              rw [Proc.exec_bind, hcrew] at h
              cases rc with
              | error err =>
                  rcases Prod.mk.inj h with ⟨-, rfl⟩
                  exact hheld
              | ok ok =>
                  cases ok with
                  | false =>
                      rcases Prod.mk.inj h with ⟨-, rfl⟩
                      exact hheld
                  | true =>
                      dsimp only at h
                      rw [if_pos rfl, exec_transition_bind] at h
                      cases hdone : g1.machine.completePhase p with
                      | error err =>
                          rw [hdone] at h
                          rcases Prod.mk.inj h with ⟨-, rfl⟩
                          exact hheld
                      | ok m =>
                          rw [hdone] at h
                          rcases Prod.mk.inj h with ⟨-, rfl⟩
                          apply ReasonHeld.of_status
                          rcases AuditStateMachine.completePhase_eq_ok_iff.mp hdone with ⟨-, hm⟩
                          show m.status ≠ .qaRejected p
                          rw [hm]
                          exact AuditStatus.noConfusion

/-! ## What the trail carries -/

/-- The feedback a run of a phase starts with: the crew inputs have none of their own. -/
def startingFeedback (f : AuditFlow) (p : Phase) : Str :=
  (f.seedFeedback p f.scopeInputs).feedback

theorem startingFeedback_eq (f : AuditFlow) (p : Phase) :
    f.startingFeedback p = (f.carriedFeedback p).getD [] := by
  unfold startingFeedback seedFeedback
  cases f.carriedFeedback p with
  | none => rfl
  | some feedback =>
      dsimp only
      split
      · rename_i hnil
        rw [hnil]
        rfl
      · rfl

theorem startingFeedback_congr (h : g.state.approvalTrail = f.state.approvalTrail) (p : Phase) :
    g.startingFeedback p = f.startingFeedback p := by
  rw [startingFeedback_eq, startingFeedback_eq]
  unfold carriedFeedback
  rw [h]

theorem startingFeedback_other
    (h : ∀ e, f.state.approvalTrail.getLast? = some e → ∃ action,
      e.get? (lit "action") = some action ∧ action ≠ lit "return_for_rework" ∧
        action ≠ lit "retry") : f.startingFeedback p = [] := by
  rw [startingFeedback_eq]
  unfold carriedFeedback
  cases hlast : f.state.approvalTrail.getLast? with
  | none => rfl
  | some e =>
      rcases h e hlast with ⟨action, haction, hrework, hretry⟩
      dsimp only
      rw [haction, if_neg fun hand => hrework (Option.some.inj hand.1),
        if_pos (.inl fun heq => hretry (Option.some.inj heq))]
      rfl

theorem startingFeedback_rework {e : StrEntry} {notes : Str}
    (hlast : f.state.approvalTrail.getLast? = some e)
    (haction : e.get? (lit "action") = some (lit "return_for_rework"))
    (hgate : e.get? (lit "gate") = some (lit "Return for rework (" ++ p.label ++ lit ")"))
    (hnotes : e.get? (lit "notes") = some notes) (hne : strip notes ≠ []) :
    f.startingFeedback p = reworkFeedback (strip notes) := by
  rw [startingFeedback_eq]
  unfold carriedFeedback
  rw [hlast]
  dsimp only
  rw [if_pos ⟨haction, hgate⟩, Dict.getD, hnotes, Option.getD_some, if_neg hne]
  rfl

theorem startingFeedback_retry {e : StrEntry} {reason : Str}
    (hlast : f.state.approvalTrail.getLast? = some e)
    (haction : e.get? (lit "action") = some (lit "retry"))
    (hgate : e.get? (lit "gate") = some (lit "Retry (" ++ p.label ++ lit ")"))
    (hstatus : e.get? (lit "previous_status") = some (AuditStatus.qaRejected p).value)
    (hreason : e.get? (lit "previous_reason") = some reason) (hne : strip reason ≠ []) :
    f.startingFeedback p = qaFeedback p (strip reason) := by
  rw [startingFeedback_eq]
  unfold carriedFeedback
  rw [hlast]
  dsimp only
  have hother : some (lit "retry") ≠ some (lit "return_for_rework") := by decide
  rw [haction, if_neg fun hand => hother hand.1,
    if_neg (by
      rw [hgate, hstatus]
      simp only [ne_eq, not_true_eq_false, or_self, not_false_eq_true]),
    Dict.getD, hreason, Option.getD_some, if_neg hne]
  rfl

/-- A retry out of another status than the rejection of the phase carries nothing. -/
theorem startingFeedback_retry_other {e : StrEntry} {status : Str}
    (hlast : f.state.approvalTrail.getLast? = some e)
    (haction : e.get? (lit "action") = some (lit "retry"))
    (hstatus : e.get? (lit "previous_status") = some status)
    (hne : status ≠ (AuditStatus.qaRejected p).value) : f.startingFeedback p = [] := by
  rw [startingFeedback_eq]
  unfold carriedFeedback
  rw [hlast]
  dsimp only
  have hother : some (lit "retry") ≠ some (lit "return_for_rework") := by decide
  rw [haction, if_neg fun hand => hother hand.1,
    if_pos (.inr (.inr fun heq => hne (Option.some.inj (hstatus.symm.trans heq))))]
  rfl

/-! ## While a phase runs, and while it is rejected -/

theorem not_recordable_running (t : DecisionType) (p : Phase) :
    Policy.decisionStatusViolation t (AuditStatus.running p).value ≠ none := by
  cases t <;> cases p <;> decide

theorem not_recordable_waiting (t : DecisionType) :
    Policy.decisionStatusViolation t AuditStatus.waitingForScope.value ≠ none := by
  cases t <;> decide

/-- While a phase runs, no recorded action passes its checks but the recording of a preparer. -/
theorem preparer_of_running {a : RecordedAction} {k : (recorded rt env a).κ}
    (hs : f.machine.status = .running p) (hk : (recorded rt env a).check f = .ok k) :
    ∃ preparedBy required source, a = .recordPreparer preparedBy required source := by
  cases a with
  | recordPreparer preparedBy required source => exact ⟨preparedBy, required, source, rfl⟩
  | recordDecision req =>
      have hstatus := (Decisions.buildDecision_eq_ok hk).status
      rw [hs] at hstatus
      exact absurd hstatus (not_recordable_running _ p)
  | approveGate gate humanId source =>
      have hstatus := (checkApproval_eq_ok hk).status
      rw [hs] at hstatus
      cases hstatus
  | retryPhase phase humanId source =>
      rcases (retryAction_check_eq_ok hk).2 with hstatus | hstatus
      · rw [hs] at hstatus
        cases hstatus
      · rw [hs] at hstatus
        cases hstatus
  | returnForRework phase humanId notes source =>
      have hstatus := (checkRework_eq_ok hk).status
      rw [hs] at hstatus
      cases hstatus
  | overrideQaRejection phase humanId reason source =>
      have hstatus := (checkOverride_eq_ok hk).status
      rw [hs] at hstatus
      cases hstatus

def LifeEvent.recordsPreparer : LifeEvent → Bool
  | .call ⟨_, .record (.recordPreparer _ _ _)⟩ => true
  | _ => false

/-- What a life is assumed to satisfy at each event: no digest fails to be computed, and no
preparer is recorded while a phase runs. -/
structure Undisturbed (t : Transition AuditFlow LifeEvent (Except Exn Unit)) : Prop where
  digest : ∀ cause, t.result ≠ .error (.digest cause)
  preparer : t.label.recordsPreparer = true → ∀ p, t.before.machine.status ≠ .running p

def LifeUndisturbed (rt : Runtime) (co : Coercions) (f : AuditFlow) (events : List LifeEvent) :
    Prop :=
  ∀ t ∈ lifeTrace rt co f events, Undisturbed t

theorem undisturbed_iff {t : Transition AuditFlow LifeEvent (Except Exn Unit)} :
    Undisturbed t ↔ digestFailed t.result = false ∧ (t.label.recordsPreparer = true →
      ∀ p ∈ [Phase.planning, .fieldwork, .reporting], t.before.machine.status ≠ .running p) := by
  constructor
  · intro h
    exact ⟨digestFailed_eq_false_iff.mpr h.digest, fun hprep p _ => h.preparer hprep p⟩
  · intro h
    exact ⟨digestFailed_eq_false_iff.mp h.1, fun hprep p => h.2 hprep p (by cases p <;> decide)⟩

instance (f : AuditFlow) (events : List LifeEvent) : Decidable (LifeUndisturbed rt co f events) :=
  decidable_of_iff (∀ t ∈ lifeTrace rt co f events, digestFailed t.result = false ∧
      (t.label.recordsPreparer = true → ∀ p ∈ [Phase.planning, .fieldwork, .reporting],
        t.before.machine.status ≠ .running p))
    (forall₂_congr fun _ _ => undisturbed_iff.symm)

/-- What the two kinds of calls that are no recorded action do. -/
theorem trail_unrecorded {c : Call} (h : ∀ a, c.op ≠ .record a) :
    (step rt f c).2.state.approvalTrail = f.state.approvalTrail := by
  rcases c with ⟨env, op⟩
  cases op with
  | record a => exact absurd rfl (h a)
  | beginPhase1 =>
      have hstep : step rt f ⟨env, .beginPhase1⟩ = beginPhase1.exec f := rfl
      rcases exec_beginPhase1 f with ⟨-, hexec⟩ | ⟨_, _, hexec⟩
      · rw [hstep, hexec]
        rfl
      · rw [hstep, hexec]
  | generate q =>
      rcases @generate_cases rt env f _ _ q rfl with ⟨e, -, hg⟩ | ⟨-, ks, -, hframe, -⟩
      · rw [show (step rt f ⟨env, .generate q⟩).2 = f from hg]
      · exact hframe.trail

theorem act_undisturbed {a : RecordedAction} {r : Except Exn Unit} (h : act rt env a f = (r, g))
    (hdigest : ∀ cause, r ≠ .error (.digest cause)) :
    g = f ∨ ∃ k e, (recorded rt env a).check f = .ok k ∧ EntryOf rt env a f k e ∧
      g = (recorded rt env a).conclude k (pushEntry e ((recorded rt env a).mutate k f)) := by
  rcases act_entry h with ⟨err, -, -, hg⟩ | ⟨k, err, hk, hseal, hr, -⟩ | ⟨k, e, hk, he, -, hg⟩
  · exact .inl hg
  · rcases sealOf_cases hk ((recorded rt env a).mutate k f) with ⟨cause, hcause⟩ | ⟨e, he, -⟩
    · rw [hseal] at hcause
      rw [Except.error.inj hcause] at hr
      exact absurd hr (hdigest cause)
    · cases hseal.symm.trans he
  · exact .inr ⟨k, e, hk, he, hg⟩

theorem trail_while_running (hrt : LowersAscii rt) (hf : f.Storable) {e : LifeEvent}
    (h : Undisturbed (LabelledRun.transition (lifeStep rt co) f e))
    (hs : f.machine.status = .running p) :
    (lifeStep rt co f e).2.state.approvalTrail = f.state.approvalTrail := by
  cases e with
  | restart env sessions id => exact (restartFrame_restarted hrt hf sessions id).trail
  | call c =>
      rcases c with ⟨env, op⟩
      by_cases hrecord : ∃ a, op = .record a
      · rcases hrecord with ⟨a, rfl⟩
        rcases @act_undisturbed rt env f _ a _ rfl h.digest with
          hg | ⟨k, e, hk, -, -⟩
        · exact congrArg (·.state.approvalTrail) hg
        · rcases preparer_of_running hs hk with ⟨preparedBy, required, source, rfl⟩
          exact absurd hs (h.preparer rfl p)
      · exact trail_unrecorded fun a ha => hrecord ⟨a, ha⟩

/-- A run that was started does not end with the audit waiting for its scope, and ends rejected
only as the phase it is a run of. -/
theorem status_of_generated {ks : List Kickoff} {r : Except Exn Unit} {q : Phase}
    (hs : (started q f).machine.status = .running q)
    (hend : GenerationEnd rt env q (started q f) g ks r) :
    g.machine.status ≠ .waitingForScope ∧ (∀ p, g.machine.status = .qaRejected p → q = p) ∧
      ∀ p, g.machine.status = .running p → g.machine = (started q f).machine ∧ q = p := by
  cases hend with
  | stuck err hsetup hr hmachine hstatus hartifact hks =>
      rw [hmachine, hs]
      refine ⟨AuditStatus.noConfusion, fun p hp => AuditStatus.noConfusion hp, fun p hp => ?_⟩
      exact ⟨rfl, AuditStatus.running.inj hp⟩
  | ended hsetup hr hmirror hend =>
      cases hend with
      | failed hstatus hartifact =>
          rw [hstatus]
          exact ⟨AuditStatus.noConfusion, fun p hp => AuditStatus.noConfusion hp,
            fun p hp => AuditStatus.noConfusion hp⟩
      | rejected hstatus hks hrejected =>
          rw [hstatus]
          exact ⟨AuditStatus.noConfusion, fun p hp => AuditStatus.qaRejected.inj hp,
            fun p hp => AuditStatus.noConfusion hp⟩
      | approved hstatus hks happroved =>
          rw [hstatus]
          exact ⟨AuditStatus.noConfusion, fun p hp => AuditStatus.noConfusion hp,
            fun p hp => AuditStatus.noConfusion hp⟩

theorem reason_while_rejected (hrt : LowersAscii rt) (hf : f.Storable) {e : LifeEvent}
    (h : Undisturbed (LabelledRun.transition (lifeStep rt co) f e))
    (hs : f.machine.status = .qaRejected p)
    (hafter : (lifeStep rt co f e).2.machine.status = .qaRejected p) :
    (lifeStep rt co f e).2.state.qaRejectionReason = f.state.qaRejectionReason := by
  cases e with
  | restart env sessions id => exact (restartFrame_restarted hrt hf sessions id).reason
  | call c =>
      rcases c with ⟨env, op⟩
      cases op with
      | record a =>
          rcases @act_undisturbed rt env f _ a _ rfl h.digest with
            hg | ⟨k, e, -, -, hg⟩
          · exact congrArg (·.state.qaRejectionReason) hg
          · have hstatus : ((recorded rt env a).conclude k (pushEntry e
                ((recorded rt env a).mutate k f))).machine.status = .qaRejected p :=
              (congrArg (·.machine.status) hg).symm.trans hafter
            refine (congrArg (·.state.qaRejectionReason) hg).trans ?_
            cases a with
            | returnForRework phase humanId notes source => cases hstatus
            | overrideQaRejection phase humanId reason source => cases hstatus
            | recordPreparer preparedBy required source => rfl
            | recordDecision req => rfl
            | approveGate gate humanId source => rfl
            | retryPhase phase humanId source => rfl
      | beginPhase1 =>
          have hstep : lifeStep rt co f (.call ⟨env, .beginPhase1⟩) = beginPhase1.exec f := rfl
          rcases exec_beginPhase1 f with ⟨hwaiting, -⟩ | ⟨_, _, hexec⟩
          · rw [hs] at hwaiting
            cases hwaiting
          · rw [hstep, hexec]
      | generate q =>
          rcases @generate_cases rt env f _ _ q rfl with ⟨e, -, hg⟩ | ⟨hstarted, -⟩
          · exact congrArg (·.state.qaRejectionReason) hg
          · rcases started_status.mp hstarted with hrunning | ⟨-, hwaiting⟩
            · rw [hs] at hrunning
              cases hrunning
            · rw [hs] at hwaiting
              cases hwaiting

/-- Only a run of the phase makes it rejected, and it has stored the reason then. -/
theorem rejected_by_run (hrt : LowersAscii rt) (hf : f.Storable) {e : LifeEvent}
    (h : Undisturbed (LabelledRun.transition (lifeStep rt co) f e))
    (hs : f.machine.status ≠ .qaRejected p)
    (hafter : (lifeStep rt co f e).2.machine.status = .qaRejected p) :
    ∃ env, e = .call ⟨env, .generate p⟩ ∧
      ∃ reason, (lifeStep rt co f e).2.state.qaRejectionReason = some reason ∧
        strip reason ≠ [] := by
  cases e with
  | restart env sessions id =>
      have hmachine := (@restartFrame_restarted rt co env f hrt hf sessions id).machine
      have hafter' : (restarted rt co env sessions id f).machine.status = .qaRejected p := hafter
      rw [hmachine] at hafter'
      exact absurd hafter' hs
  | call c =>
      rcases c with ⟨env, op⟩
      cases op with
      | record a =>
          exfalso
          rcases @act_undisturbed rt env f _ a _ rfl h.digest with
            hg | ⟨k, e, -, -, hg⟩
          · exact hs ((congrArg (·.machine.status) hg).symm.trans hafter)
          · have hstatus : ((recorded rt env a).conclude k (pushEntry e
                ((recorded rt env a).mutate k f))).machine.status = .qaRejected p :=
              (congrArg (·.machine.status) hg).symm.trans hafter
            cases a with
            | recordPreparer preparedBy required source => exact hs hstatus
            | recordDecision req => exact hs hstatus
            | approveGate gate humanId source => cases gate <;> cases hstatus
            | retryPhase phase humanId source => cases hstatus
            | returnForRework phase humanId notes source => cases hstatus
            | overrideQaRejection phase humanId reason source => cases hstatus
      | beginPhase1 =>
          exfalso
          have hstep : lifeStep rt co f (.call ⟨env, .beginPhase1⟩) = beginPhase1.exec f := rfl
          rw [hstep] at hafter
          rcases exec_beginPhase1 f with ⟨-, hexec⟩ | ⟨_, _, hexec⟩
          · rw [hexec] at hafter
            cases hafter
          · rw [hexec] at hafter
            exact hs hafter
      | generate q =>
          rcases @generate_cases rt env f _ _ q rfl with ⟨e, -, hg⟩ | ⟨hstarted, ks, -, -, hend⟩
          · exact absurd ((congrArg (·.machine.status) hg).symm.trans hafter) hs
          · rcases (status_of_generated hstarted hend).2.1 p hafter with rfl
            rcases hrun : ((runner rt env q).run rt env).exec (started q f) with ⟨r, g⟩
            have hg : (lifeStep rt co f (.call ⟨env, .generate q⟩)).2 = g :=
              congrArg Prod.snd ((exec_generate q f).trans hrun)
            have hheld := reasonHeld_run hstarted hrun
            rw [hg] at hafter ⊢
            exact ⟨env, rfl, hheld hafter⟩

/-! ## How a run is opened -/

/-- While the audit waits for its scope, its trail has nothing but preparers. -/
def Scoping (f : AuditFlow) : Prop :=
  f.machine.status = .waitingForScope →
    ∀ e ∈ f.state.approvalTrail, e.get? (lit "action") = some (lit "audit_created")

theorem scoping_lifeStep (hrt : LowersAscii rt) (hf : f.Storable) {e : LifeEvent}
    (h : Undisturbed (LabelledRun.transition (lifeStep rt co) f e)) (hscoping : Scoping f) :
    Scoping (lifeStep rt co f e).2 := by
  intro hafter
  cases e with
  | restart env sessions id =>
      have hframe := @restartFrame_restarted rt co env f hrt hf sessions id
      have hafter' : (restarted rt co env sessions id f).machine.status = .waitingForScope := hafter
      show ∀ e ∈ (restarted rt co env sessions id f).state.approvalTrail, _
      rw [hframe.trail]
      rw [hframe.machine] at hafter'
      exact hscoping hafter'
  | call c =>
      rcases c with ⟨env, op⟩
      cases op with
      | record a =>
          rcases @act_undisturbed rt env f _ a _ rfl h.digest with
            hg | ⟨k, e, hk, he, hg⟩
          · have hgf : (lifeStep rt co f (.call ⟨env, .record a⟩)).2 = f := hg
            rw [hgf] at hafter ⊢
            exact hscoping hafter
          · have hgf : (lifeStep rt co f (.call ⟨env, .record a⟩)).2 = _ := hg
            rw [hgf] at hafter ⊢
            rw [act_trail]
            intro e' he'
            cases a with
            | recordPreparer preparedBy required source =>
                rcases List.mem_append.mp he' with he' | he'
                · exact hscoping hafter e' he'
                · rw [List.mem_singleton.mp he']
                  exact he.stamped.action
            | recordDecision req =>
                have hstatus := (Decisions.buildDecision_eq_ok hk).status
                have hwaiting : f.machine.status = .waitingForScope := hafter
                rw [hwaiting] at hstatus
                exact absurd hstatus (not_recordable_waiting _)
            | approveGate gate humanId source => cases gate <;> cases hafter
            | retryPhase phase humanId source => cases hafter
            | returnForRework phase humanId notes source => cases hafter
            | overrideQaRejection phase humanId reason source => cases hafter
      | beginPhase1 =>
          have hstep : lifeStep rt co f (.call ⟨env, .beginPhase1⟩) = beginPhase1.exec f := rfl
          rw [hstep] at hafter ⊢
          rcases exec_beginPhase1 f with ⟨-, hexec⟩ | ⟨_, _, hexec⟩
          · rw [hexec] at hafter
            cases hafter
          · rw [hexec] at hafter ⊢
            exact hscoping hafter
      | generate q =>
          rcases @generate_cases rt env f _ _ q rfl with ⟨e, -, hg⟩ | ⟨hstarted, ks, -, -, hend⟩
          · have hgf : (lifeStep rt co f (.call ⟨env, .generate q⟩)).2 = f := hg
            rw [hgf] at hafter ⊢
            exact hscoping hafter
          · exact absurd hafter (status_of_generated hstarted hend).1

theorem startingFeedback_scoping
    (h : ∀ e ∈ f.state.approvalTrail, e.get? (lit "action") = some (lit "audit_created")) :
    f.startingFeedback p = [] :=
  startingFeedback_other fun e he =>
    ⟨lit "audit_created", h e (List.mem_of_getLast? he), by decide, by decide⟩

/-- The feedback of a run that was opened by a call on this flow. -/
structure OpenedBy (f : AuditFlow) (op : Op) (p : Phase) (feedback : Str) : Prop where
  rework : ∀ phase humanId notes source,
    op = .record (.returnForRework phase humanId notes source) →
      feedback = reworkFeedback (strip notes)
  rejected : ∀ phase humanId source, op = .record (.retryPhase phase humanId source) →
    f.machine.status = .qaRejected p → ∀ reason, f.state.qaRejectionReason = some reason →
      strip reason ≠ [] → feedback = qaFeedback p (strip reason)
  otherwise : (∀ phase humanId notes source,
      op ≠ .record (.returnForRework phase humanId notes source)) →
    ((∃ phase humanId source, op = .record (.retryPhase phase humanId source)) →
      f.machine.status ≠ .qaRejected p) → feedback = []

/-- A call that is neither a return for rework nor a retry opens a run without feedback. -/
theorem openedBy_nothing {op : Op} {feedback : Str} (hfeedback : feedback = [])
    (hrework : ∀ phase humanId notes source,
      op ≠ .record (.returnForRework phase humanId notes source))
    (hretry : ∀ phase humanId source, op ≠ .record (.retryPhase phase humanId source)) :
    OpenedBy f op p feedback where
  rework phase humanId notes source h := absurd h (hrework phase humanId notes source)
  rejected phase humanId source h := absurd h (hretry phase humanId source)
  otherwise _ _ := hfeedback

theorem openedBy_retry {phase : Int} {humanId source : Str} {k : RetryPlan} {e : StrEntry}
    (hk : (recorded rt env (.retryPhase phase humanId source)).check f = .ok k)
    (he : EntryOf rt env (.retryPhase phase humanId source) f k e) (hp : k.phase = p)
    (hlast : g.state.approvalTrail.getLast? = some e) :
    OpenedBy f (.record (.retryPhase phase humanId source)) p (g.startingFeedback p) := by
  rcases he.extra with ⟨x, hx, hget⟩
  have hchecked := retryAction_check_eq_ok hk
  have hprevious : k.previous = f.machine.status.value := (checkRetry_eq_ok hchecked.1).2.2.2.2
  have hx' := Except.ok.inj hx
  have hstatus : e.get? (lit "previous_status") = some f.machine.status.value := by
    rw [hget _ (by simp [commonKeys, Trail.hashFields]), ← hx', ← hprevious]
    rfl
  have hreason : e.get? (lit "previous_reason") = some (f.state.qaRejectionReason.getD []) := by
    rw [hget _ (by simp [commonKeys, Trail.hashFields]), ← hx']
    rfl
  have hgate : e.get? (lit "gate") = some (lit "Retry (" ++ p.label ++ lit ")") := by
    rw [← hp]
    exact he.stamped.gate
  refine ⟨fun _ _ _ _ hop => (by cases hop), fun _ _ _ _ hrejected reason hsome hne => ?_,
    fun _ hnot => ?_⟩
  · rw [hrejected] at hstatus
    rw [hsome, Option.getD_some] at hreason
    exact startingFeedback_retry hlast he.stamped.action hgate hstatus hreason hne
  · have hother := hnot ⟨phase, humanId, source, rfl⟩
    rcases hchecked.2 with hrejected | herror
    · rw [hp] at hrejected
      exact absurd hrejected hother
    · refine startingFeedback_retry_other hlast he.stamped.action hstatus ?_
      rw [herror]
      generalize k.phase = q
      cases q <;> cases p <;> decide

theorem notes_of_checkRework {phase : Int} {humanId notes source : Str} {plan : ReworkPlan}
    (h : checkRework rt phase humanId notes source f = .ok plan) : strip notes ≠ [] := by
  unfold checkRework at h
  rcases Except.bind_eq_ok_iff.mp h with ⟨_, -, h⟩
  rcases Except.bind_eq_ok_iff.mp h with ⟨_, -, h⟩
  rcases Except.bind_eq_ok_iff.mp h with ⟨_, hnotes, -⟩
  exact (requireText_eq_ok_iff.mp hnotes).1

theorem openedBy_rework {phase : Int} {humanId notes source : Str} {k : ReworkPlan} {e : StrEntry}
    (hk : (recorded rt env (.returnForRework phase humanId notes source)).check f = .ok k)
    (he : EntryOf rt env (.returnForRework phase humanId notes source) f k e) (hp : k.phase = p)
    (hlast : g.state.approvalTrail.getLast? = some e) :
    OpenedBy f (.record (.returnForRework phase humanId notes source)) p
      (g.startingFeedback p) := by
  rcases he.extra with ⟨x, hx, hget⟩
  have hx' : reworkExtra rt ((recorded rt env
      (.returnForRework phase humanId notes source)).mutate k f) k = .ok x := hx
  unfold reworkExtra at hx'
  rcases Except.bind_eq_ok_iff.mp hx' with ⟨digest, -, hfields⟩
  have hfields' := Except.pure_eq_ok_iff.mp hfields
  have hnotes : e.get? (lit "notes") = some k.notes := by
    rw [hget _ (by simp [commonKeys, Trail.hashFields]), ← hfields']
    rfl
  have hgate : e.get? (lit "gate") = some (lit "Return for rework (" ++ p.label ++ lit ")") := by
    rw [← hp]
    exact he.stamped.gate
  refine ⟨fun _ _ notes' _ hop => ?_, fun _ _ _ hop => (by cases hop), fun hnot => ?_⟩
  · cases hop
    have hstrip : k.notes = strip notes := (checkRework_eq_ok hk).notes
    have hne : strip k.notes ≠ [] := by
      rw [hstrip, strip_strip]
      exact notes_of_checkRework hk
    rw [startingFeedback_rework hlast he.stamped.action hgate hnotes hne, hstrip, strip_strip]
  · exact absurd rfl (hnot phase humanId notes source)

/-- The feedback the flow carries once a call has opened a run. -/
theorem opened (hrt : LowersAscii rt) (hf : f.Storable) (hscoping : Scoping f) {e : LifeEvent}
    (h : Undisturbed (LabelledRun.transition (lifeStep rt co) f e))
    (hs : f.machine.status ≠ .running p)
    (hafter : (lifeStep rt co f e).2.machine.status = .running p) :
    ∃ c, e = .call c ∧ OpenedBy f c.op p ((lifeStep rt co f e).2.startingFeedback p) := by
  cases e with
  | restart env sessions id =>
      have hmachine := (@restartFrame_restarted rt co env f hrt hf sessions id).machine
      have hafter' : (restarted rt co env sessions id f).machine.status = .running p := hafter
      rw [hmachine] at hafter'
      exact absurd hafter' hs
  | call c =>
      refine ⟨c, rfl, ?_⟩
      rcases c with ⟨env, op⟩
      cases op with
      | record a =>
          rcases @act_undisturbed rt env f _ a _ rfl h.digest with
            hg | ⟨k, e, hk, he, hg⟩
          · exact absurd ((congrArg (·.machine.status) hg).symm.trans hafter) hs
          · have hgf : (lifeStep rt co f (.call ⟨env, .record a⟩)).2 = _ := hg
            have hlast : (lifeStep rt co f
                (.call ⟨env, .record a⟩)).2.state.approvalTrail.getLast? = some e := by
              rw [hgf, act_trail, List.getLast?_concat]
            rw [hgf] at hafter
            cases a with
            | recordPreparer preparedBy required source => exact absurd hafter hs
            | recordDecision req => exact absurd hafter hs
            | approveGate gate humanId source =>
                refine openedBy_nothing (startingFeedback_other fun e' he' => ?_)
                  (fun _ _ _ _ heq => by cases heq) fun _ _ _ heq => by cases heq
                rw [hlast] at he'
                rw [← Option.some.inj he']
                exact ⟨lit "gate_approval", he.stamped.action, by decide, by decide⟩
            | retryPhase phase humanId source =>
                exact openedBy_retry hk he (AuditStatus.running.inj hafter) hlast
            | returnForRework phase humanId notes source =>
                exact openedBy_rework hk he (AuditStatus.running.inj hafter) hlast
            | overrideQaRejection phase humanId reason source => cases hafter
      | beginPhase1 =>
          have hstep : lifeStep rt co f (.call ⟨env, .beginPhase1⟩) = beginPhase1.exec f := rfl
          refine openedBy_nothing ?_ (fun _ _ _ _ heq => by cases heq)
            fun _ _ _ heq => by cases heq
          rcases exec_beginPhase1 f with ⟨hwaiting, hexec⟩ | ⟨_, _, hexec⟩
          · rw [hstep, hexec]
            exact startingFeedback_scoping (hscoping hwaiting)
          · rw [hstep, hexec] at hafter
            exact absurd hafter hs
      | generate q =>
          refine openedBy_nothing ?_ (fun _ _ _ _ heq => by cases heq)
            fun _ _ _ heq => by cases heq
          rcases @generate_cases rt env f _ _ q rfl with
            ⟨e, -, hg⟩ | ⟨hstarted, ks, -, hframe, hend⟩
          · exact absurd ((congrArg (·.machine.status) hg).symm.trans hafter) hs
          · rcases (status_of_generated hstarted hend).2.2 p hafter with ⟨-, rfl⟩
            rcases started_status.mp hstarted with hrunning | ⟨-, hwaiting⟩
            · exact absurd hrunning hs
            · apply startingFeedback_scoping
              have htrail : (lifeStep rt co f (.call ⟨env, .generate q⟩)).2.state.approvalTrail =
                  f.state.approvalTrail := hframe.trail
              rw [htrail]
              exact hscoping hwaiting

/-! ## Whole lives -/

/-- What holds at every point of an undisturbed life. -/
structure LifeInv (f : AuditFlow) : Prop where
  storable : f.Storable
  scoping : Scoping f

theorem lifeInv_fresh (theme businessContext : Str) (frameworks : List Str)
    (sessionId : Option Str) : LifeInv (.fresh theme businessContext frameworks sessionId) where
  storable := storable_fresh theme businessContext frameworks sessionId
  scoping := fun _ _ he => absurd he List.not_mem_nil

theorem lifeInv_afterLife (hrt : LowersAscii rt) {events : List LifeEvent}
    (h : LifeUndisturbed rt co f events) (hf : LifeInv f) :
    LifeInv (afterLife rt co f events) := by
  refine LabelledRun.invariant (lifeStep rt co) (fun g e hstep hg => ?_) h hf
  exact ⟨storable_lifeStep hrt e hg.storable, scoping_lifeStep hrt hg.storable hstep hg.scoping⟩

theorem LifeUndisturbed.left {events more : List LifeEvent}
    (h : LifeUndisturbed rt co f (events ++ more)) : LifeUndisturbed rt co f events := by
  intro t ht
  refine h t ?_
  rw [lifeTrace, LabelledRun.trace_append]
  exact List.mem_append_left _ ht

theorem LifeUndisturbed.head {events : List LifeEvent} {e : LifeEvent} {more : List LifeEvent}
    (h : LifeUndisturbed rt co f (events ++ e :: more)) :
    Undisturbed (LabelledRun.transition (lifeStep rt co) (afterLife rt co f events) e) := by
  refine h _ ?_
  rw [lifeTrace, LabelledRun.trace_append]
  exact List.mem_append_right _ List.mem_cons_self

/-- The point of a life since which the phase is running, with the call that opened it. -/
abbrev RunOpened (rt : Runtime) (co : Coercions) (start : AuditFlow) (p : Phase) :=
  LabelledRun.Entered (lifeStep rt co) (fun f => f.machine.status = .running p) start

/-- The point of a life since which the phase is rejected, with the call that rejected it. -/
abbrev RunRejected (rt : Runtime) (co : Coercions) (start : AuditFlow) (p : Phase) :=
  LabelledRun.Entered (lifeStep rt co) (fun f => f.machine.status = .qaRejected p) start

theorem feedback_since_opened (hrt : LowersAscii rt) {start : AuditFlow}
    {before later : List LifeEvent} {e : LifeEvent} (hstart : LifeInv start)
    (h : LifeUndisturbed rt co start (before ++ e :: later))
    (hopened : RunOpened rt co start p before e later) :
    ∃ c, e = .call c ∧ OpenedBy (afterLife rt co start before) c.op p
      ((afterLife rt co start (before ++ e :: later)).startingFeedback p) := by
  have hbefore := lifeInv_afterLife hrt h.left hstart
  rcases opened hrt hbefore.storable hbefore.scoping h.head hopened.outside hopened.entered with
    ⟨c, hc, hopenedBy⟩
  refine ⟨c, hc, ?_⟩
  have hkept : (afterLife rt co start (before ++ e :: later)).Storable ∧
      (afterLife rt co start (before ++ e :: later)).state.approvalTrail =
        (lifeStep rt co (afterLife rt co start before) e).2.state.approvalTrail := by
    refine hopened.invariant (I := fun g => g.Storable ∧ g.state.approvalTrail =
      (lifeStep rt co (afterLife rt co start before) e).2.state.approvalTrail) h
      ⟨storable_lifeStep hrt e hbefore.storable, rfl⟩ ?_
    intro g e' hstep hrunning _ hg
    exact ⟨storable_lifeStep hrt e' hg.1,
      (trail_while_running hrt hg.1 hstep hrunning).trans hg.2⟩
  rw [startingFeedback_congr hkept.2]
  exact hopenedBy

theorem reason_since_rejected (hrt : LowersAscii rt) {start : AuditFlow}
    {before later : List LifeEvent} {e : LifeEvent} (hstart : LifeInv start)
    (h : LifeUndisturbed rt co start (before ++ e :: later))
    (hrejected : RunRejected rt co start p before e later) :
    ∃ env reason, e = .call ⟨env, .generate p⟩ ∧ strip reason ≠ [] ∧
      (afterLife rt co start (before ++ [e])).state.qaRejectionReason = some reason ∧
      (afterLife rt co start (before ++ e :: later)).state.qaRejectionReason = some reason := by
  have hbefore := lifeInv_afterLife hrt h.left hstart
  rcases rejected_by_run hrt hbefore.storable h.head hrejected.outside hrejected.entered with
    ⟨env, he, reason, hreason, hne⟩
  refine ⟨env, reason, he, hne, ?_, ?_⟩
  · rw [afterLife, LabelledRun.final_concat]
    exact hreason
  · refine (hrejected.invariant (I := fun g => g.Storable ∧
      g.state.qaRejectionReason = some reason) h
      ⟨storable_lifeStep hrt e hbefore.storable, hreason⟩ ?_).2
    intro g e' hstep hs hafter hg
    exact ⟨storable_lifeStep hrt e' hg.1,
      (reason_while_rejected hrt hg.1 hstep hs hafter).trans hg.2⟩

/-- The feedback of a run opened by `c` after the events `before`. -/
structure FeedbackOf (rt : Runtime) (co : Coercions) (start : AuditFlow) (p : Phase)
    (before : List LifeEvent) (c : Call) (feedback : Str) : Prop where
  /-- The notes of a return for rework. -/
  rework : ∀ phase humanId notes source,
    c.op = .record (.returnForRework phase humanId notes source) →
      feedback = reworkFeedback (strip notes)
  /-- The reason the run before was rejected for, when that is retried. -/
  rejected : ∀ phase humanId source, c.op = .record (.retryPhase phase humanId source) →
    (afterLife rt co start before).machine.status = .qaRejected p →
      ∃ earlier env since reason, before = earlier ++ .call ⟨env, .generate p⟩ :: since ∧
        RunRejected rt co start p earlier (.call ⟨env, .generate p⟩) since ∧
        (afterLife rt co start (earlier ++ [.call ⟨env, .generate p⟩])).state.qaRejectionReason =
          some reason ∧
        feedback = qaFeedback p (strip reason)
  /-- Nothing after any other call. -/
  otherwise : (∀ phase humanId notes source,
      c.op ≠ .record (.returnForRework phase humanId notes source)) →
    ((∃ phase humanId source, c.op = .record (.retryPhase phase humanId source)) →
      (afterLife rt co start before).machine.status ≠ .qaRejected p) → feedback = []

/-- Carried feedback: at every point of every life of a flow, restarts included, in which no digest
fails and no preparer is recorded while a phase runs, a run of a running phase starts with the
feedback of the call that opened it, and a run of a fresh audit with none. -/
theorem carried_feedback (rt : Runtime) (hrt : LowersAscii rt) (co : Coercions)
    (theme businessContext : Str) (frameworks : List Str) (sessionId : Option Str)
    (events : List LifeEvent)
    (h : LifeUndisturbed rt co (.fresh theme businessContext frameworks sessionId) events)
    (p : Phase) :
    let start := AuditFlow.fresh theme businessContext frameworks sessionId
    let f := afterLife rt co start events
    (f.machine.status = .waitingForScope → f.startingFeedback p = []) ∧
      (f.machine.status = .running p → ∃ before c later,
        events = before ++ .call c :: later ∧ RunOpened rt co start p before (.call c) later ∧
          FeedbackOf rt co start p before c (f.startingFeedback p)) := by
  intro start f
  have hstart := lifeInv_fresh theme businessContext frameworks sessionId
  refine ⟨fun hwaiting => startingFeedback_scoping
    ((lifeInv_afterLife hrt h hstart).scoping hwaiting), fun hrunning => ?_⟩
  rcases @LabelledRun.exists_entered _ _ _ (lifeStep rt co)
    (fun f => f.machine.status = .running p) start _ AuditStatus.noConfusion hrunning with
    ⟨before, e, later, hevents, hopened⟩
  have hf : f = afterLife rt co start (before ++ e :: later) := congrArg _ hevents
  rw [hevents] at h
  rcases feedback_since_opened hrt hstart h hopened with ⟨c, rfl, hfeedback⟩
  refine ⟨before, c, later, hevents, hopened, ?_⟩
  rw [hf]
  refine ⟨hfeedback.rework, fun phase humanId source hop hrejected => ?_, hfeedback.otherwise⟩
  rcases @LabelledRun.exists_entered _ _ _ (lifeStep rt co)
    (fun f => f.machine.status = .qaRejected p) start _ AuditStatus.noConfusion
    hrejected with ⟨earlier, e, since, hbefore, hentered⟩
  have hpast := h.left
  rw [hbefore] at hpast
  rcases reason_since_rejected hrt hstart hpast hentered with
    ⟨env, reason, rfl, hne, hreason, hnow⟩
  rw [← hbefore] at hnow
  exact ⟨earlier, env, since, reason, hbefore, hentered, hreason,
    hfeedback.rejected phase humanId source hop hrejected reason hnow hne⟩

end AuditFlow

namespace Sample

/-- A plan that is returned for rework, and the restart before it is drafted again. -/
def returned : List AuditFlow.LifeEvent :=
  [.call ⟨smallEnv "u1", .record (.recordPreparer (lit "Ann") true (lit "declared"))⟩,
    .call ⟨smallEnv "u2", .generate .planning⟩,
    .call ⟨smallEnv "u3", .record (.returnForRework 1 (lit "Bob") (lit " Name the owners. ")
      (lit "declared"))⟩,
    .restart (smallEnv "u4") [(lit "s1", [])] (lit "s1")]

end Sample

namespace AuditFlow

/-- The run that is opened by the return for rework. -/
theorem carried_feedback_returned :
    let start := AuditFlow.fresh (lit "Access") (lit "A bank") [] none
    let f := afterLife Sample.rt Sample.coercions start Sample.returned
    f.machine.status = .running .planning ∧ ∃ before c later,
      Sample.returned = before ++ .call c :: later ∧
        RunOpened Sample.rt Sample.coercions start .planning before (.call c) later ∧
          FeedbackOf Sample.rt Sample.coercions start .planning before c
            (f.startingFeedback .planning) := by
  have hlife : LifeUndisturbed Sample.rt Sample.coercions
      (.fresh (lit "Access") (lit "A bank") [] none) Sample.returned := by decide +kernel
  have hstatus : (afterLife Sample.rt Sample.coercions
      (.fresh (lit "Access") (lit "A bank") [] none) Sample.returned).machine.status =
        .running .planning := by decide +kernel
  exact ⟨hstatus, (carried_feedback Sample.rt (lowersAscii_ascii _) Sample.coercions (lit "Access")
    (lit "A bank") [] none Sample.returned hlife .planning).2 hstatus⟩

end AuditFlow

end AuditSwarm
