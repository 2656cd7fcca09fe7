import AuditSwarm.Persist.RoundTrip
import AuditSwarm.Run.Decisions

/-!
# Saving and loading a flow

What every run keeps true of a flow so that its snapshot reads back, and the flow its snapshot is
loaded as.
-/

namespace AuditSwarm

open Python Json StrEnum

/-! ## What is kept true for loading -/

namespace AuditFlow

variable {rt : Runtime} {co : Coercions} {env : Env} {f g : AuditFlow} {r : Except Exn Unit}
variable {p : Phase}

/-- What the fields of a snapshot need in order to validate. -/
structure Storable (f : AuditFlow) : Prop where
  mirrored : f.Mirrored
  decisions : ∀ d ∈ f.state.reviewDecisions, 2 ≤ d.phase ∧ d.phase ≤ 3
  runs : ∀ run ∈ f.state.generationRuns, Tempered run

theorem storable_fresh (theme businessContext : Str) (frameworks : List Str)
    (sessionId : Option Str) : Storable (.fresh theme businessContext frameworks sessionId) where
  mirrored := rfl
  decisions := by simp [fresh, AuditState.fresh]
  runs := by simp [fresh, AuditState.fresh]

theorem mirrored_act {a : RecordedAction} (h : act rt env a f = (r, g)) (hf : f.Mirrored) :
    g.Mirrored := by
  rcases act_cases h with ⟨err, -, -, rfl⟩ | ⟨k, c, -, -, rfl⟩ | ⟨k, e, -, -, -, rfl⟩
  · exact hf
  · cases a <;> first | exact hf | rfl
  · cases a <;> first | exact hf | rfl

theorem mirrored_generate (h : (generate rt env p).exec f = (r, g)) (hf : f.Mirrored) :
    g.Mirrored := by
  rcases generate_cases h with ⟨e, -, rfl⟩ | ⟨-, ks, -, -, hend⟩
  · exact hf
  · cases hend with
    | stuck e _ _ hmachine hstatus =>
        have hstarted : (started p f).Mirrored := by
          unfold started
          split
          · rfl
          · exact hf
        unfold Mirrored
        rw [hmachine, hstatus]
        exact hstarted
    | ended _ _ hmirrored _ => exact hmirrored

/-- The stored status is that of the machine, whatever a call raises. -/
theorem mirrored_step (f : AuditFlow) (c : Call) (hf : f.Mirrored) :
    (step rt f c).2.Mirrored := by
  obtain ⟨env, op⟩ := c
  cases op with
  | record a => exact @mirrored_act rt env f _ _ a rfl hf
  | beginPhase1 =>
      have hstep : (step rt f ⟨env, .beginPhase1⟩).2 = (beginPhase1.exec f).2 := rfl
      rw [hstep]
      rcases exec_beginPhase1 f with ⟨-, h⟩ | ⟨_, _, h⟩
      · rw [h]
        rfl
      · rw [h]
        exact hf
  | generate p => exact @mirrored_generate rt env f _ _ p rfl hf

theorem phase_of_recordedAt {t : Transition AuditFlow Call (Except Exn Unit)} {d : ReviewDecision}
    (h : RecordedAt rt t d) : 2 ≤ d.phase ∧ d.phase ≤ 3 := by
  rw [h.built.phase]
  cases d.decisionType <;> exact ⟨by decide, by decide⟩

theorem storable_step (f : AuditFlow) (c : Call) (hf : Storable f) :
    Storable (step rt f c).2 where
  mirrored := mirrored_step f c hf.mirrored
  decisions := by
    intro d hd
    rcases @decision_step rt f c with hsame | ⟨d', hrecorded⟩
    · rw [hsame] at hd
      exact hf.decisions d hd
    · have happended : (step rt f c).2.state.reviewDecisions =
          f.state.reviewDecisions ++ [d'] := hrecorded.appended
      rw [happended] at hd
      rcases List.mem_append.mp hd with hd | hd
      · exact hf.decisions d hd
      · rw [List.mem_singleton.mp hd]
        exact phase_of_recordedAt hrecorded
  runs := by
    intro run hrun
    rcases @records_step rt f c with hsame | ⟨p, run', -, hrecorded, htempered⟩
    · rw [hsame] at hrun
      exact hf.runs run hrun
    · rw [hrecorded.appended] at hrun
      rcases List.mem_append.mp hrun with hrun | hrun
      · exact hf.runs run hrun
      · rw [List.mem_singleton.mp hrun]
        exact htempered

end AuditFlow

/-! ## The snapshot of a state reads back -/

section
variable {rt : Runtime} {co : Coercions} {env : Env} {f : AuditFlow}

theorem readsBack_trail : ReadsBack readTrail dumpTrail :=
  ReadsBack.list fun e => readsBack_str.members e

theorem storedPapers_of_same (hrt : LowersAscii rt) {p : ValidPapers} {v : Json}
    (h : Same v p.val.toJson) : storedPapers rt co v = some p := by
  have hread := @WorkingPaperSchema.reads rt co hrt p.val p.property v h
  unfold storedPapers
  simp [hread]

theorem storedReport_of_same (hrt : LowersAscii rt) {r : ValidReport} {v : Json}
    (h : Same v r.val.toJson) : storedReport rt co v = some r := by
  have hread := @FinalReportSchema.reads rt co hrt r.val r.property v h
  unfold storedReport
  simp [hread]

theorem storedPapers_eq (hrt : LowersAscii rt) (p : ValidPapers) :
    storedPapers rt co p.val.toJson = some p :=
  storedPapers_of_same hrt (.refl _)

theorem storedReport_eq (hrt : LowersAscii rt) (r : ValidReport) :
    storedReport rt co r.val.toJson = some r :=
  storedReport_of_same hrt (.refl _)

/-! ### One field -/

section
variable {snapshot : Dict Str Json} {l : Loading} {t : AuditState} {raw : Json} {p : Phase}

theorem artifact_null (hget : snapshot.get? p.artifactField = some .null) :
    l.artifact rt co snapshot p = l := by
  unfold Loading.artifact
  rw [hget]

theorem artifact_some (hget : snapshot.get? p.artifactField = some raw) (hne : raw ≠ .null)
    (hset : setArtifact rt co p raw l.state = some t) :
    l.artifact rt co snapshot p = { l with state := t } := by
  unfold Loading.artifact
  rw [hget]
  split
  · rename_i h
    cases h
  · rename_i h
    exact absurd (Option.some.inj h) hne
  · rename_i h
    obtain rfl := Option.some.inj h
    rw [hset]
    rfl

/-- An assignment that validates its value and then puts it in its place. -/
theorem setScalar_some {α : Type} {read : Reader α} {put : α → AuditState → AuditState} {k : Str}
    {a : α} (hk : (scalarSetters co).get? k = some fun j s => (read j).map fun x => put x s)
    (hread : read raw = some a) : setScalar co k raw t = some (put a t) := by
  unfold setScalar
  rw [hk, Option.bind_some]
  dsimp only
  rw [hread]
  rfl

theorem scalar_some {k : Str} (hget : snapshot.get? k = some raw)
    (hset : setScalar co k raw l.state = some t) :
    l.scalar co snapshot k = { l with state := t } := by
  unfold Loading.scalar
  rw [hget]
  dsimp only
  rw [hset]
  rfl

end

/-! ### All fields -/

section
variable {s : AuditState} {l : Loading}

theorem artifact_planning (hrt : LowersAscii rt) (hl : l.state.racmPlan = none) :
    l.artifact rt co (s.snapshot co) .planning =
      { l with state := { l.state with racmPlan := s.racmPlan } } := by
  have hget : (s.snapshot co).get? Phase.planning.artifactField =
    some (ofOption RiskControlMatrixSchema.toJson s.racmPlan) := rfl
  cases hs : s.racmPlan with
  | none =>
      rw [hs] at hget
      rw [artifact_null hget, ← hl]
  | some m =>
      rw [hs] at hget
      refine artifact_some hget (by simp [ofOption, RiskControlMatrixSchema.toJson]) ?_
      unfold setArtifact ofOption
      dsimp only
      rw [(m.reads hrt).self]
      rfl

theorem artifact_fieldwork (hrt : LowersAscii rt) (hl : l.state.workingPapers = none) :
    l.artifact rt co (s.snapshot co) .fieldwork =
      { l with state := { l.state with workingPapers := s.workingPapers } } := by
  have hget : (s.snapshot co).get? Phase.fieldwork.artifactField =
    some (ofOption (fun p : ValidPapers => p.val.toJson) s.workingPapers) := rfl
  cases hs : s.workingPapers with
  | none =>
      rw [hs] at hget
      rw [artifact_null hget, ← hl]
  | some m =>
      rw [hs] at hget
      refine artifact_some hget (by simp [ofOption, WorkingPaperSchema.toJson]) ?_
      unfold setArtifact ofOption
      dsimp only
      rw [storedPapers_eq hrt m]
      rfl

theorem artifact_reporting (hrt : LowersAscii rt) (hl : l.state.finalReport = none) :
    l.artifact rt co (s.snapshot co) .reporting =
      { l with state := { l.state with finalReport := s.finalReport } } := by
  have hget : (s.snapshot co).get? Phase.reporting.artifactField =
    some (ofOption (fun r : ValidReport => r.val.toJson) s.finalReport) := rfl
  cases hs : s.finalReport with
  | none =>
      rw [hs] at hget
      rw [artifact_null hget, ← hl]
  | some m =>
      rw [hs] at hget
      refine artifact_some hget (by simp [ofOption, FinalReportSchema.toJson]) ?_
      unfold setArtifact ofOption
      dsimp only
      rw [storedReport_eq hrt m]
      rfl

theorem scalarFields_snapshot :
    scalarFields (s.snapshot co) = [lit "theme", lit "business_context", lit "frameworks",
      lit "current_human_dossier", lit "qa_rejection_reason", lit "active_skill_ids",
      lit "prepared_by", lit "approval_trail", lit "generation_runs", lit "review_decisions",
      lit "review_decisions_required"] := by
  rfl

/-- A snapshot is read as the state it was taken of. -/
theorem readSnapshot_snapshot (hrt : LowersAscii rt) (hf : f.Storable) :
    readSnapshot rt co (f.state.snapshot co) f.machine.status = ⟨f.state, []⟩ := by
  have hdecisions := (@ReviewDecision.readsBack co).list f.state.reviewDecisions hf.decisions
  have hruns := ReadsBackOn.list (fun r hr => (@GenerationRun.reads co r hr).self)
    f.state.generationRuns hf.runs
  unfold readSnapshot
  rw [scalarFields_snapshot]
  simp only [List.foldl_cons, List.foldl_nil]
  have hreason := (reads_optStr f.state.qaRejectionReason).self
  have hrequired := (@reads_bool co f.state.reviewDecisionsRequired).self
  rw [artifact_planning hrt rfl, artifact_fieldwork hrt rfl, artifact_reporting hrt rfl]
  rw [scalar_some (k := lit "theme") rfl (setScalar_some rfl (readsBack_str f.state.theme))]
  rw [scalar_some (k := lit "business_context") rfl
    (setScalar_some rfl (readsBack_str f.state.businessContext))]
  rw [scalar_some (k := lit "frameworks") rfl
    (setScalar_some rfl (reads_strs f.state.frameworks).self)]
  rw [scalar_some (k := lit "current_human_dossier") rfl
    (setScalar_some rfl (readsBack_str f.state.currentHumanDossier))]
  rw [scalar_some (k := lit "qa_rejection_reason") rfl (setScalar_some rfl hreason)]
  rw [scalar_some (k := lit "active_skill_ids") rfl
    (setScalar_some rfl (reads_strs f.state.activeSkillIds).self)]
  rw [scalar_some (k := lit "prepared_by") rfl
    (setScalar_some rfl (readsBack_str f.state.preparedBy))]
  rw [scalar_some (k := lit "approval_trail") rfl
    (setScalar_some rfl (readsBack_trail f.state.approvalTrail))]
  rw [scalar_some (k := lit "generation_runs") rfl (setScalar_some rfl hruns)]
  rw [scalar_some (k := lit "review_decisions") rfl (setScalar_some rfl hdecisions)]
  rw [scalar_some (k := lit "review_decisions_required") rfl (setScalar_some rfl hrequired)]
  have hstatus : f.machine.status.value = f.state.status := hf.mirrored.symm
  dsimp only [AuditState.fresh]
  rw [hstatus]

end

/-! ## Loading -/

theorem find?_status (a : AuditStatus) :
    (AuditStatus.members.find? fun b => b.value = a.value) = some a := by
  cases hfind : AuditStatus.members.find? fun b => b.value = a.value with
  | none =>
      have hnone := List.find?_eq_none.mp hfind a (AuditStatus.mem_members a)
      simp at hnone
  | some b =>
      have hsome := List.find?_some (p := fun b : AuditStatus => b.value = a.value) hfind
      rw [AuditStatus.value_injective (of_decide_eq_true hsome)]

theorem initialStatus_snapshot (hf : f.Mirrored) :
    initialStatus rt (f.state.snapshot co) = .ok f.machine.status := by
  have hget : (f.state.snapshot co).get? (lit "status") = some (.str f.state.status) := rfl
  have hstatus : f.state.status = f.machine.status.value := hf
  unfold initialStatus
  rw [hget, hstatus]
  dsimp only
  rw [find?_status]
  rfl

namespace AuditFlow

/-- A flow as it is loaded, before its skills are restored. -/
def unskilled (id : Str) (f : AuditFlow) : AuditFlow :=
  { f with skillContext := [], sessionId := some id, kickoffs := [] }

def reloaded (env : Env) (id : Str) (f : AuditFlow) : AuditFlow :=
  match restored env (f.unskilled id) with
  | .ok x => (f.unskilled id).withSkills x.1 x.2
  | .error _ => f.unskilled id

end AuditFlow

/-- The snapshot of a flow is loaded as that flow, its skills restored. -/
theorem loadSnapshot_snapshot (hrt : LowersAscii rt) (hf : f.Storable) (id : Str) :
    FlowRepository.loadSnapshot rt co env id (f.state.snapshot co) =
      .ok ⟨f.reloaded env id, []⟩ := by
  unfold FlowRepository.loadSnapshot
  rw [initialStatus_snapshot hf.mirrored, Except.ok_bind, readSnapshot_snapshot hrt hf]
  have hrestore := @AuditFlow.exec_restoreSkillContext env (f.unskilled id)
  dsimp only [Pure.pure, Except.pure]
  unfold AuditFlow.reloaded
  rw [show (AuditFlow.mk f.state ⟨f.machine.status⟩ [] (some id) []) = f.unskilled id from rfl,
    hrestore]
  cases AuditFlow.restored env (f.unskilled id) with
  | ok x => rfl
  | error e => rfl

theorem load_save (hrt : LowersAscii rt) (hf : f.Storable) {sessions saved : Sessions} {id : Str}
    (hsave : FlowRepository.save co sessions id f = some saved) :
    FlowRepository.load rt co env saved id = .ok (some ⟨f.reloaded env id, []⟩) := by
  obtain ⟨entry, -, rfl⟩ := Option.map_eq_some_iff.mp hsave
  have hget : ((sessions.set id (entry.update (FlowRepository.sessionFields co f.state))).get? id
      |>.bind fun entry => entry.get? (lit "state_snapshot")) =
        some (.obj (f.state.snapshot co)) := by
    rw [Dict.get?_set_self]
    exact Dict.get?_set_self _ _ _
  unfold FlowRepository.load
  rw [hget]
  dsimp only
  rw [if_neg (by simp [AuditState.snapshot]), loadSnapshot_snapshot hrt hf]
  rfl

end

end AuditSwarm
