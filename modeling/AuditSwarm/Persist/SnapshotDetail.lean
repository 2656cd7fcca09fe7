import AuditSwarm.Model.SessionDetail
import AuditSwarm.Persist.Snapshot

/-!
# What is shown of a saved flow

Part by part, what `_build_detail` reads from the snapshot of a flow is what it takes from the flow.
-/

namespace AuditSwarm

open Python Json StrEnum

namespace SessionRoutes

variable {rt : Runtime} {co : Coercions} {f : AuditFlow} {s : AuditState} {p : Phase}
  {data : Dict Str Json}

/-! ## Lists -/

/-- The loop over a list that was written runs over what was written. -/
theorem eachOf_ofList {α : Type} (write : α → Json) (xs : List α) :
    eachOf (ofList write xs) = .ok (xs.map write) := by
  unfold eachOf
  cases xs with
  | nil => rfl
  | cons x xs => rfl

theorem filterMap_readsBack {α : Type} {read : Reader α} {write : α → Json} {xs : List α}
    (h : ∀ x ∈ xs, read (write x) = some x) : (xs.map write).filterMap read = xs := by
  induction xs with
  | nil => rfl
  | cons x xs ih =>
      rw [List.map_cons, List.filterMap_cons, h x List.mem_cons_self,
        ih fun y hy => h y (List.mem_cons_of_mem _ hy)]

theorem trailEntries_snapshot :
    trailEntries (s.snapshot co) = .ok (s.approvalTrail.map StrEntry.toEntry) := by
  have heach : eachOf ((s.snapshot co).getD (lit "approval_trail") .null) =
      .ok (s.approvalTrail.map fun e => .obj (e.mapValues .str)) := eachOf_ofList _ _
  unfold trailEntries
  rw [heach, Except.ok_bind, Except.mapM_eq_ok_iff, List.forall₂_map_left_iff,
    List.forall₂_map_right_iff]
  exact List.forall₂_same.mpr fun e _ => rfl

/-! ## Decisions -/

theorem requires_toEntry (e : StrEntry) :
    (Trail.fieldIs e.toEntry (lit "action") (lit "audit_created") &&
        Trail.fieldIs e.toEntry (lit "review_decisions_required") (lit "true")) =
      (decide (e.get? (lit "action") = some (lit "audit_created")) &&
        decide (e.get? (lit "review_decisions_required") = some (lit "true"))) := by
  have hfield : ∀ k text : Str,
      Trail.fieldIs e.toEntry k text = decide (e.get? k = some text) := by
    intro k text
    unfold Trail.fieldIs StrEntry.toEntry
    rw [Dict.get?_mapValues]
    cases e.get? k with
    | none => simp
    | some text' => simp
  rw [hfield, hfield]

theorem decisionsRequired_snapshot :
    decisionsRequired (f.state.snapshot co) = .ok f.reviewDecisionsRequired := by
  have hget : (f.state.snapshot co).getD (lit "review_decisions_required") .null =
      .bool f.state.reviewDecisionsRequired := rfl
  unfold decisionsRequired AuditFlow.reviewDecisionsRequired
  rw [hget, trailEntries_snapshot]
  cases f.state.reviewDecisionsRequired with
  | true => rfl
  | false =>
      rw [if_neg (by simp [truthy]), Except.ok_bind, List.any_map]
      exact congrArg Except.ok (congrArg (List.any f.state.approvalTrail) (funext requires_toEntry))

theorem typed_ofOption {α β : Type} (validate : Json → Option β) (write : α → Json) (val : α → β)
    (hvalidate : ∀ a, validate (write a) = some (val a)) (hnull : ∀ a, write a ≠ .null)
    (x : Option α) : typed validate (ofOption write x) = x.map val := by
  cases x with
  | none => rfl
  | some a =>
      have htyped : ∀ j : Json, j ≠ .null → typed validate j = validate j := by
        intro j hj
        cases j with
        | null => exact absurd rfl hj
        | _ => rfl
      exact (htyped _ (hnull a)).trans (hvalidate a)

theorem snapshotContext_snapshot (hrt : LowersAscii rt) :
    snapshotContext rt co (f.state.snapshot co) = f.decisionContext := by
  have hracm := typed_ofOption (RiskControlMatrixSchema.ofJson rt co)
    RiskControlMatrixSchema.toJson id (fun m => (@RiskControlMatrixSchema.reads rt co hrt m).self)
    (fun m hm => by cases hm) f.state.racmPlan
  have hpapers := typed_ofOption (fun j => (storedPapers rt co j).map (·.val))
    (fun p : ValidPapers => p.val.toJson) (·.val) (fun m => by rw [storedPapers_eq hrt m]; rfl)
    (fun m hm => by cases hm) f.state.workingPapers
  have hreport := typed_ofOption (fun j => (storedReport rt co j).map (·.val))
    (fun r : ValidReport => r.val.toJson) (·.val) (fun m => by rw [storedReport_eq hrt m]; rfl)
    (fun m hm => by cases hm) f.state.finalReport
  unfold snapshotContext AuditFlow.decisionContext
  congr 1
  exact hracm.trans Option.map_id'

/-- The review of a saved flow is that of the flow, where that has one. -/
theorem snapshotReview_snapshot (hrt : LowersAscii rt) (hf : f.Storable)
    {records : List ReviewDecisionRecord} {view : Decisions.EffectiveView}
    (h : flowReview rt f = .ok (records, view)) :
    snapshotReview rt co (f.state.snapshot co) =
      .ok (records, some view, f.reviewDecisionsRequired) := by
  rcases Except.bind_eq_ok_iff.mp h with ⟨states, hstates, hrest⟩
  rcases Except.bind_eq_ok_iff.mp hrest with ⟨view', hview, hpair⟩
  cases hpair
  have heach : eachOf ((f.state.snapshot co).getD (lit "review_decisions") .null) =
      .ok (f.state.reviewDecisions.map ReviewDecision.toJson) := eachOf_ofList _ _
  have hdecisions := filterMap_readsBack fun d hd =>
    @ReviewDecision.readsBack co d (hf.decisions d hd)
  unfold AuditFlow.flowDecisionStates at hstates
  unfold AuditFlow.effectiveView at hview
  unfold snapshotReview
  rw [heach, Except.ok_bind, hdecisions, decisionsRequired_snapshot, Except.ok_bind]
  dsimp only
  rw [snapshotContext_snapshot hrt, hstates, Except.ok_bind, hview]
  rfl

/-! ## Artifacts -/

theorem snapshot_artifact :
    (f.state.snapshot co).getD p.artifactField .null = ofOption id (f.state.artifact p) := by
  cases p with
  | planning =>
      show ofOption RiskControlMatrixSchema.toJson f.state.racmPlan =
        ofOption id (f.state.racmPlan.map RiskControlMatrixSchema.toJson)
      cases f.state.racmPlan <;> rfl
  | fieldwork =>
      show ofOption (fun p : ValidPapers => p.val.toJson) f.state.workingPapers =
        ofOption id (f.state.workingPapers.map fun p => p.val.toJson)
      cases f.state.workingPapers <;> rfl
  | reporting =>
      show ofOption (fun r : ValidReport => r.val.toJson) f.state.finalReport =
        ofOption id (f.state.finalReport.map fun r => r.val.toJson)
      cases f.state.finalReport <;> rfl

/-- A stored artifact validates, and is dumped as it was stored. -/
theorem validated_artifact (hrt : LowersAscii rt) {raw : Json} (h : f.state.artifact p = some raw) :
    validated rt co p raw = some raw ∧ ∃ o, raw = .obj o := by
  cases p with
  | planning =>
      rcases Option.map_eq_some_iff.mp h with ⟨m, -, rfl⟩
      unfold validated
      dsimp only
      rw [(m.reads hrt).self]
      exact ⟨rfl, _, rfl⟩
  | fieldwork =>
      rcases Option.map_eq_some_iff.mp h with ⟨m, -, rfl⟩
      unfold validated
      dsimp only
      rw [storedPapers_eq hrt m]
      exact ⟨rfl, _, rfl⟩
  | reporting =>
      rcases Option.map_eq_some_iff.mp h with ⟨m, -, rfl⟩
      unfold validated
      dsimp only
      rw [storedReport_eq hrt m]
      exact ⟨rfl, _, rfl⟩

theorem shown_artifact (hrt : LowersAscii rt) (p : Phase) :
    responseField rt (readOption readDict) (migratedSnapshotArtifact rt co p
      ((f.state.snapshot co).getD p.artifactField .null)) = .ok (f.state.artifact p) := by
  rw [snapshot_artifact]
  cases h : f.state.artifact p with
  | none => rfl
  | some raw =>
      rcases @validated_artifact rt co _ _ hrt raw h with ⟨hvalidated, o, rfl⟩
      have hmigrated : migratedSnapshotArtifact rt co p (.obj o) = .obj o := by
        show (validated rt co p (.obj o)).getD (.obj o) = .obj o
        rw [hvalidated]
        rfl
      rw [show ofOption id (some (Json.obj o)) = .obj o from rfl, hmigrated]
      rfl

/-! ## The rest -/

theorem snapshotVerification_snapshot {environ : Environ} {anchor : Trail.Anchor} :
    snapshotVerification rt environ anchor (f.state.snapshot co) =
      f.verifyTrail rt environ anchor := by
  have heach : eachOf ((f.state.snapshot co).getD (lit "review_decisions") .null) =
      .ok (f.state.reviewDecisions.map ReviewDecision.toJson) := eachOf_ofList _ _
  unfold snapshotVerification
  rw [trailEntries_snapshot, Except.ok_bind, heach, Except.ok_bind]
  unfold AuditFlow.verifyTrail AuditFlow.artifacts
  simp only [snapshot_artifact]

theorem snapshotGenerationRuns_snapshot (hf : f.Storable) :
    snapshotGenerationRuns co (f.state.snapshot co) = .ok f.state.generationRuns := by
  have heach : eachOf ((f.state.snapshot co).getD (lit "generation_runs") .null) =
      .ok (f.state.generationRuns.map (GenerationRun.toJson co)) := eachOf_ofList _ _
  unfold snapshotGenerationRuns
  rw [heach, Except.ok_bind]
  exact congrArg Except.ok (filterMap_readsBack fun run hrun =>
    (@GenerationRun.reads co run (hf.runs run hrun)).self)

/-- The preparer of a saved flow is that of the flow. -/
theorem preparedBy_snapshot
    (h : data.getD (lit "state_snapshot") .null = .obj (f.state.snapshot co)) :
    preparedBy rt data none = preparedBy rt data (some f) := by
  have hget : (f.state.snapshot co).getD (lit "prepared_by") .null = .str f.state.preparedBy := rfl
  have htruthy : (Json.obj (f.state.snapshot co)).truthy = true := rfl
  unfold preparedBy
  dsimp only
  by_cases hne : f.state.preparedBy ≠ []
  · rw [if_pos hne, h, if_pos htruthy]
    show Except.ok _ = Except.ok _
    rw [hget, if_pos (by simpa [truthy] using hne)]
    rfl
  · rw [if_neg hne]

end SessionRoutes

end AuditSwarm
