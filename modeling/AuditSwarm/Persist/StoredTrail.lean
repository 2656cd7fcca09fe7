import AuditSwarm.Model.SessionService
import AuditSwarm.Persist.Snapshot

/-!
# The trail of a stored session

A session that is saved and loaded has the trail it was saved with, whatever else of the snapshot
is skipped.
-/

namespace AuditSwarm

open Python Json StrEnum

variable {rt : Runtime} {co : Coercions} {env : Env}

/-- The trail of a stored session: that of the state its snapshot was taken of, and none before
the first save. -/
inductive StoredTrail (co : Coercions) (entry : Dict Str Json) : List StrEntry → Prop
  | unsaved (h : entry.get? (lit "state_snapshot") = none) : StoredTrail co entry []
  | saved (s : AuditState) (h : entry.get? (lit "state_snapshot") = some (.obj (s.snapshot co))) :
      StoredTrail co entry s.approvalTrail

/-! ## What is stored of an entry -/

def storedEntry (e : StrEntry) : Json := .obj (e.mapValues .str)

theorem storedTrail_snapshot (s : AuditState) :
    SessionService.storedTrail (s.snapshot co) = s.approvalTrail.map storedEntry := rfl

theorem StoredTrail.stored {entry : Dict Str Json} {trail : List StrEntry}
    (h : StoredTrail co entry trail) :
    SessionService.storedTrail (SessionService.storedSnapshot entry) = trail.map storedEntry := by
  unfold SessionService.storedSnapshot
  cases h with
  | unsaved h =>
      rw [Dict.getD, h]
      rfl
  | saved s h =>
      rw [Dict.getD, h]
      exact storedTrail_snapshot s

theorem isGateApproval_storedEntry (e : StrEntry) :
    SessionService.isGateApproval (storedEntry e) = true ↔
      e.get? (lit "action") = some (lit "gate_approval") := by
  unfold storedEntry SessionService.isGateApproval
  dsimp only
  rw [Dict.get?_mapValues]
  cases e.get? (lit "action") with
  | none => simp
  | some action => simp

/-! ## Loading it -/

/-- An assignment leaves the trail alone, unless it is to the trail. -/
theorem trail_scalar {k : Str} {snapshot : Dict Str Json} {l : Loading}
    {assign : Json → AuditState → Option AuditState}
    (hget : (scalarSetters co).get? k = some assign)
    (hassign : ∀ raw t, assign raw l.state = some t → t.approvalTrail = l.state.approvalTrail) :
    (l.scalar co snapshot k).state.approvalTrail = l.state.approvalTrail := by
  unfold Loading.scalar
  cases snapshot.get? k with
  | none => rfl
  | some raw =>
      dsimp only
      unfold Loading.assign setScalar
      rw [hget, Option.bind_some]
      cases hset : assign raw l.state with
      | none => rfl
      | some t => exact hassign raw t hset

theorem trail_map {α : Type} {read : Option α} {put : α → AuditState} {t s : AuditState}
    (h : read.map put = some t) (hput : ∀ x, (put x).approvalTrail = s.approvalTrail) :
    t.approvalTrail = s.approvalTrail := by
  rcases Option.map_eq_some_iff.mp h with ⟨x, -, rfl⟩
  exact hput x

theorem trail_readSnapshot (s : AuditState) (initial : AuditStatus) :
    (readSnapshot rt co (s.snapshot co) initial).state.approvalTrail = s.approvalTrail := by
  unfold readSnapshot
  rw [scalarFields_snapshot]
  simp only [List.foldl_cons, List.foldl_nil]
  rw [trail_scalar (k := lit "review_decisions_required") rfl fun _ _ h => trail_map h fun _ => rfl,
    trail_scalar (k := lit "review_decisions") rfl fun _ _ h => trail_map h fun _ => rfl,
    trail_scalar (k := lit "generation_runs") rfl fun _ _ h => trail_map h fun _ => rfl,
    scalar_some (k := lit "approval_trail") rfl
      (setScalar_some rfl (readsBack_trail s.approvalTrail))]

theorem trail_restoreSkillContext (f : AuditFlow) :
    ((AuditFlow.restoreSkillContext env).exec f).2.state.approvalTrail =
      f.state.approvalTrail := by
  rw [AuditFlow.exec_restoreSkillContext]
  cases AuditFlow.restored env f <;> rfl

theorem StoredTrail.load {sessions : Sessions} {id : Str} {entry : Dict Str Json}
    {trail : List StrEntry} (h : StoredTrail co entry trail)
    (hget : sessions.get? id = some entry) {loaded : LoadResult}
    (hload : FlowRepository.load rt co env sessions id = .ok (some loaded)) :
    loaded.flow.state.approvalTrail = trail := by
  unfold FlowRepository.load at hload
  rw [hget, Option.bind_some] at hload
  cases h with
  | unsaved hnone =>
      rw [hnone] at hload
      cases hload
  | saved s hsome =>
      rw [hsome] at hload
      dsimp only at hload
      rw [if_neg (by simp [AuditState.snapshot])] at hload
      rcases Except.map_eq_ok_iff.mp hload with ⟨result, hresult, hloaded⟩
      rcases Except.bind_eq_ok_iff.mp hresult with ⟨initial, -, hflow⟩
      rw [← Option.some.inj hloaded, ← Except.ok.inj hflow]
      exact (trail_restoreSkillContext _).trans (trail_readSnapshot s initial)

end AuditSwarm
