import AuditSwarm.Decisions.Sorted
import AuditSwarm.Run.RecordedDecisions
import AuditSwarm.Properties.Atomicity

/-!
# Accepted decisions

A list of stored decisions that `decisions_changed` accepts against the trail of a run holds the
decisions of the run, in whatever order and number, so it gives the same effective view.
-/

namespace AuditSwarm

open Python StrEnum Decisions

namespace Trail

variable {rt : Runtime} {recorded : Dict Str Str} {d : ReviewDecision}

theorem decisionProblem_eq_none (h : decisionProblem rt recorded d.toJson = .ok none) :
    ∃ digest, recorded.get? d.decisionId = some digest ∧
      artifactDigest rt d.toJson = .ok digest := by
  have hid : fieldText rt (decisionFields d.toJson) (lit "decision_id") = d.decisionId := by
    simp [fieldText, decisionFields, ReviewDecision.toJson, Dict.getD, Dict.get?_cons]
  have hobj : Json.obj (decisionFields d.toJson) = d.toJson := rfl
  unfold decisionProblem at h
  dsimp only at h
  rw [hid, hobj] at h
  cases hget : recorded.get? d.decisionId with
  | none => simp [hget] at h
  | some digest =>
      simp only [hget, Except.bind_eq_ok_iff] at h
      obtain ⟨now, hnow, same, hsame, h⟩ := h
      cases same with
      | false => simp at h
      | true => exact ⟨digest, rfl, compareDigest_true hsame ▸ hnow⟩

/-- What `decisions_changed` accepts: every decision is recorded with its digest, and every
recorded id is that of a decision. -/
theorem decisionsChanged_eq_nil {trail : List Entry} {stored : List ReviewDecision}
    (h : decisionsChanged rt trail (stored.map ReviewDecision.toJson) = .ok []) :
    (∀ d ∈ stored, ∃ digest, (recordedDigests rt trail).get? d.decisionId = some digest ∧
      artifactDigest rt d.toJson = .ok digest) ∧
    ∀ i digest, (recordedDigests rt trail).get? i = some digest →
      ∃ d ∈ stored, d.decisionId = i := by
  unfold decisionsChanged at h
  simp only [Except.bind_eq_ok_iff, Except.pure_eq_ok_iff, List.append_eq_nil_iff,
    List.map_eq_nil_iff] at h
  obtain ⟨problems, hproblems, hnone, hremoved⟩ := h
  constructor
  · intro d hd
    obtain ⟨b, hb, hx⟩ := Except.exists_of_mapM_eq_ok hproblems d.toJson (List.mem_map_of_mem hd)
    have hbnone : b = none := by
      rw [List.filterMap_eq_nil_iff] at hnone
      exact hnone b hb
    rw [hbnone] at hx
    exact decisionProblem_eq_none hx
  · intro i digest hi
    have hmem := Dict.mem_of_get? hi
    rw [List.filter_eq_nil_iff] at hremoved
    have hseen := hremoved _ hmem
    simp only [List.map_map, Bool.not_eq_true', Bool.not_eq_false, List.contains_iff_mem,
      List.mem_map, Function.comp_apply] at hseen
    obtain ⟨d, hd, hid⟩ := hseen
    refine ⟨d, hd, ?_⟩
    rw [← hid]
    simp [fieldText, decisionFields, ReviewDecision.toJson, Dict.getD, Dict.get?_cons]

end Trail

namespace Sample

/-- An environment with a small crew and the given key setting. -/
def keyEnv (uuid : String) (key : Option Str) : Env :=
  { env uuid (crew (racm []) effectivePapers smallReport) with environ := fun _ => key }

def signedOff : List Call :=
  [⟨keyEnv "u1" none, .generate .planning⟩,
    ⟨keyEnv "u2" none, .record (.approveGate .planning (lit "B") (lit "declared"))⟩,
    ⟨keyEnv "u3" none, .generate .fieldwork⟩,
    ⟨keyEnv "e" none, .record (.recordDecision (request "sign_off" "C1" "C" []))⟩]

/-- Two corrections of the sign-off, the first with a key that is not Base64. -/
def corrected : List Call :=
  signedOff ++
    [⟨keyEnv "x" (some (lit "a")), .record (.recordDecision
        { request "sign_off" "C1" "C" [] with supersedes := some (lit "e") })⟩,
      ⟨keyEnv "d" none, .record (.recordDecision
        { request "challenge" "C1" "C" [(lit "toe_conclusion", .str (lit "Not tested"))] with
          supersedes := some (lit "x") })⟩]

/-- Short digests of the known messages, and digests that show what they cover of the others. -/
def knownDigest (known : List Bytes) (x : DigestInput) : Digest :=
  if x.message ∈ known then ⟨0 :: (Runtime.shortDigest (.plain x.message)).val, by simp⟩
  else Runtime.transparentDigest x

theorem transparentDigest_head (x : DigestInput) :
    (Runtime.transparentDigest x).val.head? ≠ some 0 := by
  cases x with
  | plain m => exact fun h => absurd (Option.some.inj h) (by decide)
  | keyed k m => exact fun h => absurd (Option.some.inj h) (by decide)

/-- Such digests are collision-free where the short ones of the known messages differ. -/
theorem collisionFree_known {known : List Bytes}
    (h : (known.map fun m => (Runtime.shortDigest (.plain m)).val).Nodup) :
    (Runtime.ascii (knownDigest known)).CollisionFree := by
  intro x y hxy
  have hdigest : ∀ z, (Runtime.ascii (knownDigest known)).digest z = (knownDigest known z).val := by
    intro z
    cases z <;> rfl
  rw [hdigest, hdigest] at hxy
  unfold knownDigest at hxy
  by_cases hx : x.message ∈ known
  · by_cases hy : y.message ∈ known
    · rw [if_pos hx, if_pos hy] at hxy
      exact List.inj_on_of_nodup_map h hx hy (List.cons.inj hxy).2
    · rw [if_pos hx, if_neg hy] at hxy
      exact absurd (congrArg List.head? hxy.symm) (transparentDigest_head y)
  · by_cases hy : y.message ∈ known
    · rw [if_neg hx, if_pos hy] at hxy
      exact absurd (congrArg List.head? hxy) (transparentDigest_head x)
    · rw [if_neg hx, if_neg hy] at hxy
      rw [Runtime.transparentDigest_injective (Subtype.ext hxy)]

/-- What the digests of an audit without a report are over. -/
def digested (f : AuditFlow) : List Bytes :=
  ((f.state.racmPlan.map RiskControlMatrixSchema.toJson).toList ++
    (f.state.workingPapers.map fun p => p.val.toJson).toList ++
    f.state.reviewDecisions.map ReviewDecision.toJson ++
    f.state.approvalTrail.map fun e => Trail.canonicalEntry e.toEntry).filterMap Json.canonical

/-- What the digests of that audit are over, where all of them are short. -/
def known : List Bytes :=
  digested (AuditFlow.after
    (.ascii fun x => ⟨0 :: (Runtime.shortDigest (.plain x.message)).val, by simp⟩) fresh corrected)

theorem nodup_known :
    (known.map fun m => (Runtime.shortDigest (.plain m)).val).Nodup := by
  decide +kernel

/-- A runtime whose digests are collision-free, and short in that audit. -/
def knownRt : Runtime := .ascii (knownDigest known)

/-- The decisions of that audit without the one that was not stamped, latest first. -/
def reordered : List ReviewDecision :=
  ((AuditFlow.after knownRt fresh corrected).state.reviewDecisions.filter fun d =>
    d.decisionId ≠ lit "x").reverse

end Sample

namespace AuditFlow

variable {rt : Runtime} {f : AuditFlow}

/-- A decision the call records is refused by its checks, or its entry can be computed. -/
def DecisionSealable (rt : Runtime) (f : AuditFlow) (c : Call) : Prop :=
  ∀ req, c.op = .record (.recordDecision req) →
    Refused rt c.env f (.recordDecision req) ∨ Sealable rt c.env f (.recordDecision req)

theorem DecisionSealable.stamps {c : Call} (h : DecisionSealable rt f c) :
    StampsDecision rt f c := by
  intro req hop d hd
  rcases h req hop with ⟨err, herr⟩ | hseal
  · cases herr.symm.trans hd
  · exact (sealOf_isOk_iff (a := .recordDecision req) hd).mpr hseal

/-- A step of a run is the step its call takes. -/
theorem result_of_mem_trace {start : AuditFlow} {calls : List Call}
    {t : Transition AuditFlow Call (Except Exn Unit)} (h : t ∈ trace rt start calls) :
    t.result = (step rt t.before t.label).1 := by
  induction calls generalizing start with
  | nil => cases h
  | cons c calls ih =>
      rcases List.mem_cons.mp h with rfl | h
      · rfl
      · exact ih h

theorem decisionSealable_of_mem_trace {start : AuditFlow} {calls : List Call}
    {t : Transition AuditFlow Call (Except Exn Unit)} (h : t ∈ trace rt start calls)
    (hok : t.result = .ok ()) : DecisionSealable rt t.before t.label := by
  intro req hop
  have hact : (act rt t.label.env (.recordDecision req) t.before).1 = .ok () := by
    rw [← hok, result_of_mem_trace h, step, hop]
  rcases act_entry (r := .ok ()) (Prod.ext hact rfl) with
    ⟨err, -, hr, -⟩ | ⟨k, err, -, -, hr, -⟩ | ⟨k, e, hk, he, -, -⟩
  · cases hr
  · cases hr
  · exact .inr ((sealOf_isOk_iff hk).mp ⟨e, he.sealed⟩)

/-- A stored list the trail accepts has the decisions of the flow. -/
theorem mem_of_accepted (hcf : rt.CollisionFree) (hlog : DecisionLog f.state.reviewDecisions)
    (hrec : DecisionsRecorded rt f) {stored : List ReviewDecision}
    (h : Trail.decisionsChanged rt (f.state.approvalTrail.map StrEntry.toEntry)
      (stored.map ReviewDecision.toJson) = .ok []) (d : ReviewDecision) :
    d ∈ stored.map ReviewDecision.sorted ↔
      d ∈ f.state.reviewDecisions.map ReviewDecision.sorted := by
  obtain ⟨hknown, hkept⟩ := Trail.decisionsChanged_eq_nil h
  -- a stored decision is the recorded one with its id
  have hsame : ∀ b ∈ stored, ∃ a ∈ f.state.reviewDecisions, a.decisionId = b.decisionId ∧
      a.sorted = b.sorted := by
    intro b hb
    obtain ⟨digest, hget, hdigest⟩ := hknown b hb
    obtain ⟨a, ha, hid, hdigest'⟩ := (hrec.recorded _ _).mp hget
    exact ⟨a, ha, hid, ReviewDecision.same_toJson_iff.mp
      (Trail.same_of_artifactDigest hcf hdigest' hdigest)⟩
  constructor
  · intro hd
    obtain ⟨b, hb, rfl⟩ := List.mem_map.mp hd
    obtain ⟨a, ha, -, hab⟩ := hsame b hb
    exact hab ▸ List.mem_map_of_mem ha
  · intro hd
    obtain ⟨a, ha, rfl⟩ := List.mem_map.mp hd
    obtain ⟨digest, hdigest⟩ := hrec.digested a ha
    obtain ⟨b, hb, hid⟩ := hkept _ _ ((hrec.recorded _ _).mpr ⟨a, ha, rfl, hdigest⟩)
    obtain ⟨a', ha', hid', hab⟩ := hsame b hb
    obtain rfl := hlog.consistent.eq_of_id a' ha' a ha (hid'.trans hid)
    exact hab ▸ List.mem_map_of_mem hb

/-- With collision-free digests, over every run in which each decision is refused or can be
stamped, every stored list that `decisions_changed` accepts against the trail gives the effective
view of the recorded decisions, for every context. -/
theorem accepted_decisions_same_view (rt : Runtime) (hcf : rt.CollisionFree)
    (theme businessContext : Str) (frameworks : List Str) (sessionId : Option Str)
    (calls : List Call) (hfresh : FreshIds calls) (hnamed : NamedIds calls)
    (hsealable : ∀ t ∈ trace rt (.fresh theme businessContext frameworks sessionId) calls,
      DecisionSealable rt t.before t.label) :
    let f := after rt (.fresh theme businessContext frameworks sessionId) calls
    ∀ stored : List ReviewDecision,
      Trail.decisionsChanged rt (f.state.approvalTrail.map StrEntry.toEntry)
        (stored.map ReviewDecision.toJson) = .ok [] →
      ∀ ctx required, SameOutcome (Decisions.effectiveView rt ctx stored required)
        (Decisions.effectiveView rt ctx f.state.reviewDecisions required) := by
  intro f stored hacc ctx required
  have hlog := ((@decisionHistory_run rt) theme businessContext frameworks sessionId hfresh).log
  have hrec := decisionsRecorded_run theme businessContext frameworks sessionId hfresh hnamed
    fun t ht => (hsealable t ht).stamps
  exact sameOutcome_of_members hlog (mem_of_accepted hcf hlog hrec hacc) ctx required

/-- The audit whose fieldwork is signed off. -/
theorem accepted_decisions_same_view_signedOff :
    let f := after Sample.transparent (.fresh (lit "Access") (lit "A bank") [] none) Sample.signedOff
    ∀ stored : List ReviewDecision,
      Trail.decisionsChanged Sample.transparent (f.state.approvalTrail.map StrEntry.toEntry)
        (stored.map ReviewDecision.toJson) = .ok [] →
      ∀ ctx required, SameOutcome (Decisions.effectiveView Sample.transparent ctx stored required)
        (Decisions.effectiveView Sample.transparent ctx f.state.reviewDecisions required) := by
  have hfresh : FreshIds Sample.signedOff := by decide +kernel
  have hnamed : NamedIds Sample.signedOff := by decide +kernel
  have hok : ∀ t ∈ trace Sample.transparent (.fresh (lit "Access") (lit "A bank") [] none)
      Sample.signedOff, t.result = .ok () := by decide +kernel
  exact accepted_decisions_same_view Sample.transparent Runtime.collisionFree_transparent
    (lit "Access") (lit "A bank") [] none Sample.signedOff hfresh hnamed
    fun t ht => decisionSealable_of_mem_trace ht (hok t ht)

/-- The reviews of the findings, as an effective view reports them. -/
def reviewStatuses (x : Except Exn EffectiveView) : Except Exn (List Str) :=
  x.map fun v => v.findings.map (·.reviewStatus)

theorem reviewStatuses_congr {x y : Except Exn EffectiveView} (h : SameOutcome x y) :
    reviewStatuses x = reviewStatuses y := by
  cases x with
  | error e =>
      cases y with
      | error e' => exact congrArg Except.error h
      | ok w => exact absurd h id
  | ok v =>
      cases y with
      | error e' => exact absurd h id
      | ok w =>
          have hfindings := congrArg (List.map (·.reviewStatus)) (SameView.findings h)
          rw [List.map_map, List.map_map] at hfindings
          exact congrArg Except.ok hfindings

/-- A stored list the trail of a flow accepts, with other reviews than the decisions of the flow
and than those of them the trail records. -/
def AcceptedOtherReviews (rt : Runtime) (f : AuditFlow) (stored : List ReviewDecision) : Prop :=
  let digests := Trail.recordedDigests rt (f.state.approvalTrail.map StrEntry.toEntry)
  let statuses decisions :=
    reviewStatuses (Decisions.effectiveView rt f.decisionContext decisions true)
  Trail.decisionsChanged rt (f.state.approvalTrail.map StrEntry.toEntry)
      (stored.map ReviewDecision.toJson) = .ok [] ∧
    statuses stored ≠ statuses f.state.reviewDecisions ∧
    statuses stored ≠
      statuses (f.state.reviewDecisions.filter fun d => digests.contains d.decisionId)

theorem AcceptedOtherReviews.changes {stored : List ReviewDecision}
    (h : AcceptedOtherReviews rt f stored) :
    let digests := Trail.recordedDigests rt (f.state.approvalTrail.map StrEntry.toEntry)
    Trail.decisionsChanged rt (f.state.approvalTrail.map StrEntry.toEntry)
        (stored.map ReviewDecision.toJson) = .ok [] ∧
      (¬ SameOutcome (Decisions.effectiveView rt f.decisionContext stored true)
        (Decisions.effectiveView rt f.decisionContext f.state.reviewDecisions true)) ∧
      ¬ SameOutcome (Decisions.effectiveView rt f.decisionContext stored true)
        (Decisions.effectiveView rt f.decisionContext
          (f.state.reviewDecisions.filter fun d => digests.contains d.decisionId) true) := by
  obtain ⟨hacc, hstate, hstamped⟩ := h
  exact ⟨hacc, fun hs => hstate (reviewStatuses_congr hs),
    fun hs => hstamped (reviewStatuses_congr hs)⟩

/-- A correction whose entry cannot be computed raises, but stays among the decisions, where the
next correction supersedes it.  The decisions without it, in another order, are accepted and give
another view: the original sign-off counts again. -/
theorem unstamped_decision_changes_view :
    ∃ rt calls stored, rt.CollisionFree ∧ FreshIds calls ∧ NamedIds calls ∧
      let f := after rt (.fresh (lit "Access") (lit "A bank") [] none) calls
      let digests := Trail.recordedDigests rt (f.state.approvalTrail.map StrEntry.toEntry)
      Trail.decisionsChanged rt (f.state.approvalTrail.map StrEntry.toEntry)
          (stored.map ReviewDecision.toJson) = .ok [] ∧
        (¬ SameOutcome (Decisions.effectiveView rt f.decisionContext stored true)
          (Decisions.effectiveView rt f.decisionContext f.state.reviewDecisions true)) ∧
        ¬ SameOutcome (Decisions.effectiveView rt f.decisionContext stored true)
          (Decisions.effectiveView rt f.decisionContext
            (f.state.reviewDecisions.filter fun d => digests.contains d.decisionId) true) := by
  have hfresh : FreshIds Sample.corrected := by decide +kernel
  have hnamed : NamedIds Sample.corrected := by decide +kernel
  have hother : AcceptedOtherReviews Sample.knownRt
      (after Sample.knownRt (.fresh (lit "Access") (lit "A bank") [] none) Sample.corrected)
      Sample.reordered := by
    unfold AcceptedOtherReviews
    decide +kernel
  exact ⟨Sample.knownRt, Sample.corrected, Sample.reordered,
    Sample.collisionFree_known Sample.nodup_known, hfresh, hnamed, hother.changes⟩

end AuditFlow

end AuditSwarm
