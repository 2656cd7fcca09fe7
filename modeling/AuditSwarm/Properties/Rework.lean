import AuditSwarm.Run.Current

/-!
# Rework and earlier decisions

Whether a decision still counts is read off the digest of the draft it was made on.  So a decision
recorded before a return for rework is active again exactly while the artifact it judged has the
content it had then; a re-run that drafts other content deactivates it.
-/

namespace AuditSwarm

open Python StrEnum Decisions

namespace AuditFlow

variable {rt : Runtime} {f g : AuditFlow} {d : ReviewDecision}

/-- After a return for rework and whatever follows, a decision recorded before the return is active
exactly when nothing supersedes it and the artifact it was made on has the content it had when the
decision was recorded; and every decision that counts was made on the content there is now. -/
theorem rework_invalidates (rt : Runtime) (hcf : rt.CollisionFree) (theme businessContext : Str)
    (frameworks : List Str) (sessionId : Option Str) (pre post : List Call) (env : Env)
    (n : Phase) (humanId notes source : Str)
    (hfresh : FreshIds (pre ++ ⟨env, .record (.returnForRework n.number humanId notes source)⟩ ::
      post)) :
    let start := AuditFlow.fresh theme businessContext frameworks sessionId
    let rework : Call := ⟨env, .record (.returnForRework n.number humanId notes source)⟩
    let f := after rt start pre
    let g := after rt start (pre ++ rework :: post)
    ∀ digests, g.decisionContext.digests rt = .ok digests →
      (∀ d ∈ f.state.reviewDecisions, d.phase = n.number →
        ∃ t ∈ trace rt start pre, RecordedAt rt t d ∧
          (stateOf digests g.state.reviewDecisions d = .active ↔
            (¬ decisionScheme.Superseded g.state.reviewDecisions d.decisionId) ∧
              SameArtifact t.before.decisionContext g.decisionContext d.subjectType)) ∧
      ∀ active, activeBySlot rt g.decisionContext g.state.reviewDecisions = .ok active →
        ∀ key d, active.get? key = some d → ∃ t ∈ trace rt start (pre ++ rework :: post),
          RecordedAt rt t d ∧
            SameArtifact t.before.decisionContext g.decisionContext d.subjectType := by
  intro start rework f g digests hdigests
  have hpre : FreshIds pre := by
    unfold FreshIds at hfresh ⊢
    rw [List.map_append] at hfresh
    exact (List.nodup_append.mp hfresh).1
  have hhistory := (@decisionHistory_run rt) theme businessContext frameworks sessionId hfresh
  constructor
  · intro d hd _
    obtain ⟨t, ht, hrec⟩ := ((@decisionHistory_run rt) theme businessContext frameworks
      sessionId hpre).recorded d hd
    exact ⟨t, ht, hrec, hrec.active_iff hcf hdigests⟩
  · intro active hactive key d hget
    obtain ⟨hd, hstate, -⟩ := (hhistory.log.consistent.active_iff hdigests hactive).mp hget
    obtain ⟨t, ht, hrec⟩ := hhistory.recorded d hd
    exact ⟨t, ht, hrec, ((hrec.active_iff hcf hdigests).mp hstate).2⟩

end AuditFlow

namespace Sample

/-- A re-run that drafts another conclusion. -/
def redrafted : List Call :=
  [⟨env "u8" (crew smallRacm effectivePapers smallReport), .generate .fieldwork⟩]

/-- The decisions of an audit with new papers: superseded and stale. -/
def Deactivated (rt : Runtime) (g : AuditFlow) : Prop :=
  g.state.workingPapers = some effectivePapers ∧
    (g.decisionContext.digests rt).map
        (fun digests => g.state.reviewDecisions.map (stateOf digests g.state.reviewDecisions)) =
      .ok [.superseded, .stale]

abbrev sentBack : Call :=
  ⟨smallEnv "u7",
    .record (.returnForRework Phase.fieldwork.number (lit "M") (lit "Redo.") (lit "declared"))⟩

end Sample

namespace AuditFlow

theorem redrafted_deactivated :
    Sample.Deactivated Sample.rt (after Sample.rt Sample.fresh
      (Sample.challenged ++ Sample.sentBack :: Sample.redrafted)) := by
  unfold Sample.Deactivated
  decide +kernel

/-- A sign-off and the challenge that superseded it, after a return of their phase and a re-run that
drafts another conclusion; what the calls lead to is computed with short digests. -/
theorem rework_invalidates_challenged :
    (let start := AuditFlow.fresh (lit "Access") (lit "A bank") [] none
    let rework : Call := ⟨Sample.smallEnv "u7",
      .record (.returnForRework Phase.fieldwork.number (lit "M") (lit "Redo.") (lit "declared"))⟩
    let f := after Sample.transparent start Sample.challenged
    let g := after Sample.transparent start (Sample.challenged ++ rework :: Sample.redrafted)
    ∀ digests, g.decisionContext.digests Sample.transparent = .ok digests →
      (∀ d ∈ f.state.reviewDecisions, d.phase = Phase.fieldwork.number →
        ∃ t ∈ trace Sample.transparent start Sample.challenged, RecordedAt Sample.transparent t d ∧
          (stateOf digests g.state.reviewDecisions d = .active ↔
            (¬ decisionScheme.Superseded g.state.reviewDecisions d.decisionId) ∧
              SameArtifact t.before.decisionContext g.decisionContext d.subjectType)) ∧
      ∀ active, activeBySlot Sample.transparent g.decisionContext g.state.reviewDecisions =
          .ok active →
        ∀ key d, active.get? key = some d →
          ∃ t ∈ trace Sample.transparent start
              (Sample.challenged ++ rework :: Sample.redrafted),
            RecordedAt Sample.transparent t d ∧
              SameArtifact t.before.decisionContext g.decisionContext d.subjectType) ∧
    Sample.Deactivated Sample.rt (after Sample.rt Sample.fresh
      (Sample.challenged ++ Sample.sentBack :: Sample.redrafted)) := by
  constructor
  · exact rework_invalidates Sample.transparent Runtime.collisionFree_transparent (lit "Access")
      (lit "A bank") [] none Sample.challenged Sample.redrafted (Sample.smallEnv "u7") .fieldwork
      (lit "M") (lit "Redo.") (lit "declared") (by decide +kernel)
  · exact redrafted_deactivated

end AuditFlow

/-! ## Decisions that stay active -/

namespace Sample

/-- An environment whose crew finds a control untested and reports the given deficiencies. -/
def untestedEnv (uuid : String) (report : ValidReport) : Env :=
  env uuid (crew (racm []) ⟨papers [finding "C1" .notTested .notTested], by decide +kernel⟩ report)

def atFieldwork : List Call :=
  [⟨untestedEnv "u1" smallReport, .generate .planning⟩,
    ⟨untestedEnv "u2" smallReport, .record (.approveGate .planning (lit "B") (lit "declared"))⟩,
    ⟨untestedEnv "u3" smallReport, .generate .fieldwork⟩]

def reviewed : List Call :=
  atFieldwork ++
    [⟨untestedEnv "e" smallReport, .record (.recordDecision (request "sign_off" "C1" "C" []))⟩]

/-- That audit in its last review, with its finding reported as a scope limitation. -/
def limited : List Call :=
  atFieldwork ++
    [⟨untestedEnv "u4" smallReport, .record (.approveGate .fieldwork (lit "B") (lit "declared"))⟩,
      ⟨untestedEnv "u5" smallReport, .generate .reporting⟩,
      ⟨untestedEnv "e" smallReport,
        .record (.recordDecision (request "scope_limitation" "C1" "C" []))⟩]

def otherReport : ValidReport :=
  ⟨report (some .icfr) [evaluation "D2" .controlDeficiency], by decide +kernel⟩

end Sample

namespace AuditFlow

/-- A decision of a phase that is active after the phase was returned for rework and re-run. -/
def KeptActive (rt : Runtime) (n : Phase) (pre : List Call) (returned rerun : Env) (i : Str) :
    Prop :=
  let f := after rt (.fresh (lit "Access") (lit "A bank") [] none) pre
  let r := step rt f ⟨returned,
    .record (.returnForRework n.number (lit "M") (lit "Redo.") (lit "declared"))⟩
  let g := step rt r.2 ⟨rerun, .generate n⟩
  (∃ d ∈ f.state.reviewDecisions, d.decisionId = i ∧ d.phase = n.number) ∧
    r.1 = .ok () ∧ g.1 = .ok () ∧ g.2.machine.status = .waitingHumanGate n ∧
    (decisionStates rt g.2.decisionContext g.2.state.reviewDecisions).map (·.get? i) =
      .ok (some .active)

/-- A sign-off is active again after a re-run that drafts the same content, and a scope limitation
stays active after the report was returned and drafted anew, because it is about the working
papers. -/
theorem rework_keeps_decisions :
    KeptActive Sample.rt .fieldwork Sample.reviewed (Sample.untestedEnv "u8" Sample.smallReport)
        (Sample.untestedEnv "u9" Sample.smallReport) (lit "e") ∧
      KeptActive Sample.rt .reporting Sample.limited (Sample.untestedEnv "u8" Sample.smallReport)
        (Sample.untestedEnv "u9" Sample.otherReport) (lit "e") := by
  constructor
  · unfold KeptActive
    decide +kernel
  · unfold KeptActive
    decide +kernel

end AuditFlow

end AuditSwarm
