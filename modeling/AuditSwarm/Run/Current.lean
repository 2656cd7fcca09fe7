import AuditSwarm.Run.Decisions
import AuditSwarm.Trail.Built

/-!
# Decisions on the current artifacts

With collision-free digests, a decision counts exactly while nothing supersedes it and the artifact
it was made on has the content it had when the decision was recorded.
-/

namespace AuditSwarm

open Python StrEnum Decisions

namespace Decisions

variable {rt : Runtime} {ctx ctx' : Context} {d : ReviewDecision}

/-- The artifact decisions on a subject are made on has the same content in two contexts. -/
def SameArtifact (ctx ctx' : Context) : DecisionSubjectType → Prop
  | .finding => ctx.papers = ctx'.papers
  | .deficiency | .engagement => ctx.report = ctx'.report

theorem artifact_eq_of_sameArtifact {stype : DecisionSubjectType}
    (h : SameArtifact ctx ctx' stype) :
    ctx.artifact (artifactForSubject stype) = ctx'.artifact (artifactForSubject stype) := by
  cases stype with
  | finding => rw [artifact_finding, artifact_finding, show ctx.papers = ctx'.papers from h]
  | deficiency =>
      rw [artifact_deficiency, artifact_deficiency, show ctx.report = ctx'.report from h]
  | engagement =>
      rw [artifact_engagement, artifact_engagement, show ctx.report = ctx'.report from h]

/-- Dumps of optional artifacts with the same digest are dumps of the same artifact. -/
theorem eq_of_digest {α : Type} {dump : α → Json} (hdump : Json.Faithful dump)
    (hcf : rt.CollisionFree) {x y : Option α} {dumped dumped' : Json} {digest : Str}
    (h : x.map dump = some dumped) (h' : y.map dump = some dumped')
    (hd : Trail.artifactDigest rt dumped = .ok digest)
    (hd' : Trail.artifactDigest rt dumped' = .ok digest) : x = y := by
  obtain ⟨a, ha, rfl⟩ := Option.map_eq_some_iff.mp h
  obtain ⟨b, hb, rfl⟩ := Option.map_eq_some_iff.mp h'
  rw [ha, hb, (hdump a b).mp (Trail.same_of_artifactDigest hcf hd hd')]

theorem sameArtifact_of_digest (hcf : rt.CollisionFree) {stype : DecisionSubjectType}
    {dumped dumped' : Json} {digest : Str}
    (h : ctx.artifact (artifactForSubject stype) = some dumped)
    (h' : ctx'.artifact (artifactForSubject stype) = some dumped')
    (hd : Trail.artifactDigest rt dumped = .ok digest)
    (hd' : Trail.artifactDigest rt dumped' = .ok digest) : SameArtifact ctx ctx' stype := by
  cases stype with
  | finding =>
      rw [artifact_finding] at h h'
      exact eq_of_digest WorkingPaperSchema.faithful_toJson hcf h h' hd hd'
  | deficiency =>
      rw [artifact_deficiency] at h h'
      exact eq_of_digest FinalReportSchema.faithful_toJson hcf h h' hd hd'
  | engagement =>
      rw [artifact_engagement] at h h'
      exact eq_of_digest FinalReportSchema.faithful_toJson hcf h h' hd hd'

/-- The digest of the current artifact is that of the draft a decision was built on exactly when
the artifact has the same content. -/
theorem Built.current_iff (hcf : rt.CollisionFree) {status : Str} {preparers : List Str}
    {before : List ReviewDecision} {uuid : Str}
    (h : Built rt ctx status preparers before uuid d) {digests : Dict Str (Option Str)}
    (hdigests : ctx'.digests rt = .ok digests) :
    (digests.get? d.artifact).getD none = some d.draftDigest ↔
      SameArtifact ctx ctx' d.subjectType := by
  obtain ⟨dumped, hdumped, hdigest⟩ := h.digest
  rw [h.artifact] at hdumped ⊢
  constructor
  · intro hcurrent
    have hof := digestOf_eq_ok hdigests d.subjectType
    rw [hcurrent] at hof
    unfold Context.digestOf at hof
    cases hartifact : ctx'.artifact (artifactForSubject d.subjectType) with
    | none => simp [hartifact] at hof
    | some dumped' =>
        simp only [hartifact] at hof
        obtain ⟨digest, hd, hsome⟩ := Except.map_eq_ok_iff.mp hof
        obtain rfl := Option.some.inj hsome
        exact sameArtifact_of_digest hcf hdumped hartifact hdigest hd
  · intro hsame
    exact digests_get? hdigests (artifact_eq_of_sameArtifact hsame ▸ hdumped) hdigest

end Decisions

namespace AuditFlow

variable {rt : Runtime} {g : AuditFlow} {d : ReviewDecision}

/-- A decision is active exactly when nothing supersedes it and the artifact it was made on has the
content it had when the decision was recorded. -/
theorem RecordedAt.active_iff (hcf : rt.CollisionFree)
    {t : Transition AuditFlow Call (Except Exn Unit)} (h : RecordedAt rt t d)
    {digests : Dict Str (Option Str)} (hdigests : g.decisionContext.digests rt = .ok digests) :
    stateOf digests g.state.reviewDecisions d = .active ↔
      (¬ decisionScheme.Superseded g.state.reviewDecisions d.decisionId) ∧
        SameArtifact t.before.decisionContext g.decisionContext d.subjectType := by
  rw [stateOf_eq_active_iff, h.built.current_iff hcf hdigests]

end AuditFlow

end AuditSwarm
