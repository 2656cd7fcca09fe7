import AuditSwarm.Trail.Append
import AuditSwarm.Model.Decisions

/-!
# What a recorded decision has been checked for

`build_decision` returns a decision only after a dozen checks.  `Built` lists what they establish,
so that later proofs do not unfold the function.
-/

namespace AuditSwarm

open Python StrEnum

namespace Decisions

variable {rt : Runtime}

/-- What `build_decision` has established of the decision it returns. -/
structure Built (rt : Runtime) (ctx : Context) (status : Str) (preparers : List Str)
    (decisions : List ReviewDecision) (uuid : Str) (d : ReviewDecision) : Prop where
  decidedBy_ne : d.decidedBy ≠ []
  status : Policy.decisionStatusViolation d.decisionType status = none
  sod : ∀ p ∈ preparers, Policy.decisionSodViolation rt d.decisionType d.decidedBy p = none
  id : d.decisionId = uuid
  phase : d.phase = (phaseForType d.decisionType).number
  subjectType : d.subjectType = subjectForType d.decisionType
  engagement : d.subjectType = .engagement → d.subjectId = engagementSubjectId
  artifact : d.artifact = artifactForSubject d.subjectType
  supersedes_ne : d.supersedes ≠ some []
  digest : ∃ dumped, ctx.artifact d.artifact = some dumped ∧
    Trail.artifactDigest rt dumped = .ok d.draftDigest
  values : ∃ active parsed decidedAt, activeBySlot rt ctx decisions = .ok active ∧
    storedValues rt ctx active d.subjectId d.rationale decidedAt d.decisionType parsed =
      .ok d.values ∧
    checkSupersedes rt ctx decisions active (slotKey d) d.supersedes = .ok ()

theorem checkSubjectId_eq_ok {stype : DecisionSubjectType} {given subjectId : Str}
    (h : checkSubjectId stype given = .ok subjectId) :
    (stype = .engagement → subjectId = engagementSubjectId) ∧ subjectId ≠ [] := by
  unfold checkSubjectId at h
  simp only [Except.bind_eq_ok_iff, Except.ensure_eq_ok_iff, Except.pure_eq_ok_iff] at h
  obtain ⟨_, hengagement, _, hne, rfl⟩ := h
  exact ⟨hengagement, hne⟩

theorem buildDecision_eq_ok {ctx : Context} {status : Str} {preparers : List Str}
    {decisions : List ReviewDecision} {req : Request} {now clock uuid : Str}
    {d : ReviewDecision}
    (h : buildDecision rt ctx status preparers decisions req now clock uuid = .ok d) :
    Built rt ctx status preparers decisions uuid d := by
  unfold buildDecision at h
  simp only [Except.bind_eq_ok_iff, Except.orRaise_eq_ok_iff, Except.ensure_eq_ok_iff,
    Except.raiseSome_eq_ok_iff, Except.pure_eq_ok_iff, Option.map_eq_none_iff] at h
  obtain ⟨dtype, -, _, hne, source, -, _, hstatus, _, hsod, _, -, subjectId, hsubject, artifact,
    hartifact, parsed, -, active, hactive, stored, hstored, _, -, _, hsupersedes, digest, hdigest,
    rfl⟩ := h
  exact
    { decidedBy_ne := hne
      status := hstatus
      sod := fun p hp => List.findSome?_eq_none_iff.mp hsod p hp
      id := rfl
      phase := rfl
      subjectType := rfl
      engagement := (checkSubjectId_eq_ok hsubject).1
      artifact := rfl
      supersedes_ne := by simp [Option.filter_eq_some_iff]
      digest := ⟨artifact, hartifact, hdigest⟩
      values := ⟨active, parsed, _, hactive, hstored, hsupersedes⟩ }

end Decisions

end AuditSwarm
