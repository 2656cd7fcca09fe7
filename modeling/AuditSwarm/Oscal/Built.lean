import AuditSwarm.Model.OscalResults

/-!
# What a built document consists of

The document of a call that returns, read back part by part: which list each part was made from,
one element for each entry.
-/

namespace AuditSwarm

open Python
open Decisions (DeficiencyView)

namespace Oscal

variable {rt : Runtime} {lib : OscalLibrary} {inp : Inputs}

/-! ## The parts -/

/-- The parts of the document were read without an error. -/
structure PartsRead (rt : Runtime) (lib : OscalLibrary) (inp : Inputs) (p : Parts) : Prop where
  trailTimes : trailTimes rt lib inp = .ok p.trailTimes
  evidence : evidenceMeta inp = .ok p.evidence
  risks : documentRisks rt lib inp p.times.lastModified = .ok p.risks
  observations : observations rt lib inp p.times p.evidence = .ok p.observations
  findings : documentFindings rt lib inp = .ok p.findings
  attestations : attestations rt lib inp = .ok p.attestations

theorem parts_read {p : Parts} (h : parts rt lib inp = .ok p) : PartsRead rt lib inp p := by
  unfold parts at h
  rcases Except.bind_eq_ok_iff.mp h with ⟨times, htimes, h⟩
  rcases Except.bind_eq_ok_iff.mp h with ⟨modified, hmodified, h⟩
  rcases Except.bind_eq_ok_iff.mp h with ⟨gate2, hgate2, h⟩
  rcases Except.bind_eq_ok_iff.mp h with ⟨evidence, hevidence, h⟩
  rcases Except.bind_eq_ok_iff.mp h with ⟨risks, hrisks, h⟩
  rcases Except.bind_eq_ok_iff.mp h with ⟨observed, hobserved, h⟩
  rcases Except.bind_eq_ok_iff.mp h with ⟨findings, hfindings, h⟩
  rcases Except.bind_eq_ok_iff.mp h with ⟨ofResult, hofResult, h⟩
  rcases Except.bind_eq_ok_iff.mp h with ⟨attested, hattested, h⟩
  rw [← Except.ok.inj h]
  exact ⟨htimes, hevidence, hrisks, hobserved, hfindings, hattested⟩

/-- A document that is returned is made of parts that were read. -/
theorem build_parts {d : Document} (h : buildAssessmentResults rt lib inp = .ok d) :
    ∃ p controls, PartsRead rt lib inp p ∧ d = documentOf rt lib inp p controls := by
  unfold buildAssessmentResults at h
  rcases Except.bind_eq_ok_iff.mp h with ⟨p, hp, h⟩
  rcases Except.bind_eq_ok_iff.mp h with ⟨controls, hcontrols, h⟩
  cases hparts : parts rt lib inp with
  | error e =>
      rw [hparts] at hp
      cases hp
  | ok q =>
      rw [hparts] at hp
      have hq : q = p := Except.ok.inj hp
      rw [hq] at hparts
      exact ⟨p, controls, parts_read hparts, (Except.ok.inj h).symm⟩

/-! ## Entry by entry -/

theorem forall₂_of_zip {α β γ : Type} {R : α × β → γ → Prop} {as : List α} {bs : List β}
    {cs : List γ} (hlength : as.length = bs.length) (h : List.Forall₂ R (as.zip bs) cs) :
    List.Forall₂ (fun a c => ∃ b, R (a, b) c) as cs := by
  induction as generalizing bs cs with
  | nil =>
      cases bs with
      | nil =>
          cases h
          exact .nil
      | cons b bs => cases hlength
  | cons a as ih =>
      cases bs with
      | nil => cases hlength
      | cons b bs =>
          cases h with
          | cons hab hrest => exact .cons ⟨b, hab⟩ (ih (Nat.succ.inj hlength) hrest)

/-- What is known of each pair decides a property of all pairs entry by entry. -/
theorem forall₂_iff_forall {α β : Type} {R P : α → β → Prop} {Q : α → Prop} {as : List α}
    {bs : List β} (h : List.Forall₂ R as bs) (hiff : ∀ a ∈ as, ∀ b, R a b → (P a b ↔ Q a)) :
    List.Forall₂ P as bs ↔ ∀ a ∈ as, Q a := by
  induction h with
  | nil => simp
  | cons hab _ ih =>
      rw [List.forall₂_cons, List.forall_mem_cons, hiff _ List.mem_cons_self _ hab,
        ih fun a ha b => hiff a (List.mem_cons_of_mem _ ha) b]

theorem PartsRead.risksMade {p : Parts} (h : PartsRead rt lib inp p) :
    List.Forall₂ (fun ek r => documentRisk rt lib inp p.times.lastModified ek.1 ek.2 = .ok r)
      (inp.report.deficiencyEvaluations.zip (riskKeys inp)) p.risks :=
  Except.mapM_eq_ok_iff.mp h.risks

theorem length_riskKeys : (riskKeys inp).length = inp.report.deficiencyEvaluations.length := by
  unfold riskKeys
  rw [length_numberedFrom, List.length_map]

theorem PartsRead.risksOf {p : Parts} (h : PartsRead rt lib inp p) :
    List.Forall₂ (fun e r => ∃ key, documentRisk rt lib inp p.times.lastModified e key = .ok r)
      inp.report.deficiencyEvaluations p.risks :=
  forall₂_of_zip length_riskKeys.symm h.risksMade

theorem PartsRead.observationsMade {p : Parts} (h : PartsRead rt lib inp p) :
    List.Forall₂ (fun fk o => observation rt lib inp p.times p.evidence fk.1 fk.2 = .ok o)
      (keyedFindings inp) p.observations :=
  Except.mapM_eq_ok_iff.mp h.observations

theorem PartsRead.findingsMade {p : Parts} (h : PartsRead rt lib inp p) :
    ∃ found, List.Forall₂ (fun fk o => findingOf rt lib inp fk.1 fk.2 = .ok o)
      (keyedFindings inp) found ∧ p.findings = found.reduceOption := by
  have hfindings := h.findings
  unfold documentFindings at hfindings
  rcases Except.bind_eq_ok_iff.mp hfindings with ⟨found, hfound, hp⟩
  exact ⟨found, Except.mapM_eq_ok_iff.mp hfound, (Except.ok.inj hp).symm⟩

/-! ## Risks -/

def deficiencyOf (inp : Inputs) (e : DeficiencyEvaluationSchema) : Option DeficiencyView :=
  inp.view.bind (·.deficiency e.deficiencyId)

structure RiskMade (rt : Runtime) (lib : OscalLibrary) (inp : Inputs)
    (modified : Timestamp) (e : DeficiencyEvaluationSchema) (key : Str) (r : DocumentRisk) :
    Prop where
  uuid : r.uuid = riskUuid lib inp key
  title : r.title = inp.markup (lineOr e.title e.deficiencyId)
  statement : r.statement = inp.markup (riskTexts inp (deficiencyOf inp e) e).statement
  props : ∃ ofView verified,
    (∀ v, deficiencyOf inp e = some v → viewProps rt lib v e = .ok ofView) ∧
    (deficiencyOf inp e = none → ofView = []) ∧
    verificationLog rt lib inp modified key
      ((deficiencyOf inp e).bind (·.remediationVerification)) = .ok verified ∧
    r.props = classificationProps inp (deficiencyOf inp e) e ++ ofView ++ racmRiskProps e ++
      verified.flatMap RiskLogEntry.props
  status : r.status = riskStatus ((deficiencyOf inp e).bind (·.remediationVerification))
  origins : r.origins =
    match deficiencyOf inp e with
    | none => []
    | some v => platformOrigin lib inp :: reviewerOrigin lib inp v.classificationDecision
  riskLog : ∃ responded verified,
    responseLog rt lib inp modified key
      ((deficiencyOf inp e).bind (·.managementResponse)) = .ok responded ∧
    verificationLog rt lib inp modified key
      ((deficiencyOf inp e).bind (·.remediationVerification)) = .ok verified ∧
    r.riskLog = responded ++ verified
  remediations : ∃ recommended planned,
    recommendation rt lib inp key ((deficiencyOf inp e).bind (·.writeup)) = .ok recommended ∧
    actionPlan rt lib inp key ((deficiencyOf inp e).bind (·.managementResponse)) = .ok planned ∧
    r.remediations = recommended ++ planned
  relatedObservations : r.relatedObservations = relatedObservations lib inp e

theorem documentRisk_made {modified : Timestamp} {e : DeficiencyEvaluationSchema} {key : Str}
    {r : DocumentRisk} (h : documentRisk rt lib inp modified e key = .ok r) :
    RiskMade rt lib inp modified e key r := by
  unfold documentRisk at h
  rcases Except.bind_eq_ok_iff.mp h with ⟨ofView, hofView, h⟩
  rcases Except.bind_eq_ok_iff.mp h with ⟨deadline, -, h⟩
  rcases Except.bind_eq_ok_iff.mp h with ⟨recommended, hrecommended, h⟩
  rcases Except.bind_eq_ok_iff.mp h with ⟨planned, hplanned, h⟩
  rcases Except.bind_eq_ok_iff.mp h with ⟨responded, hresponded, h⟩
  rcases Except.bind_eq_ok_iff.mp h with ⟨verified, hverified, h⟩
  have hr := (Except.ok.inj h).symm
  rw [hr]
  refine ⟨rfl, rfl, rfl, ⟨ofView, verified, ?_, ?_, hverified, rfl⟩, rfl, rfl,
    ⟨responded, verified, hresponded, hverified, rfl⟩,
    ⟨recommended, planned, hrecommended, hplanned, rfl⟩, rfl⟩
  · intro v hv
    unfold deficiencyOf at hv
    rw [hv] at hofView
    exact hofView
  · intro hnone
    unfold deficiencyOf at hnone
    rw [hnone] at hofView
    exact (Except.ok.inj hofView).symm

end Oscal

end AuditSwarm
