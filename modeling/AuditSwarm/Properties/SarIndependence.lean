import AuditSwarm.Model.OscalResults
import AuditSwarm.Model.System

/-!
# The reporting crew's own assessment results

`oscal_sar`, which the reporting crew writes, reaches the document only in its title, the version
digest and the remarks of observations, as long as the trail holds a time.
-/

namespace AuditSwarm

open Python

namespace Oscal

/-! ## What may depend on it -/

def Inputs.withSar (inp : Inputs) (sar : Option OscalSarSchema) : Inputs :=
  { inp with report := { inp.report with oscalSar := sar } }

def Observation.withoutRemarks (o : Observation) : Observation := { o with remarks := none }

def AssessmentResult.withoutRemarks (r : AssessmentResult) : AssessmentResult :=
  { r with observations := r.observations.map Observation.withoutRemarks }

/-- The document without its title, its version and the remarks of its observations. -/
def Document.withoutNarrative (d : Document) : Document :=
  { d with
    metadata := { d.metadata with title := [], version := [] }
    results := d.results.map AssessmentResult.withoutRemarks }

def Parts.withoutRemarks (p : Parts) : Parts :=
  { p with observations := p.observations.map Observation.withoutRemarks }

section
variable {rt : Runtime} {lib : OscalLibrary} {inp : Inputs} {sar : Option OscalSarSchema}

/-! ## The parts of the document -/

theorem observation_withSar (times : Times) (found : Dict Str (Option EvidenceMeta))
    (f : AuditFindingSchema) (key : Str) :
    (observation rt lib (inp.withSar sar) times found f key).map Observation.withoutRemarks =
      (observation rt lib inp times found f key).map Observation.withoutRemarks := by
  unfold observation
  apply Except.map_bind_congr
  intro review
  apply Except.map_bind_congr
  intro ofFinding
  apply Except.map_bind_congr
  intro evidence
  rfl

theorem observations_withSar (times : Times) (found : Dict Str (Option EvidenceMeta)) :
    (observations rt lib (inp.withSar sar) times found).map (List.map Observation.withoutRemarks) =
      (observations rt lib inp times found).map (List.map Observation.withoutRemarks) := by
  unfold observations
  rw [Except.map_mapM, Except.map_mapM]
  exact Except.mapM_congr fun fk _ => observation_withSar times found fk.1 fk.2

theorem lastModified_withSar {known : List Timestamp} (hknown : known ≠ []) :
    lastModified rt lib (inp.withSar sar) known = lastModified rt lib inp known := by
  cases known with
  | nil => exact absurd rfl hknown
  | cons t ts => rfl

def HoldsTime (rt : Runtime) (lib : OscalLibrary) (trail : List Entry) : Prop :=
  ∃ e ∈ trail, ∃ t, oscalDatetime rt lib.toLintLibrary (e.get? (lit "timestamp")) = .ok (some t)

theorem known_ne_nil {times : List (Option Timestamp)} (htime : HoldsTime rt lib inp.trail)
    (h : trailTimes rt lib inp = .ok times) : times.reduceOption ≠ [] := by
  rcases htime with ⟨e, he, t, ht⟩
  rcases Except.exists_of_mapM_eq_ok h e he with ⟨found, hmem, hfound⟩
  rw [ht] at hfound
  have hsome : some t ∈ times := by
    rw [Except.ok.inj hfound]
    exact hmem
  exact List.ne_nil_of_mem (List.reduceOption_mem_iff.mpr hsome)

/-- Results that agree after a map, continued alike, agree after a map. -/
theorem map_bind_of_map {ε α β γ δ : Type} {x y : Except ε α} {f g : α → Except ε β} {h : α → γ}
    {k : β → δ} (hxy : x.map h = y.map h)
    (hfg : ∀ a b, h a = h b → (f a).map k = (g b).map k) :
    (x >>= f).map k = (y >>= g).map k := by
  cases x with
  | error e =>
      cases y with
      | error e' =>
          rw [Except.error.inj hxy]
          rfl
      | ok b => cases hxy
  | ok a =>
      cases y with
      | error e => cases hxy
      | ok b => exact hfg a b (Except.ok.inj hxy)

theorem parts_withSar (htime : HoldsTime rt lib inp.trail) :
    (parts rt lib (inp.withSar sar)).map Parts.withoutRemarks =
      (parts rt lib inp).map Parts.withoutRemarks := by
  have hsame : trailTimes rt lib (inp.withSar sar) = trailTimes rt lib inp := rfl
  unfold parts
  rw [hsame]
  cases htimes : trailTimes rt lib inp with
  | error e => rfl
  | ok times =>
      rw [Except.ok_bind, Except.ok_bind, lastModified_withSar (known_ne_nil htime htimes)]
      apply Except.map_bind_congr
      intro modified
      apply Except.map_bind_congr
      intro gate2
      apply Except.map_bind_congr
      intro evidence
      apply Except.map_bind_congr
      intro risks
      apply map_bind_of_map (observations_withSar _ evidence)
      intro observed observed' heq
      apply Except.map_bind_congr
      intro findings
      apply Except.map_bind_congr
      intro ofResult
      apply Except.map_bind_congr
      intro attestations
      exact congrArg (fun os => Except.ok (Parts.mk _ times evidence risks os findings ofResult
        attestations)) heq

/-! ## The document -/

theorem logEntriesFrom_withSar (modified : Timestamp) (i : Nat)
    (entries : List (Entry × Option Timestamp)) :
    logEntriesFrom rt lib (inp.withSar sar) modified i entries =
      logEntriesFrom rt lib inp modified i entries := by
  induction entries generalizing i with
  | nil => rfl
  | cons et rest ih =>
      rw [logEntriesFrom, logEntriesFrom, ih]
      rfl

theorem documentOf_withSar {p q : Parts} (h : p.withoutRemarks = q.withoutRemarks)
    (controls : ReviewedControls) :
    (documentOf rt lib (inp.withSar sar) p controls).withoutNarrative =
      (documentOf rt lib inp q controls).withoutNarrative := by
  have hfields := Parts.mk.inj h
  rcases p with ⟨times, trailTimes, evidence, risks, observed, findings, ofResult, attested⟩
  rcases q with ⟨times', trailTimes', evidence', risks', observed', findings', ofResult', attested'⟩
  rcases hfields with ⟨rfl, rfl, rfl, rfl, hobserved, rfl, rfl, rfl⟩
  have hremarks : observed.map Observation.withoutRemarks =
      observed'.map Observation.withoutRemarks := hobserved
  have hresult : (assessmentResult rt lib (inp.withSar sar)
        ⟨times, trailTimes, evidence, risks, observed, findings, ofResult, attested⟩
        controls).withoutRemarks =
      (assessmentResult rt lib inp
        ⟨times, trailTimes, evidence, risks, observed', findings, ofResult, attested⟩
        controls).withoutRemarks := by
    unfold AssessmentResult.withoutRemarks assessmentResult
    dsimp only
    rw [hremarks, logEntriesFrom_withSar]
    rfl
  unfold Document.withoutNarrative documentOf
  dsimp only
  rw [List.map_singleton, List.map_singleton, hresult]
  rfl

end

/-- Two reports that differ only in `oscal_sar` give documents that differ at most in the title,
the version and the remarks of observations. -/
theorem buildAssessmentResults_sar_independent (rt : Runtime) (lib : OscalLibrary) (inp : Inputs)
    (sar : Option OscalSarSchema) (htime : HoldsTime rt lib inp.trail) :
    (buildAssessmentResults rt lib (inp.withSar sar)).map Document.withoutNarrative =
      (buildAssessmentResults rt lib inp).map Document.withoutNarrative := by
  have hcontrols : reviewedControls rt lib (inp.withSar sar) = reviewedControls rt lib inp := rfl
  have hparts : ((parts rt lib (inp.withSar sar)).mapError OscalError.other).map
      Parts.withoutRemarks =
        ((parts rt lib inp).mapError OscalError.other).map Parts.withoutRemarks := by
    have h : (parts rt lib (inp.withSar sar)).map Parts.withoutRemarks =
        (parts rt lib inp).map Parts.withoutRemarks := parts_withSar htime
    cases hleft : parts rt lib (inp.withSar sar) with
    | error e =>
        cases hright : parts rt lib inp with
        | error e' =>
            rw [hleft, hright] at h
            rw [Except.error.inj h]
        | ok q =>
            rw [hleft, hright] at h
            cases h
    | ok p =>
        cases hright : parts rt lib inp with
        | error e' =>
            rw [hleft, hright] at h
            cases h
        | ok q =>
            rw [hleft, hright] at h
            exact congrArg Except.ok (Except.ok.inj h)
  unfold buildAssessmentResults
  rw [hcontrols]
  apply map_bind_of_map hparts
  intro p q hpq
  apply Except.map_bind_congr
  intro controls
  exact congrArg Except.ok (documentOf_withSar hpq controls)

def sampleLibrary : OscalLibrary where
  toCharClasses := .ascii
  parseDatetime text :=
    if text = lit "2026-01-01T00:00:00+00:00" then some ⟨63902822400000000, some 0⟩ else none
  percent _ _ := []
  uuid5 name := name
  upper s := s
  digest _ _ _ _ := []

namespace Sample

def drafted : OscalSarSchema where
  metadata := ⟨lit "All controls effective", [], [], []⟩
  importAp := ⟨[], none⟩
  results := []

/-- The audit of one control whose matrix and papers are given. -/
def inputs (racm : RiskControlMatrixSchema) (papers : WorkingPaperSchema)
    (report : FinalReportSchema) : Inputs where
  sessionId := lit "s-1"
  sessionName := lit "Access"
  sessionStatus := lit "COMPLETED"
  reportState := lit "Approved at Gate 3"
  theme := lit "Access"
  report := report
  papers := papers
  racm := some racm
  trail := [[(lit "timestamp", .str (lit "2026-01-01T00:00:00+00:00")),
    (lit "human", .str (lit "Ann")), (lit "action", .str (lit "audit_created"))]]
  preparedBy := []
  markup text := text
  verifyQuote := none
  evidenceLookup _ := .ok none
  view := none
  decisions := []
  now := ⟨0, by decide⟩

end Sample

theorem buildAssessmentResults_sar_independent_drafted :
    (buildAssessmentResults (.ascii Runtime.shortDigest) sampleLibrary
      ((Sample.inputs AuditSwarm.Sample.smallRacm
        AuditSwarm.Sample.smallPapers.val AuditSwarm.Sample.smallReport.val).withSar
          (some Sample.drafted))).map Document.withoutNarrative =
      (buildAssessmentResults (.ascii Runtime.shortDigest) sampleLibrary
        (Sample.inputs AuditSwarm.Sample.smallRacm
          AuditSwarm.Sample.smallPapers.val AuditSwarm.Sample.smallReport.val)).map
            Document.withoutNarrative :=
  buildAssessmentResults_sar_independent (.ascii Runtime.shortDigest) sampleLibrary _
    (some Sample.drafted) ⟨_, List.mem_cons_self, _, rfl⟩

end Oscal

end AuditSwarm
