import AuditSwarm.Oscal.Elements
import AuditSwarm.Properties.SarIndependence

/-!
# Integrity of the document

The UUIDs of a document are pairwise distinct, and what it refers to is declared in it.
-/

namespace AuditSwarm

open Python

namespace Oscal

variable {rt : Runtime} {lib : OscalLibrary} {inp : Inputs} {p : Parts} {controls : ReviewedControls}

/-! ## Parties -/

theorem mem_registerParty (byName : List Str) (name : Str) :
    oneLine name ∈ registerParty byName name := by
  unfold registerParty
  by_cases h : oneLine name ∈ byName
  · rw [if_pos h]
    exact h
  · rw [if_neg h]
    exact List.mem_append_right _ List.mem_cons_self

theorem subset_registerParty (byName : List Str) (name : Str) :
    byName ⊆ registerParty byName name := by
  unfold registerParty
  by_cases h : oneLine name ∈ byName
  · rw [if_pos h]
    exact List.Subset.refl _
  · rw [if_neg h]
    exact List.subset_append_left _ _

theorem mem_partyNames {name : Str} (h : name ∈ partyCalls rt inp) :
    oneLine name ∈ partyNames rt inp := by
  unfold partyNames
  generalize partyCalls rt inp = calls at h ⊢
  have hkept : ∀ (calls byName : List Str), byName ⊆ calls.foldl registerParty byName := by
    intro calls
    induction calls with
    | nil => exact fun _ => List.Subset.refl _
    | cons name calls ih => exact fun byName => List.Subset.trans (subset_registerParty byName name) (ih _)
  generalize ([] : List Str) = byName
  induction calls generalizing byName with
  | nil => cases h
  | cons other calls ih =>
      rcases List.mem_cons.mp h with rfl | h
      · exact hkept calls _ (mem_registerParty byName name)
      · exact ih h _

theorem resolves_party {name : Str} (h : name ∈ partyCalls rt inp) :
    (documentOf rt lib inp p controls).Resolves (.party (partyUuid lib inp name)) :=
  ⟨_, List.mem_map_of_mem (mem_partyNames h), rfl⟩

theorem mem_partyCalls_risk {e : DeficiencyEvaluationSchema}
    (he : e ∈ inp.report.deficiencyEvaluations) {name : Str} (h : name ∈ riskParties inp e) :
    name ∈ partyCalls rt inp := by
  unfold partyCalls
  simp only [List.mem_append]
  exact .inl (.inl (.inl (.inl (List.mem_flatMap.mpr ⟨e, he, h⟩))))

theorem mem_partyCalls_human {name : Str} (h : name ∈ humans rt inp.trail) :
    name ∈ partyCalls rt inp := by
  unfold partyCalls
  simp only [List.mem_append]
  exact .inl (.inl (.inr h))

theorem mem_partyCalls_role {rn : Role × List Str} (hrn : rn ∈ roleNames rt inp) {name : Str}
    (h : name ∈ rn.2) : name ∈ partyCalls rt inp := by
  unfold partyCalls
  simp only [List.mem_append]
  exact .inl (.inr (List.mem_flatMap.mpr ⟨rn, hrn, h⟩))

theorem mem_partyCalls_conclusion {c : Decisions.DecisionRef} (h : conclusionOf inp = some c) :
    c.decidedBy ∈ partyCalls rt inp := by
  unfold partyCalls
  rw [h]
  exact List.mem_append_right _ List.mem_cons_self

/-! ## Single elements -/

theorem mem_results : assessmentResult rt lib inp p controls ∈
    (documentOf rt lib inp p controls).results := List.mem_cons_self

theorem resolves_platform :
    ∀ r ∈ (platformOrigin lib inp).references, (documentOf rt lib inp p controls).Resolves r := by
  intro r hr
  rw [List.mem_singleton.mp hr]
  exact ⟨_, mem_results, _, List.mem_cons_self, rfl⟩

theorem resolves_reviewer {ref : Option Decisions.DecisionRef}
    (h : ∀ d, ref = some d → d.decidedBy ∈ partyCalls rt inp) :
    ∀ o ∈ reviewerOrigin lib inp ref, ∀ r ∈ o.references,
      (documentOf rt lib inp p controls).Resolves r := by
  intro o ho r hr
  cases ref with
  | none => cases ho
  | some d =>
      rw [List.mem_singleton.mp ho] at hr
      rw [List.mem_singleton.mp hr]
      exact resolves_party (h d rfl)

theorem resolves_component :
    (documentOf rt lib inp p controls).Resolves (.component (componentUuid lib inp)) :=
  ⟨_, mem_results, _, List.mem_cons_self, rfl⟩

theorem resolves_observation (hread : PartsRead rt lib inp p) {key : Str}
    (h : key ∈ findingKeys inp) :
    (documentOf rt lib inp p controls).Resolves (.observation (observationUuid lib inp key)) := by
  have hmem : observationUuid lib inp key ∈ p.observations.map (·.uuid) := by
    rw [observations_uuids hread]
    exact List.mem_map_of_mem (List.mem_map_of_mem h)
  rcases List.mem_map.mp hmem with ⟨o, ho, huuid⟩
  exact ⟨_, mem_results, o, ho, huuid⟩

theorem resolves_risk (hread : PartsRead rt lib inp p)
    {ek : DeficiencyEvaluationSchema × Str}
    (h : ek ∈ inp.report.deficiencyEvaluations.zip (riskKeys inp)) :
    (documentOf rt lib inp p controls).Resolves (.risk (riskUuid lib inp ek.2)) := by
  rcases Except.exists_of_mapM_eq_ok hread.risks ek h with ⟨r, hr, hmade⟩
  exact ⟨_, mem_results, r, hr, (documentRisk_made hmade).uuid⟩

theorem resolves_resource (hread : PartsRead rt lib inp p) {vid : Str}
    (h : vid ∈ evidenceIds inp) :
    (documentOf rt lib inp p controls).Resolves
      (.resource (lit "#" ++ evidenceUuid lib inp vid)) := by
  have hmem : evidenceUuid lib inp vid ∈ (resources lib inp p.evidence).map (·.uuid) := by
    rw [resources_uuids hread]
    exact List.mem_cons_of_mem _ (List.mem_map_of_mem (List.mem_map_of_mem h))
  rcases List.mem_map.mp hmem with ⟨b, hb, huuid⟩
  exact ⟨b, hb, by rw [huuid]⟩

theorem resolves_plan :
    (documentOf rt lib inp p controls).Resolves (.resource (lit "#" ++ planUuid lib inp)) :=
  ⟨_, List.mem_cons_self, rfl⟩

/-! ## The references of each part -/

theorem mem_fromKeys {xs : List Str} {x : Str} (h : x ∈ fromKeys xs) : x ∈ xs :=
  Dict.mem_of_mem_firstBy h

theorem mem_obsOfControl {controlId u : Str} (h : u ∈ obsOfControl lib inp controlId) :
    ∃ key ∈ findingKeys inp, u = observationUuid lib inp key := by
  rcases List.mem_map.mp h with ⟨fk, hfk, rfl⟩
  exact ⟨fk.2, (List.of_mem_zip (List.mem_of_mem_filter hfk)).2, rfl⟩

theorem responsible_resolve {rp : ResponsibleParty}
    (h : rp ∈ (metadata rt lib inp p.times.lastModified).responsibleParties) :
    ∀ r ∈ rp.references, (documentOf rt lib inp p controls).Resolves r := by
  intro r hr
  rcases List.mem_map.mp h with ⟨rn, hrn, rfl⟩
  rcases List.mem_map.mp hr with ⟨u, hu, rfl⟩
  rcases List.mem_map.mp hu with ⟨name, hname, rfl⟩
  exact resolves_party (mem_partyCalls_role hrn hname)

theorem attestation_resolve (hread : PartsRead rt lib inp p) {a : Attestation}
    (h : a ∈ p.attestations) : ∀ rp ∈ a.responsibleParties, ∀ r ∈ rp.references,
      (documentOf rt lib inp p controls).Resolves r := by
  intro rp hrp r hr
  rcases attestations_cases hread.attestations with hp | ⟨c, a', part, hc, hp, -, -, hparties⟩
  · rw [hp] at h
    cases h
  · rw [hp] at h
    rw [List.mem_singleton.mp h, hparties] at hrp
    rw [List.mem_singleton.mp hrp] at hr
    rw [List.mem_singleton.mp hr]
    exact resolves_party (mem_partyCalls_conclusion hc)

theorem logEntriesFrom_loggedBy {modified : Timestamp} {i : Nat}
    {ets : List (Entry × Option Timestamp)} {l : AssessmentLogEntry}
    (h : l ∈ logEntriesFrom rt lib inp modified i ets) {u : Str} (hu : l.loggedBy = some u) :
    ∃ et ∈ ets, entryLine rt et.1 "human" ≠ [] ∧ u = partyUuid lib inp (entryLine rt et.1 "human") := by
  induction ets generalizing i with
  | nil => cases h
  | cons et rest ih =>
      rcases List.mem_cons.mp h with rfl | h
      · refine ⟨et, List.mem_cons_self, ?_⟩
        unfold logEntry at hu
        dsimp only at hu
        by_cases hhuman : entryLine rt et.1 "human" = []
        · rw [if_pos hhuman] at hu
          cases hu
        · rw [if_neg hhuman] at hu
          exact ⟨hhuman, (Option.some.inj hu).symm⟩
      · rcases ih h with ⟨et', hmem, hne⟩
        exact ⟨et', List.mem_cons_of_mem _ hmem, hne⟩

theorem log_resolve {l : AssessmentLogEntry}
    (h : l ∈ logEntriesFrom rt lib inp p.times.lastModified 0 (inp.trail.zip p.trailTimes)) :
    ∀ u ∈ l.loggedBy.toList, (documentOf rt lib inp p controls).Resolves (.party u) := by
  intro u hu
  rcases logEntriesFrom_loggedBy h (Option.mem_toList.mp hu) with ⟨et, het, hne, rfl⟩
  apply resolves_party
  apply mem_partyCalls_human
  apply List.mem_filter.mpr
  exact ⟨List.mem_map_of_mem (List.of_mem_zip het).1, decide_eq_true hne⟩

theorem observation_resolve (hread : PartsRead rt lib inp p) {o : Observation}
    (h : o ∈ p.observations) :
    ∀ r ∈ o.references, (documentOf rt lib inp p controls).Resolves r := by
  rcases Except.mem_of_mapM_eq_ok hread.observations o h with ⟨fk, hfk, hmade⟩
  unfold observation at hmade
  rcases Except.bind_eq_ok_iff.mp hmade with ⟨review, -, hmade⟩
  rcases Except.bind_eq_ok_iff.mp hmade with ⟨ofFinding, -, hmade⟩
  rcases Except.bind_eq_ok_iff.mp hmade with ⟨evidence, hevidence, hmade⟩
  rw [← Except.ok.inj hmade]
  intro r hr
  rcases List.mem_append.mp hr with hr | hr
  · rcases List.mem_append.mp hr with hr | hr
    · rcases List.mem_flatMap.mp hr with ⟨origin, horigin, hr⟩
      rw [List.mem_singleton.mp horigin] at hr
      exact resolves_platform r hr
    · rcases List.mem_map.mp hr with ⟨s, hs, rfl⟩
      rw [List.mem_singleton.mp hs]
      exact resolves_component
  · rcases List.mem_map.mp hr with ⟨cited, hcited, rfl⟩
    unfold relevantEvidence at hevidence
    dsimp only at hevidence
    by_cases hvid : oneLine fk.1.vaultIdReference = []
    · rw [if_pos hvid] at hevidence
      rw [← Except.ok.inj hevidence] at hcited
      cases hcited
    · rw [if_neg hvid] at hevidence
      rcases Except.bind_eq_ok_iff.mp hevidence with ⟨verified, -, hevidence⟩
      rw [← Except.ok.inj hevidence] at hcited
      rw [List.mem_singleton.mp hcited]
      apply resolves_resource hread
      have hmem : oneLine fk.1.vaultIdReference ∈
          (inp.papers.findings.map fun f => oneLine f.vaultIdReference).filter (· ≠ []) :=
        List.mem_filter.mpr ⟨List.mem_map_of_mem (List.of_mem_zip hfk).1, decide_eq_true hvid⟩
      have hfirst : ∃ vid ∈ evidenceIds inp, vid = oneLine fk.1.vaultIdReference :=
        Dict.exists_mem_firstBy hmem
      rcases hfirst with ⟨vid, hmem', hsame⟩
      rw [← hsame]
      exact hmem'

theorem risk_resolve (hread : PartsRead rt lib inp p) {k : DocumentRisk} (h : k ∈ p.risks) :
    ∀ r ∈ k.references, (documentOf rt lib inp p controls).Resolves r := by
  rcases Except.mem_of_mapM_eq_ok hread.risks k h with ⟨ek, hek, hrisk⟩
  have he : ek.1 ∈ inp.report.deficiencyEvaluations := (List.of_mem_zip hek).1
  have hmade := documentRisk_made hrisk
  intro r hr
  rcases List.mem_append.mp hr with hr | hr
  · rcases List.mem_append.mp hr with hr | hr
    · rw [hmade.origins] at hr
      rcases List.mem_flatMap.mp hr with ⟨origin, horigin, hr⟩
      cases hd : deficiencyOf inp ek.1 with
      | none =>
          rw [hd] at horigin
          cases horigin
      | some v =>
          rw [hd] at horigin
          rcases List.mem_cons.mp horigin with rfl | horigin
          · exact resolves_platform r hr
          · refine resolves_reviewer (fun d hdecided => ?_) origin horigin r hr
            apply mem_partyCalls_risk he
            unfold riskParties
            dsimp only
            unfold deficiencyOf at hd
            rw [hd]
            simp [hdecided]
    · rcases hmade.remediations with ⟨recommended, planned, hrecommended, hplanned, hall⟩
      rw [hall, List.flatMap_append] at hr
      rcases List.mem_append.mp hr with hr | hr
      · rcases recommendation_cases hrecommended with rfl | ⟨w, m, hw, hline, rfl, -, horigins⟩
        · cases hr
        · rw [List.flatMap_singleton, horigins] at hr
          rcases List.mem_flatMap.mp hr with ⟨origin, horigin, hr⟩
          refine resolves_reviewer (fun d hdecided => ?_) origin horigin r hr
          rw [← Option.some.inj hdecided]
          apply mem_partyCalls_risk he
          unfold riskParties
          dsimp only
          unfold deficiencyOf at hw
          rw [hw]
          simp [hline]
      · rcases actionPlan_cases hplanned with rfl | ⟨m, rfl, -, horigins⟩
        · cases hr
        · rw [List.flatMap_singleton, horigins] at hr
          cases hr
  · rw [hmade.relatedObservations] at hr
    rcases List.mem_map.mp hr with ⟨u, hu, rfl⟩
    rcases List.mem_flatMap.mp (mem_fromKeys hu) with ⟨c, -, hu⟩
    rcases mem_obsOfControl hu with ⟨key, hkey, rfl⟩
    exact resolves_observation hread hkey

theorem finding_resolve (hread : PartsRead rt lib inp p) {g : Finding} (h : g ∈ p.findings) :
    ∀ r ∈ g.references, (documentOf rt lib inp p controls).Resolves r := by
  rcases hread.findingsMade with ⟨found, hmade, hp⟩
  rw [hp] at h
  have hsome : some g ∈ found := List.reduceOption_mem_iff.mp h
  rcases Except.mem_of_mapM_eq_ok (Except.mapM_eq_ok_iff.mpr hmade) _ hsome with ⟨fk, hfk, hof⟩
  rcases findingOf_some hof with ⟨a, review, ha, rfl⟩
  intro r hr
  rcases List.mem_append.mp hr with hr | hr
  · rw [List.mem_singleton.mp hr]
    have hkey : a.key ∈ findingKeys inp := by
      rw [assessedFinding_key ha]
      exact (List.of_mem_zip hfk).2
    exact resolves_observation hread hkey
  · rcases List.mem_map.mp hr with ⟨u, hu, rfl⟩
    rcases List.mem_flatMap.mp (mem_fromKeys hu) with ⟨ek, hek, hu⟩
    rcases List.mem_map.mp hu with ⟨c, -, rfl⟩
    exact resolves_risk hread hek

/-! ## The document -/

theorem references_resolve (hread : PartsRead rt lib inp p) :
    ∀ r ∈ (documentOf rt lib inp p controls).references,
      (documentOf rt lib inp p controls).Resolves r := by
  intro r hr
  rcases List.mem_append.mp hr with hr | hr
  · rcases List.mem_flatMap.mp hr with ⟨rp, hrp, hr⟩
    exact responsible_resolve hrp r hr
  · rcases List.mem_cons.mp hr with rfl | hr
    · exact resolves_plan
    · rcases List.mem_flatMap.mp hr with ⟨result, hresult, hr⟩
      rw [List.mem_singleton.mp hresult] at hr
      simp only [AssessmentResult.references, List.mem_append] at hr
      rcases hr with (((hr | hr) | hr) | hr) | hr
      · rcases List.mem_flatMap.mp hr with ⟨a, ha, hr⟩
        rcases List.mem_flatMap.mp hr with ⟨rp, hrp, hr⟩
        exact attestation_resolve hread ha rp hrp r hr
      · rcases List.mem_flatMap.mp hr with ⟨l, hl, hr⟩
        rcases List.mem_map.mp hr with ⟨u, hu, rfl⟩
        exact log_resolve hl u hu
      · rcases List.mem_flatMap.mp hr with ⟨o, ho, hr⟩
        exact observation_resolve hread ho r hr
      · rcases List.mem_flatMap.mp hr with ⟨k, hk, hr⟩
        exact risk_resolve hread hk r hr
      · rcases List.mem_flatMap.mp hr with ⟨g, hg, hr⟩
        exact finding_resolve hread hg r hr

/-- The UUIDs of a document are pairwise distinct and its references resolve. -/
theorem buildAssessmentResults_integrity (rt : Runtime) (lib : OscalLibrary)
    (hinj : Function.Injective lib.uuid5) (inp : Inputs) (d : Document)
    (h : buildAssessmentResults rt lib inp = .ok d) :
    d.uuids.Nodup ∧ ∀ r ∈ d.references, d.Resolves r := by
  rcases build_parts h with ⟨p, controls, hread, rfl⟩
  refine ⟨?_, references_resolve hread⟩
  have hall : ((elements rt lib inp).map (Element.uuid lib inp)).Nodup :=
    (nodup_elements hinj).map (Element.uuid_injective hinj)
  exact (uuids_sublist hread controls).nodup hall

namespace Sample

def wideRacm : RiskControlMatrixSchema :=
  AuditSwarm.Sample.racm [AuditSwarm.Sample.control "C1" (some true),
    AuditSwarm.Sample.control "C2" none]

/-- Two findings of one control and one of another. -/
def widePapers : WorkingPaperSchema :=
  AuditSwarm.Sample.papers [AuditSwarm.Sample.finding "C1" .ineffective .effective,
    AuditSwarm.Sample.finding "C2" .effective .effective,
    AuditSwarm.Sample.finding "C1" .effective .ineffective]

def wideReport : FinalReportSchema :=
  AuditSwarm.Sample.report (some .icfr) [AuditSwarm.Sample.evaluation "D1" .controlDeficiency,
    AuditSwarm.Sample.evaluation "D2" .materialWeakness]

def trailEntry (time human action : String) : Entry :=
  [(lit "timestamp", .str (lit time)), (lit "human", .str (lit human)),
    (lit "action", .str (lit action))]

/-- A completed audit with reviewed deficiencies, evidence and several people. -/
def wideInputs : Inputs :=
  { inputs wideRacm widePapers wideReport with
    preparedBy := lit "Ann"
    trail := [trailEntry "2026-01-01T00:00:00+00:00" "Ann" "audit_created",
      trailEntry "2026-01-02T00:00:00+00:00" "Bob" "gate_approval",
      trailEntry "2026-01-03T00:00:00+00:00" "Cho" "gate_approval"]
    verifyQuote := some fun _ _ => .ok true
    evidenceLookup := fun _ => .ok (some ⟨none, lit "iam"⟩)
    view := (Decisions.effectiveView (.ascii Runtime.shortDigest)
      ⟨some wideRacm, some widePapers, some wideReport⟩ [] true).toOption }

end Sample

theorem buildAssessmentResults_integrity_wide :
    ∃ d, buildAssessmentResults (.ascii Runtime.shortDigest) sampleLibrary Sample.wideInputs =
        .ok d ∧ d.references.length = 29 ∧
      d.uuids.Nodup ∧ ∀ r ∈ d.references, d.Resolves r := by
  have hbuilt : (buildAssessmentResults (.ascii Runtime.shortDigest) sampleLibrary
      Sample.wideInputs).toOption.map (·.references.length) = some 29 := by decide +kernel
  cases hd : buildAssessmentResults (.ascii Runtime.shortDigest) sampleLibrary
      Sample.wideInputs with
  | error e =>
      rw [hd] at hbuilt
      cases hbuilt
  | ok d =>
      rw [hd] at hbuilt
      exact ⟨d, rfl, Option.some.inj hbuilt,
        buildAssessmentResults_integrity _ _ (fun _ _ h => h) _ d hd⟩

end Oscal

end AuditSwarm
