import AuditSwarm.Linter.RuleIds
import AuditSwarm.Properties.LinterFailsClosed

/-!
# One finding for each control

Rule D1 of the linter compares the control IDs of the matrix and of the papers by membership; it
does not count how often an ID occurs in the papers.
-/

namespace AuditSwarm

open Python

namespace Linters

variable {rt : Runtime} {vlib : VaultLibrary} {lib : LintLibrary}

def controlsOf (racm : RiskControlMatrixSchema) : List Control := racm.risks.flatMap (·.controls)

/-- Every control of the matrix has exactly one finding, and every finding is about a control of
the matrix. -/
structure OneToOne (racm : RiskControlMatrixSchema) (papers : WorkingPaperSchema) : Prop where
  one : ∀ c ∈ controlsOf racm, (papers.findings.map (·.controlId)).count c.controlId = 1
  known : ∀ f ∈ papers.findings, ∃ c ∈ controlsOf racm, c.controlId = f.controlId

/-- Every control has a finding, and every finding a control. -/
structure Covers (racm : RiskControlMatrixSchema) (papers : WorkingPaperSchema) : Prop where
  found : ∀ c ∈ controlsOf racm, ∃ f ∈ papers.findings, f.controlId = c.controlId
  known : ∀ f ∈ papers.findings, ∃ c ∈ controlsOf racm, c.controlId = f.controlId

theorem contains_controlsById {racm : RiskControlMatrixSchema} {id : Str} :
    (controlsById racm).contains id = true ↔ ∃ c ∈ controlsOf racm, c.controlId = id := by
  have hfold : ∀ (cs : List Control) (d : Dict Str Control),
      (cs.foldl (fun d c => d.set c.controlId c) d).contains id = true ↔
        d.contains id = true ∨ ∃ c ∈ cs, c.controlId = id := by
    intro cs
    induction cs with
    | nil => intro d; simp
    | cons c cs ih =>
        intro d
        rw [List.foldl_cons, ih]
        unfold Dict.contains
        rw [Dict.get?_set, List.exists_mem_cons_iff]
        by_cases hc : c.controlId = id
        · simp [hc]
        · simp [hc]
  unfold controlsById
  rw [hfold]
  simp [Dict.contains, controlsOf]

theorem mem_keys_controlsById {racm : RiskControlMatrixSchema} {id : Str} :
    id ∈ (controlsById racm).map Prod.fst ↔ ∃ c ∈ controlsOf racm, c.controlId = id := by
  rw [← contains_controlsById, Dict.contains]
  have hmem : ∀ d : Dict Str Control, id ∈ d.map Prod.fst ↔ (d.get? id).isSome = true := by
    intro d
    induction d with
    | nil => simp
    | cons kv d ih =>
        rw [List.map_cons, List.mem_cons, ih, Dict.get?]
        by_cases hk : kv.1 = id
        · simp [hk]
        · simp [hk, Ne.symm hk]
  exact hmem _

/-- Rule D1 is content when the IDs of the matrix and of the papers are the same. -/
theorem coverageViolations_eq_nil_iff {racm : RiskControlMatrixSchema}
    {papers : WorkingPaperSchema} :
    coverageViolations (controlsById racm) papers.findings = [] ↔ Covers racm papers := by
  have hreport : ∀ (ids : List Str) (message : String),
      (if ids = [] then []
        else [violation "D1" (join (lit ",") ids)
          (lit message ++ join (lit ", ") ids ++ lit ".")]) = [] ↔ ids = [] := by
    intro ids message
    by_cases hids : ids = []
    · rw [if_pos hids]
      exact iff_of_true rfl hids
    · rw [if_neg hids]
      exact iff_of_false (List.cons_ne_nil _ _) hids
  unfold coverageViolations
  dsimp only
  rw [List.append_eq_nil_iff, hreport, hreport]
  constructor
  · intro h
    obtain ⟨hmissing, hextra⟩ := h
    constructor
    · intro c hc
      have hkey := mem_keys_controlsById.mpr ⟨c, hc, rfl⟩
      have hin := List.filter_eq_nil_iff.mp hmissing c.controlId hkey
      have hid : c.controlId ∈ papers.findings.map (·.controlId) := by simpa using hin
      exact List.mem_map.mp hid
    · intro f hf
      have hid : f.controlId ∈ papers.findings.map (·.controlId) := List.mem_map_of_mem hf
      have hin := List.filter_eq_nil_iff.mp hextra f.controlId hid
      exact contains_controlsById.mp (by simpa using hin)
  · intro h
    constructor
    · apply List.filter_eq_nil_iff.mpr
      intro id hid
      obtain ⟨c, hc, rfl⟩ := mem_keys_controlsById.mp hid
      obtain ⟨f, hf, hfc⟩ := h.found c hc
      simpa using ⟨f, hf, hfc⟩
    · apply List.filter_eq_nil_iff.mpr
      intro id hid
      obtain ⟨f, hf, rfl⟩ := List.mem_map.mp hid
      simpa using contains_controlsById.mpr (h.known f hf)

def NoCoverageViolation (report : LintReport) : Prop :=
  ∀ v ∈ report.violations, v.ruleId ≠ lit "D1"

/-- The linter reports no violation of rule D1 exactly when the two sets of IDs are the same. -/
theorem noCoverageViolation_iff {environ : Environ} {vault : Evidence.Vault}
    {papers : WorkingPaperSchema} {racm : RiskControlMatrixSchema} {sessionId : Option Str}
    {verifyVaultQuotes : Bool} {report : LintReport}
    (h : lintWorkingPapers rt vlib lib environ vault papers racm sessionId verifyVaultQuotes =
      .ok report) : NoCoverageViolation report ↔ Covers racm papers := by
  rw [← coverageViolations_eq_nil_iff]
  unfold lintWorkingPapers at h
  obtain ⟨found, hfound, h⟩ := Except.bind_eq_ok_iff.mp h
  rw [← Except.pure_eq_ok_iff.mp h]
  constructor
  · intro hnone
    rw [List.eq_nil_iff_forall_not_mem]
    intro v hv
    obtain ⟨id, hid, hrule⟩ := fromRules_coverage _ _ v hv
    rw [List.mem_singleton.mp hid] at hrule
    exact hnone v (List.mem_append_left _ hv) hrule
  · intro hnil v hv
    rcases List.mem_append.mp hv with hv | hv
    · have hcontrols : (lintContext environ vault papers racm sessionId
          verifyVaultQuotes).controls = controlsById racm := rfl
      rw [hcontrols, hnil] at hv
      cases hv
    · obtain ⟨ofFinding, hofFinding, hv⟩ := List.mem_flatten.mp hv
      obtain ⟨f, -, hlint⟩ := Except.mem_of_mapM_eq_ok hfound ofFinding hofFinding
      unfold lintFinding at hlint
      obtain ⟨ofRules, hofRules, rfl⟩ := Except.map_eq_ok_iff.mp hlint
      obtain ⟨ofRule, hofRule, hv⟩ := List.mem_flatten.mp hv
      obtain ⟨rule, hrule, hruns⟩ := Except.mem_of_mapM_eq_ok hofRules ofRule hofRule
      exact (fromRules_findingRules hrule hruns).ruleId_ne (by decide) v hv

/-- Papers that cover a matrix do so one to one when no ID occurs twice in them. -/
theorem Covers.oneToOne_iff {racm : RiskControlMatrixSchema} {papers : WorkingPaperSchema}
    (h : Covers racm papers) :
    OneToOne racm papers ↔ (papers.findings.map (·.controlId)).Nodup := by
  constructor
  · intro hone
    rw [List.nodup_iff_count_le_one]
    intro id
    by_cases hid : id ∈ papers.findings.map (·.controlId)
    · obtain ⟨f, hf, rfl⟩ := List.mem_map.mp hid
      obtain ⟨c, hc, hcf⟩ := hone.known f hf
      rw [← hcf, hone.one c hc]
    · rw [List.count_eq_zero_of_not_mem hid]
      omega
  · intro hnodup
    refine ⟨?_, h.known⟩
    intro c hc
    obtain ⟨f, hf, hfc⟩ := h.found c hc
    apply List.count_eq_one_of_mem hnodup
    rw [← hfc]
    exact List.mem_map_of_mem hf

/-- A linter without a violation of rule D1 means one finding for each control exactly when no
control occurs twice in the papers, or the rule has something else to report. -/
theorem lintWorkingPapers_oneToOne_iff {environ : Environ} {vault : Evidence.Vault}
    {papers : WorkingPaperSchema} {racm : RiskControlMatrixSchema} {sessionId : Option Str}
    {verifyVaultQuotes : Bool} {report : LintReport}
    (h : lintWorkingPapers rt vlib lib environ vault papers racm sessionId verifyVaultQuotes =
      .ok report) :
    (NoCoverageViolation report → OneToOne racm papers) ↔
      ((papers.findings.map (·.controlId)).Nodup ∨ ¬ Covers racm papers) := by
  rw [noCoverageViolation_iff h]
  by_cases hcovers : Covers racm papers
  · rw [hcovers.oneToOne_iff]
    simp [hcovers]
  · simp [hcovers]

namespace Sample

def severalRacm : RiskControlMatrixSchema :=
  AuditSwarm.Sample.racm [AuditSwarm.Sample.control "C1" (some true),
    AuditSwarm.Sample.control "C2" none, AuditSwarm.Sample.control "C3" (some false)]

/-- One finding for each of these controls, in another order. -/
def severalPapers : WorkingPaperSchema :=
  AuditSwarm.Sample.papers [AuditSwarm.Sample.finding "C3" .effective .effective,
    AuditSwarm.Sample.finding "C1" .notTested .notTested,
    AuditSwarm.Sample.finding "C2" .ineffective .effective]

def twicePapers : WorkingPaperSchema :=
  AuditSwarm.Sample.papers [AuditSwarm.Sample.finding "C1" .notTested .notTested,
    AuditSwarm.Sample.finding "C1" .notTested .notTested]

end Sample

theorem lintWorkingPapers_oneToOne_several :
    ∃ report, lintWorkingPapers AuditSwarm.Sample.rt Evidence.sampleLibrary Sample.lintLibrary
        (fun _ => none) .empty Sample.severalPapers Sample.severalRacm none false = .ok report ∧
      OneToOne Sample.severalRacm Sample.severalPapers := by
  have hruns : (lintWorkingPapers AuditSwarm.Sample.rt Evidence.sampleLibrary Sample.lintLibrary
      (fun _ => none) .empty Sample.severalPapers Sample.severalRacm none false).toBool = true := by
    decide +kernel
  cases hreport : lintWorkingPapers AuditSwarm.Sample.rt Evidence.sampleLibrary Sample.lintLibrary
      (fun _ => none) .empty Sample.severalPapers Sample.severalRacm none false with
  | error e =>
      rw [hreport] at hruns
      cases hruns
  | ok report =>
      have hcovers : Covers Sample.severalRacm Sample.severalPapers := by
        constructor
        · decide +kernel
        · decide +kernel
      exact ⟨report, rfl, (lintWorkingPapers_oneToOne_iff hreport).mpr (.inl (by decide +kernel))
        ((noCoverageViolation_iff hreport).mpr hcovers)⟩

/-- Two findings of one control pass rule D1. -/
theorem lintWorkingPapers_twice :
    ∃ report, lintWorkingPapers AuditSwarm.Sample.rt Evidence.sampleLibrary Sample.lintLibrary
      (fun _ => none) .empty Sample.twicePapers AuditSwarm.Sample.smallRacm none false =
        .ok report ∧ NoCoverageViolation report ∧
      ¬ OneToOne AuditSwarm.Sample.smallRacm Sample.twicePapers := by
  have hruns : lintWorkingPapers AuditSwarm.Sample.rt Evidence.sampleLibrary Sample.lintLibrary
      (fun _ => none) .empty Sample.twicePapers AuditSwarm.Sample.smallRacm none false =
        .ok ⟨[]⟩ := by decide +kernel
  have hnone : NoCoverageViolation ⟨[]⟩ := by
    intro v hv
    cases hv
  refine ⟨_, hruns, hnone, fun h => ?_⟩
  have hcovers : Covers AuditSwarm.Sample.smallRacm Sample.twicePapers := by
    constructor
    · decide +kernel
    · exact h.known
  exact absurd (hcovers.oneToOne_iff.mp h) (by decide +kernel)

end Linters

end AuditSwarm
