import AuditSwarm.Lib.Since
import AuditSwarm.Oscal.Props
import AuditSwarm.Properties.SarIndependence

/-!
# Which regressions a comparison shows

The comparison of two documents reads one state for each target id and one status for each risk
name, the last of the document.  What it reports is therefore decided by the last tested finding
whose control has a token and by the last evaluation of each deficiency.
-/

namespace AuditSwarm

open Python
open StrEnum (value)

namespace Oscal

/-! ## The last pair under a key -/

def lastOf (pairs : List (Str × Str)) (k : Str) : Option Str :=
  (pairs.reverse.find? fun kv => kv.1 = k).map Prod.snd

theorem lastOf_concat (pairs : List (Str × Str)) (kv : Str × Str) (k : Str) :
    lastOf (pairs ++ [kv]) k = if kv.1 = k then some kv.2 else lastOf pairs k := by
  unfold lastOf
  rw [List.reverse_append, List.reverse_singleton, List.singleton_append, List.find?_cons]
  by_cases h : kv.1 = k
  · simp only [h, decide_true, if_true]
    rfl
  · simp only [h, decide_false, if_false]

theorem get?_overwriting (pairs : List (Str × Str)) (k : Str) :
    Dict.get? (overwriting pairs) k = lastOf pairs k := by
  induction pairs using List.reverseRecOn with
  | nil => rfl
  | append_singleton pairs kv ih =>
      have hstep : overwriting (pairs ++ [kv]) = (overwriting pairs).set kv.1 kv.2 := by
        unfold overwriting
        rw [List.foldl_append, List.foldl_cons, List.foldl_nil]
      rw [hstep, Dict.get?_set, ih, lastOf_concat]

theorem nodup_overwriting (pairs : List (Str × Str)) :
    ((overwriting pairs).map Prod.fst).Nodup := by
  induction pairs using List.reverseRecOn with
  | nil => exact List.nodup_nil
  | append_singleton pairs kv ih =>
      have hstep : overwriting (pairs ++ [kv]) = (overwriting pairs).set kv.1 kv.2 := by
        unfold overwriting
        rw [List.foldl_append, List.foldl_cons, List.foldl_nil]
      rw [hstep]
      exact Dict.nodup_keys_set ih kv.1 kv.2

theorem mem_overwriting_iff {pairs : List (Str × Str)} {k v : Str} :
    (k, v) ∈ overwriting pairs ↔ lastOf pairs k = some v := by
  rw [Dict.mem_iff_get? (nodup_overwriting pairs), get?_overwriting]

theorem lastOf_eq_some_iff {pairs : List (Str × Str)} {k v : Str} :
    lastOf pairs k = some v ↔ Since (fun _ kv => kv = (k, v)) (fun kv => kv.1 = k) pairs := by
  induction pairs using List.reverseRecOn with
  | nil => exact iff_of_false (fun h => by cases h) not_since_nil
  | append_singleton pairs kv ih =>
      rw [lastOf_concat, since_concat_iff]
      by_cases h : kv.1 = k
      · rw [if_pos h, Option.some.injEq]
        constructor
        · intro hv
          exact .inl (Prod.ext h hv)
        · intro hkv
          rcases hkv with hkv | ⟨-, hne⟩
          · exact congrArg Prod.snd hkv
          · exact absurd h hne
      · rw [if_neg h, ih, and_iff_left h]
        refine (or_iff_right ?_).symm
        intro hkv
        exact h (congrArg Prod.fst hkv)

/-! ## Findings of the inputs -/

variable {rt : Runtime} {lib : OscalLibrary} {inp : Inputs}

/-- The token and the state a finding of the working papers is exported with, if it was tested. -/
def findingState (view : Option Decisions.EffectiveView) (fk : AuditFindingSchema × Str) :
    Option (Str × Str) :=
  (assessedFinding view fk.1 fk.2).map fun a => (token a.controlId, a.status.state)

/-- The tokens and states of the tested findings of the inputs, in order. -/
def findingStates (inp : Inputs) : List (Str × Str) :=
  (keyedFindings inp).filterMap (findingState inp.view)

theorem findingOf_state {f : AuditFindingSchema} {key : Str} {o : Option Finding}
    (h : findingOf rt lib inp f key = .ok o) :
    o.map (fun g => (g.target.targetId, g.target.status.state)) = findingState inp.view (f, key) := by
  unfold findingOf at h
  unfold findingState
  dsimp only
  cases ha : assessedFinding inp.view f key with
  | none =>
      rw [ha] at h
      rw [← Except.ok.inj h]
      rfl
  | some a =>
      rw [ha] at h
      rcases Except.map_eq_ok_iff.mp h with ⟨review, -, ho⟩
      rw [← ho]
      rfl

theorem findings_states {p : Parts} (h : PartsRead rt lib inp p) :
    p.findings.map (fun g => (g.target.targetId, g.target.status.state)) = findingStates inp := by
  rcases h.findingsMade with ⟨found, hfound, hp⟩
  rw [hp]
  unfold findingStates
  clear hp h
  generalize keyedFindings inp = fks at hfound ⊢
  induction hfound with
  | nil => rfl
  | @cons fk o fks os hfk _ ih =>
      have hstate := findingOf_state hfk
      cases o with
      | none =>
          rw [List.reduceOption_cons_of_none, List.filterMap_cons_none hstate.symm, ih]
      | some g =>
          rw [List.reduceOption_cons_of_some, List.map_cons,
            List.filterMap_cons_some hstate.symm, ih]

theorem token_ne_nil (s : Str) : token s ≠ [] := by
  unfold token
  split
  · decide
  · split
    · exact List.cons_ne_nil _ _
    · exact List.cons_ne_nil _ _

theorem findingState_ne_nil {fk : AuditFindingSchema × Str} {kv : Str × Str}
    {view : Option Decisions.EffectiveView} (h : findingState view fk = some kv) :
    kv.1 ≠ [] ∧ kv.2 ≠ [] := by
  unfold findingState at h
  rcases Option.map_eq_some_iff.mp h with ⟨a, ha, hkv⟩
  rw [← hkv]
  refine ⟨token_ne_nil _, ?_⟩
  unfold assessedFinding at ha
  dsimp only at ha
  split at ha
  · cases ha
  · rw [← Option.some.inj ha]
    unfold targetStatus
    dsimp only
    split
    · decide
    · decide

theorem findingsMap_built {d : Document} (h : buildAssessmentResults rt lib inp = .ok d) :
    findingsMap d = overwriting (findingStates inp) := by
  rcases build_parts h with ⟨p, controls, hp, rfl⟩
  have hall : (findingStates inp).filter (fun kv => kv.1 ≠ [] ∧ kv.2 ≠ []) = findingStates inp := by
    apply List.filter_eq_self.mpr
    intro kv hkv
    rcases List.mem_filterMap.mp hkv with ⟨fk, -, hfk⟩
    exact decide_eq_true (findingState_ne_nil hfk)
  show overwriting ((p.findings.map fun f => (f.target.targetId, f.target.status.state)).filter _) = _
  rw [findings_states hp, hall]

/-! ## Risks of the inputs -/

/-- The name of the risk of an evaluation: its id, else the title of the risk. -/
def evaluationName (inp : Inputs) (e : DeficiencyEvaluationSchema) : Str :=
  if oneLine e.deficiencyId = [] then inp.markup (lineOr e.title e.deficiencyId)
  else oneLine e.deficiencyId

def evaluationStatus (inp : Inputs) (e : DeficiencyEvaluationSchema) : Str :=
  riskStatus ((deficiencyOf inp e).bind (·.remediationVerification))

/-- The names and the statuses of the risks of the inputs, in order. -/
def riskStates (inp : Inputs) : List (Str × Str) :=
  (inp.report.deficiencyEvaluations.map fun e => (evaluationName inp e, evaluationStatus inp e)).filter
    fun kv => kv.1 ≠ []

/-- The name and the status the comparison reads of a risk. -/
theorem risk_state {modified : Timestamp} {e : DeficiencyEvaluationSchema} {key : Str}
    {r : DocumentRisk} (h : documentRisk rt lib inp modified e key = .ok r) :
    (riskName r, r.status) = (evaluationName inp e, evaluationStatus inp e) := by
  have hmade := documentRisk_made h
  have hid : propValue r.props (lit "deficiency-id") = shownValue e.deficiencyId := by
    rw [propValue_risk (by decide) h, propValue_deficiencyId]
  have hname : riskName r = evaluationName inp e := by
    unfold riskName evaluationName
    rw [hid, hmade.title]
    unfold shownValue
    by_cases hempty : oneLine e.deficiencyId = []
    · rw [if_pos hempty, if_pos hempty]
    · rw [if_neg hempty, if_neg hempty]
      exact if_neg hempty
  have hstatus : r.status = evaluationStatus inp e := hmade.status
  rw [hname, hstatus]

theorem risks_states {p : Parts} (h : PartsRead rt lib inp p) :
    p.risks.map (fun k => (riskName k, k.status)) =
      inp.report.deficiencyEvaluations.map fun e =>
        (evaluationName inp e, evaluationStatus inp e) := by
  have hmade := h.risksOf
  generalize inp.report.deficiencyEvaluations = es, p.risks = rs at hmade ⊢
  induction hmade with
  | nil => rfl
  | cons he _ ih =>
      rcases he with ⟨key, hrisk⟩
      rw [List.map_cons, List.map_cons, risk_state hrisk, ih]

theorem risksMap_built {d : Document} (h : buildAssessmentResults rt lib inp = .ok d) :
    risksMap d = overwriting (riskStates inp) := by
  rcases build_parts h with ⟨p, controls, hp, rfl⟩
  show overwriting ((p.risks.map fun k => (riskName k, k.status)).filter _) = _
  rw [risks_states hp]
  rfl

/-! ## What the inputs say -/

/-- The result of record of a finding: that of the reviewed view of its control, else its own. -/
def resultOfRecord (inp : Inputs) (f : AuditFindingSchema) : Str :=
  match inp.view.bind (·.finding f.controlId) with
  | some fv => fv.effective.result
  | none => Decisions.optionText f.result

/-- The finding was tested, and the id of its control has the token. -/
def TestedUnder (inp : Inputs) (k : Str) (f : AuditFindingSchema) : Prop :=
  token f.controlId = k ∧
    ¬ (resultOfRecord inp f = value FindingResult.notTested ∨ resultOfRecord inp f = lit "None" ∨
      resultOfRecord inp f = [])

/-- The last tested finding under a token has such a result of record. -/
def LastTested (inp : Inputs) (k : Str) (P : Str → Prop) : Prop :=
  Since (fun _ f => TestedUnder inp k f ∧ P (resultOfRecord inp f)) (TestedUnder inp k)
    inp.papers.findings

def Remediated (inp : Inputs) (e : DeficiencyEvaluationSchema) : Prop :=
  ∃ r, (deficiencyOf inp e).bind (·.remediationVerification) = some r ∧
    valueLine r.values "status" = lit "remediated"

/-- The last evaluation of a name is of a deficiency that is not remediated. -/
def LastOpen (inp : Inputs) (n : Str) : Prop :=
  Since (fun _ e => evaluationName inp e = n ∧ ¬ Remediated inp e)
    (fun e => evaluationName inp e = n) inp.report.deficiencyEvaluations

/-- The two audits show a regression: the last tested finding under some token had no exception and
has one, or the last evaluation of some name is open that was not. -/
def Shown (base target : Inputs) : Prop :=
  (∃ k, LastTested base k (· = value FindingResult.noException) ∧
    LastTested target k (· ≠ value FindingResult.noException)) ∨
  ∃ n, n ≠ [] ∧ LastOpen target n ∧ ¬ LastOpen base n

theorem result_conclusionsOfRecord (f : AuditFindingSchema) :
    (conclusionsOfRecord inp.view f).result = resultOfRecord inp f := by
  unfold conclusionsOfRecord resultOfRecord
  cases inp.view.bind (·.finding f.controlId) with
  | none => rfl
  | some fv => rfl

theorem findingState_eq_some_iff {f : AuditFindingSchema} {key k v : Str} :
    findingState inp.view (f, key) = some (k, v) ↔ TestedUnder inp k f ∧
      v = if resultOfRecord inp f = value FindingResult.noException then lit "satisfied"
        else lit "not-satisfied" := by
  unfold findingState assessedFinding TestedUnder
  dsimp only
  rw [result_conclusionsOfRecord]
  split
  · rename_i huntested
    refine iff_of_false (fun h => by cases h) ?_
    intro h
    exact h.1.2 huntested
  · rename_i htested
    rw [and_iff_left htested, Option.map_some, Option.some.injEq, Prod.mk.injEq]
    unfold targetStatus
    dsimp only
    rw [result_conclusionsOfRecord]
    exact and_congr_right fun _ => eq_comm

theorem exported_under_iff {f : AuditFindingSchema} {key k : Str} :
    (∃ kv, findingState inp.view (f, key) = some kv ∧ kv.1 = k) ↔ TestedUnder inp k f := by
  constructor
  · intro h
    rcases h with ⟨⟨k', v⟩, hstate, rfl⟩
    exact (findingState_eq_some_iff.mp hstate).1
  · intro h
    exact ⟨_, findingState_eq_some_iff.mpr ⟨h, rfl⟩, rfl⟩

theorem map_fst_keyedFindings : (keyedFindings inp).map Prod.fst = inp.papers.findings := by
  unfold keyedFindings findingKeys occurrenceKeys
  apply List.map_fst_zip
  rw [length_occurrenceKeysFrom]

theorem findingStates_eq : findingStates inp =
    inp.papers.findings.filterMap fun f => findingState inp.view (f, []) := by
  rw [← map_fst_keyedFindings, List.filterMap_map]
  unfold findingStates
  apply List.filterMap_congr
  intro fk _
  unfold findingState assessedFinding
  dsimp only [Function.comp_apply]
  split
  · rfl
  · rfl

/-- The state read under a token is that of the last finding tested under it. -/
theorem lastOf_findingStates {k v : Str} :
    lastOf (findingStates inp) k = some v ↔
      LastTested inp k fun result =>
        v = if result = value FindingResult.noException then lit "satisfied"
          else lit "not-satisfied" := by
  rw [lastOf_eq_some_iff, findingStates_eq, since_filterMap_iff]
  unfold LastTested
  simp only [exists_eq_right, findingState_eq_some_iff, exported_under_iff]

theorem lastOf_satisfied {k : Str} :
    lastOf (findingStates inp) k = some (lit "satisfied") ↔
      LastTested inp k (· = value FindingResult.noException) := by
  rw [lastOf_findingStates]
  have hstate : ∀ result : Str, (lit "satisfied" =
      if result = value FindingResult.noException then lit "satisfied" else lit "not-satisfied") ↔
        result = value FindingResult.noException := by
    intro result
    by_cases h : result = value FindingResult.noException
    · simp only [h, if_true]
    · simp only [h, if_false, iff_false]
      decide
  simp only [hstate]

theorem lastOf_notSatisfied {k : Str} :
    lastOf (findingStates inp) k = some (lit "not-satisfied") ↔
      LastTested inp k (· ≠ value FindingResult.noException) := by
  rw [lastOf_findingStates]
  have hstate : ∀ result : Str, (lit "not-satisfied" =
      if result = value FindingResult.noException then lit "satisfied" else lit "not-satisfied") ↔
        result ≠ value FindingResult.noException := by
    intro result
    by_cases h : result = value FindingResult.noException
    · simp only [h, if_true, ne_eq, not_true_eq_false, iff_false]
      decide
    · simp only [h, if_false, ne_eq, not_false_eq_true]
  simp only [hstate]

theorem evaluationStatus_eq_open_iff {e : DeficiencyEvaluationSchema} :
    evaluationStatus inp e = lit "open" ↔ ¬ Remediated inp e := by
  unfold evaluationStatus riskStatus Remediated
  cases (deficiencyOf inp e).bind (·.remediationVerification) with
  | none => simp
  | some r =>
      by_cases h : valueLine r.values "status" = lit "remediated"
      · simp only [Option.some.injEq, exists_eq_left', h, not_true_eq_false, iff_false]
        decide
      · simp [h]

/-- The status read under a name is that of the last evaluation of that name. -/
theorem lastOf_riskStates {n : Str} :
    lastOf (riskStates inp) n = some (lit "open") ↔ n ≠ [] ∧ LastOpen inp n := by
  unfold riskStates LastOpen
  rw [lastOf_eq_some_iff, ← List.filterMap_eq_filter, List.filterMap_map, since_filterMap_iff]
  have hopen : ∀ e, (∃ kv, Option.guard (fun kv : Str × Str => decide (kv.1 ≠ []))
      (evaluationName inp e, evaluationStatus inp e) = some kv ∧ kv = (n, lit "open")) ↔
        n ≠ [] ∧ evaluationName inp e = n ∧ ¬ Remediated inp e := by
    intro e
    rw [← evaluationStatus_eq_open_iff]
    simp only [exists_eq_right, Option.guard_eq_some_iff, Prod.mk.injEq, decide_eq_true_eq]
    constructor
    · intro h
      rcases h with ⟨⟨rfl, hstatus⟩, hne⟩
      exact ⟨hne, rfl, hstatus⟩
    · intro h
      rcases h with ⟨hne, rfl, hstatus⟩
      exact ⟨⟨rfl, hstatus⟩, hne⟩
  have hnamed : ∀ e, (∃ kv, Option.guard (fun kv : Str × Str => decide (kv.1 ≠ []))
      (evaluationName inp e, evaluationStatus inp e) = some kv ∧ kv.1 = n) ↔
        n ≠ [] ∧ evaluationName inp e = n := by
    intro e
    simp only [Option.guard_eq_some_iff, decide_eq_true_eq]
    constructor
    · intro h
      rcases h with ⟨kv, ⟨rfl, hne⟩, rfl⟩
      exact ⟨hne, rfl⟩
    · intro h
      rcases h with ⟨hne, rfl⟩
      exact ⟨_, ⟨rfl, hne⟩, rfl⟩
  simp only [Function.comp_apply, hopen, hnamed]
  by_cases hn : n = []
  · refine iff_of_false ?_ (fun h => h.1 hn)
    intro h
    rcases h with ⟨past, e, later, -, he, -⟩
    exact he.1 hn
  · simp only [ne_eq, hn, not_false_eq_true, true_and]

/-! ## What a comparison shows -/

theorem keysWhere_eq_nil_iff {m : Dict Str Str} {p : Str → Str → Bool} :
    (keysWhere m p).length = 0 ↔ ∀ kv ∈ m, p kv.1 kv.2 = false := by
  unfold keysWhere
  rw [List.length_insertionSort, List.length_map, List.length_eq_zero_iff, List.filter_eq_nil_iff]
  simp only [Bool.not_eq_true]

/-- A comparison of two audits fails just when they show a regression. -/
theorem passed_eq_false_iff {rt rt' : Runtime} {lib lib' : OscalLibrary} {base target : Inputs}
    {baseline targeted : Document}
    (hbase : buildAssessmentResults rt lib base = .ok baseline)
    (htarget : buildAssessmentResults rt' lib' target = .ok targeted) :
    (evaluateOscalDrift baseline targeted).passed = false ↔ Shown base target := by
  have hpassed : (evaluateOscalDrift baseline targeted).passed = true ↔
      (∀ kv ∈ findingsMap baseline, ¬ (kv.2 = lit "satisfied" ∧
        (findingsMap targeted).get? kv.1 = some (lit "not-satisfied"))) ∧
      ∀ kv ∈ risksMap targeted, ¬ (kv.2 = lit "open" ∧
        (risksMap baseline).get? kv.1 ≠ some (lit "open")) := by
    unfold evaluateOscalDrift
    simp only [Bool.and_eq_true, decide_eq_true_eq, keysWhere_eq_nil_iff, Bool.and_eq_false_iff,
      decide_eq_false_iff_not, not_and_or]
  rw [← Bool.not_eq_true, hpassed, findingsMap_built hbase, findingsMap_built htarget,
    risksMap_built hbase, risksMap_built htarget, not_and_or]
  unfold Shown
  simp only [← lastOf_satisfied, ← lastOf_notSatisfied]
  apply or_congr
  · constructor
    · intro h
      by_contra hnone
      apply h
      rintro ⟨k, s⟩ hmem ⟨hs, ht⟩
      rw [show s = lit "satisfied" from hs, mem_overwriting_iff] at hmem
      rw [get?_overwriting] at ht
      exact hnone ⟨k, hmem, ht⟩
    · rintro ⟨k, hb, ht⟩ h
      exact h (k, _) (mem_overwriting_iff.mpr hb) ⟨rfl, (get?_overwriting _ k).trans ht⟩
  · constructor
    · intro h
      by_contra hnone
      apply h
      rintro ⟨n, s⟩ hmem ⟨hs, hb⟩
      rw [show s = lit "open" from hs, mem_overwriting_iff, lastOf_riskStates] at hmem
      rw [get?_overwriting, ne_eq, lastOf_riskStates] at hb
      exact hnone ⟨n, hmem.1, hmem.2, fun hopen => hb ⟨hmem.1, hopen⟩⟩
    · rintro ⟨n, hne, ht, hb⟩ h
      refine h (n, _) (mem_overwriting_iff.mpr (lastOf_riskStates.mpr ⟨hne, ht⟩)) ⟨rfl, ?_⟩
      rw [get?_overwriting, ne_eq, lastOf_riskStates]
      exact fun hopen => hb hopen.2

/-! ## Regressions -/

/-- Every finding of a control was `No exception` and one is `Exception`. -/
def Regressed (base target : Inputs) (c : Str) : Prop :=
  (∀ f ∈ base.papers.findings, f.controlId = c → f.result = some .noException) ∧
    ∃ f ∈ target.papers.findings, f.controlId = c ∧ f.result = some .exception

/-- A regression of a control is reported just when the two audits show one: under some token the
last tested finding had no exception and has one, or the last evaluation of some name is open that
was not. -/
theorem evaluateOscalDrift_catches_iff (rt rt' : Runtime) (lib lib' : OscalLibrary)
    (base target : Inputs) (baseline targeted : Document)
    (hbase : buildAssessmentResults rt lib base = .ok baseline)
    (htarget : buildAssessmentResults rt' lib' target = .ok targeted) (c : Str) :
    (Regressed base target c → (evaluateOscalDrift baseline targeted).passed = false) ↔
      (Regressed base target c → Shown base target) := by
  rw [passed_eq_false_iff hbase htarget]

/-! ### A repeated control -/

namespace Sample

/-- The audit of one key control with the given findings and no deficiency evaluated. -/
def testedAudit (findings : List AuditFindingSchema) : Inputs :=
  inputs AuditSwarm.Sample.smallRacm (AuditSwarm.Sample.papers findings)
    (AuditSwarm.Sample.report none [])

def baselineAudit : Inputs := testedAudit [AuditSwarm.Sample.finding "C1" .effective .effective]

def regressedAudit : Inputs :=
  testedAudit [AuditSwarm.Sample.finding "C1" .effective .effective,
    AuditSwarm.Sample.finding "C1" .effective .ineffective]

/-- A finding of the control is an exception, a later one is not. -/
def targetAudit : Inputs :=
  testedAudit [AuditSwarm.Sample.finding "C1" .effective .ineffective,
    AuditSwarm.Sample.finding "C1" .effective .effective]

end Sample

/-- What the comparison of two audits says, when both have a document. -/
def comparedPassed (base target : Inputs) : Option Bool :=
  match buildAssessmentResults (.ascii Runtime.shortDigest) sampleLibrary base,
      buildAssessmentResults (.ascii Runtime.shortDigest) sampleLibrary target with
  | .ok baseline, .ok targeted => some (evaluateOscalDrift baseline targeted).passed
  | _, _ => none

theorem exists_documents {base target : Inputs} {b : Bool}
    (h : comparedPassed base target = some b) :
    ∃ baseline targeted,
      buildAssessmentResults (.ascii Runtime.shortDigest) sampleLibrary base = .ok baseline ∧
      buildAssessmentResults (.ascii Runtime.shortDigest) sampleLibrary target = .ok targeted ∧
      (evaluateOscalDrift baseline targeted).passed = b := by
  unfold comparedPassed at h
  split at h
  · rename_i baseline targeted hbase htarget
    exact ⟨baseline, targeted, hbase, htarget, Option.some.inj h⟩
  · cases h

theorem regressed_sample {findings : List AuditFindingSchema}
    (h : AuditSwarm.Sample.finding "C1" .effective .ineffective ∈ findings) :
    Regressed Sample.baselineAudit (Sample.testedAudit findings) (lit "C1") := by
  constructor
  · intro f hf _
    rw [List.mem_singleton.mp hf]
    decide
  · exact ⟨_, h, by decide, by decide⟩

theorem compared_regressed :
    comparedPassed Sample.baselineAudit Sample.regressedAudit = some false := by
  decide +kernel

/-- Under the token of the control the last finding had no exception and has one. -/
theorem shown_regressed : Shown Sample.baselineAudit Sample.regressedAudit := by
  refine .inl ⟨lit "C1", ⟨[], _, [], rfl, ⟨⟨by decide, by decide⟩, by decide⟩, by simp⟩, ?_⟩
  exact ⟨[_], _, [], rfl, ⟨⟨by decide, by decide⟩, by decide⟩, by simp⟩

/-- The regression is reported. -/
theorem evaluateOscalDrift_catches_regressed :
    ∃ baseline targeted,
      buildAssessmentResults (.ascii Runtime.shortDigest) sampleLibrary Sample.baselineAudit =
        .ok baseline ∧
      buildAssessmentResults (.ascii Runtime.shortDigest) sampleLibrary Sample.regressedAudit =
        .ok targeted ∧
      Regressed Sample.baselineAudit Sample.regressedAudit (lit "C1") ∧
      (evaluateOscalDrift baseline targeted).passed = false := by
  rcases exists_documents compared_regressed with ⟨baseline, targeted, hbase, htarget, -⟩
  have hregressed : Regressed Sample.baselineAudit Sample.regressedAudit (lit "C1") :=
    regressed_sample (List.mem_cons_of_mem _ List.mem_cons_self)
  exact ⟨baseline, targeted, hbase, htarget, hregressed,
    (evaluateOscalDrift_catches_iff _ _ _ _ _ _ _ _ hbase htarget (lit "C1")).mpr
      (fun _ => shown_regressed) hregressed⟩

theorem compared_sample :
    comparedPassed Sample.baselineAudit Sample.targetAudit = some true := by
  decide +kernel

/-- A control of the matrix regresses in the working papers and the comparison passes. -/
theorem repeated_finding_hides_regression :
    ∃ baseline targeted,
      buildAssessmentResults (.ascii Runtime.shortDigest) sampleLibrary Sample.baselineAudit =
        .ok baseline ∧
      buildAssessmentResults (.ascii Runtime.shortDigest) sampleLibrary Sample.targetAudit =
        .ok targeted ∧
      (∃ rc ∈ racmControls Sample.targetAudit.racm, rc.2.controlId = lit "C1") ∧
      Regressed Sample.baselineAudit Sample.targetAudit (lit "C1") ∧
      (evaluateOscalDrift baseline targeted).passed = true := by
  rcases exists_documents compared_sample with ⟨baseline, targeted, hbase, htarget, hpassed⟩
  exact ⟨baseline, targeted, hbase, htarget, ⟨_, List.mem_cons_self, rfl⟩,
    regressed_sample List.mem_cons_self, hpassed⟩

end Oscal

end AuditSwarm
