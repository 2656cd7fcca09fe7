import AuditSwarm.Decisions.Gates
import AuditSwarm.Run.Decisions

/-!
# What the gates cover

The gates judge a control by its first finding and its first RACM entry.  So an approval covers the
findings those two put in scope, and a finding or a control they hide can pass undecided.
-/

namespace AuditSwarm

open Python StrEnum Decisions

namespace AuditFlow

variable {rt : Runtime} {env : Env} {f g : AuditFlow} {d : ReviewDecision} {gate : Phase}
  {humanId source : Str}

/-- An approval that succeeds has passed every check of its gate. -/
theorem approvable_of_ok
    (h : (step rt f ⟨env, .record (.approveGate gate humanId source)⟩).1 = .ok ()) :
    ∃ plan, Approvable rt env f gate humanId plan := by
  have hact : act rt env (.approveGate gate humanId source) f =
      (.ok (), (act rt env (.approveGate gate humanId source) f).2) := Prod.ext h rfl
  rcases act_cases hact with ⟨err, -, hr, -⟩ | ⟨k, c, -, hr, -⟩ | ⟨k, e, hk, -⟩
  · cases hr
  · cases hr
  · exact ⟨k, checkApproval_eq_ok hk⟩

/-- A gate that needs decisions is approved only when its list of missing ones is empty. -/
theorem nothing_missing (hgate : gate ≠ .planning) (hrequired : f.reviewDecisionsRequired = true)
    (h : f.checkReviewDecisions rt gate = .ok ()) :
    ∃ v states active, f.effectiveView rt = .ok v ∧
      ViewParts rt f.decisionContext f.state.reviewDecisions true v states active ∧
        v.missingForGate.getD gate.digits [] = [] := by
  unfold checkReviewDecisions at h
  rw [if_neg (by simp [hgate, hrequired])] at h
  simp only [Except.bind_eq_ok_iff, Except.ensure_eq_ok_iff] at h
  obtain ⟨v, hview, hnil⟩ := h
  have hv := hview
  unfold AuditFlow.effectiveView at hv
  rw [hrequired] at hv
  obtain ⟨states, active, hparts⟩ := effectiveView_eq_ok hv
  exact ⟨v, states, active, hview, hparts, hnil⟩

/-! ## Gate 2 -/

/-- A finding the policy wants reviewed before Gate 2: an exception, or of a control some RACM entry
marks as a key control. -/
def NeedsReview (ctx : Context) (f : AuditFindingSchema) : Prop :=
  f.result = some .exception ∨
    ∃ c ∈ ctx.controls, c.controlId = f.controlId ∧ c.keyControl = some true

/-- Gate 2 coverage: once `begin_phase_3` has succeeded, every finding that needs a review has an
active one, where its control's first finding is an exception or its first RACM entry a key
control. -/
theorem gate2_coverage (rt : Runtime) (f : AuditFlow) (env : Env) (humanId source : Str)
    (hrequired : f.reviewDecisionsRequired = true)
    (hok : (step rt f ⟨env, .record (.approveGate .fieldwork humanId source)⟩).1 = .ok ()) :
    ∀ papers, f.state.workingPapers = some papers → ∀ finding ∈ papers.1.findings,
      NeedsReview f.decisionContext finding →
      Gate2Demands f.decisionContext finding.controlId →
        ∃ d, IsActive rt f.decisionContext f.state.reviewDecisions d ∧
          (d.decisionType = .signOff ∨ d.decisionType = .challenge) ∧
          d.subjectType = .finding ∧ d.subjectId = finding.controlId := by
  intro papers hpapers finding hfinding _ hdemand
  obtain ⟨plan, happrovable⟩ := approvable_of_ok hok
  obtain ⟨v, states, active, -, hparts, hnil⟩ :=
    nothing_missing (by decide) hrequired happrovable.decisions
  have hctx : f.decisionContext.papers = some papers.1 := by
    unfold decisionContext
    rw [hpapers]
    rfl
  have hmem : finding ∈ f.decisionContext.findings := by
    unfold Context.findings
    rw [hctx]
    exact hfinding
  obtain ⟨d, hget⟩ := gate2_reviewed hparts (by rw [hctx]; rfl) hnil hmem hdemand
  obtain ⟨hactive, hslot⟩ := isActive_of_get? hparts.active_eq hget
  obtain ⟨htype, hsubject, hid⟩ := of_slotKey_review hslot
  exact ⟨d, hactive, htype, hsubject, hid⟩

end AuditFlow

namespace Sample

/-- An audit whose exception is signed off, ready for its second gate. -/
def signed : List Call :=
  planned ++
    [⟨smallEnv "u4", .generate .fieldwork⟩,
      ⟨smallEnv "u5", .record (.recordDecision (request "sign_off" "C1" "Cho" []))⟩]

/-- Working papers that find one control effective first, and an exception in it then. -/
def doubledPapers : ValidPapers :=
  ⟨papers [finding "C1" .effective .effective, finding "C1" .ineffective .effective],
    by decide +kernel⟩

def doubledEnv (uuid : String) : Env :=
  env uuid (crew (racm [control "C1" (some false)]) doubledPapers smallReport)

/-- An audit with those working papers, ready for its second gate. -/
def doubled : List Call :=
  [⟨doubledEnv "u1", .record (.recordPreparer (lit "A") true (lit "declared"))⟩,
    ⟨doubledEnv "u2", .generate .planning⟩,
    ⟨doubledEnv "u3", .record (.approveGate .planning (lit "B") (lit "declared"))⟩,
    ⟨doubledEnv "u4", .generate .fieldwork⟩]

end Sample

namespace AuditFlow

/-- A signed-off exception at its gate. -/
theorem gate2_coverage_signed :
    let f := after Sample.rt (.fresh (lit "Access") (lit "A bank") [] none) Sample.signed
    ∀ papers, f.state.workingPapers = some papers → ∀ finding ∈ papers.1.findings,
      NeedsReview f.decisionContext finding →
      Gate2Demands f.decisionContext finding.controlId →
        ∃ d, IsActive Sample.rt f.decisionContext f.state.reviewDecisions d ∧
          (d.decisionType = .signOff ∨ d.decisionType = .challenge) ∧
          d.subjectType = .finding ∧ d.subjectId = finding.controlId := by
  have h : (after Sample.rt (.fresh (lit "Access") (lit "A bank") [] none)
        Sample.signed).reviewDecisionsRequired = true ∧
      (step Sample.rt (after Sample.rt (.fresh (lit "Access") (lit "A bank") [] none)
        Sample.signed) ⟨Sample.smallEnv "u6",
          .record (.approveGate .fieldwork (lit "Bob") (lit "declared"))⟩).1 = .ok () := by
    decide +kernel
  exact gate2_coverage Sample.rt _ (Sample.smallEnv "u6") (lit "Bob") (lit "declared") h.1 h.2

/-- An exception behind a finding without one passes its gate with no review. -/
theorem exception_passes_unreviewed :
    let f := after Sample.rt (.fresh (lit "Access") (lit "A bank") [] none) Sample.doubled
    f.reviewDecisionsRequired = true ∧
      (step Sample.rt f ⟨Sample.doubledEnv "u5",
        .record (.approveGate .fieldwork (lit "B") (lit "declared"))⟩).1 = .ok () ∧
      f.state.workingPapers = some Sample.doubledPapers ∧
      ∃ finding ∈ Sample.doubledPapers.1.findings, NeedsReview f.decisionContext finding ∧
        ¬ ∃ d, IsActive Sample.rt f.decisionContext f.state.reviewDecisions d ∧
          d.subjectId = finding.controlId := by
  intro f
  have h : f.reviewDecisionsRequired = true ∧
      (step Sample.rt f ⟨Sample.doubledEnv "u5",
        .record (.approveGate .fieldwork (lit "B") (lit "declared"))⟩).1 = .ok () ∧
      f.state.workingPapers = some Sample.doubledPapers ∧ f.state.reviewDecisions = [] := by
    decide +kernel
  obtain ⟨hrequired, hok, hpapers, hnone⟩ := h
  refine ⟨hrequired, hok, hpapers, Sample.finding "C1" .ineffective .effective, ?_, ?_, ?_⟩
  · exact List.mem_cons_of_mem _ List.mem_cons_self
  · exact .inl rfl
  · intro hactive
    obtain ⟨d, hd, -⟩ := hactive
    rw [hnone] at hd
    exact absurd hd.1 List.not_mem_nil

/-! ## Gate 3 -/

variable {rt : Runtime} {f : AuditFlow} {d : ReviewDecision}

/-- What the conclusion of an audit covers. -/
structure Concluded (rt : Runtime) (ctx : Context) (decisions : List ReviewDecision)
    (v : EffectiveView) : Prop where
  /-- A key control that its first RACM entry marks and that has a finding is tested, or reported as
  a scope limitation. -/
  keyControls : ∀ c ∈ ctx.controls, c.keyControl = some true → FirstEntryKey ctx c.controlId →
    (∃ f ∈ ctx.findings, f.controlId = c.controlId) →
      (∃ fv ∈ v.findings, fv.controlId = c.controlId ∧
        fv.effective.result ≠ value FindingResult.notTested) ∨
      ∃ d, IsActive rt ctx decisions d ∧ d.decisionType = .scopeLimitation ∧
        d.subjectType = .finding ∧ d.subjectId = c.controlId
  /-- Every deficiency is classified by a reviewer. -/
  deficiencies : ∀ e ∈ ctx.evaluations, ∃ d, IsActive rt ctx decisions d ∧
    d.decisionType = .classify ∧ d.subjectType = .deficiency ∧ d.subjectId = e.deficiencyId
  /-- One engagement conclusion is active. -/
  conclusion : ∃ d, (IsActive rt ctx decisions d ∧ d.decisionType = .engagementConclusion) ∧
    ∀ d', IsActive rt ctx decisions d' ∧ d'.decisionType = .engagementConclusion → d' = d

/-- Every engagement conclusion of a run fills the one slot there is for it. -/
theorem slotKey_conclusion {past : List (Transition AuditFlow Call (Except Exn Unit))}
    (h : DecisionHistory rt past f) (hd : d ∈ f.state.reviewDecisions)
    (htype : d.decisionType = .engagementConclusion) : slotKey d = conclusionSlot := by
  obtain ⟨t, -, hrec⟩ := h.recorded d hd
  have hsubject : d.subjectType = .engagement := by
    rw [hrec.built.subjectType, htype]
    rfl
  unfold slotKey conclusionSlot
  rw [htype, hsubject, hrec.built.engagement hsubject]
  rfl

/-- Coverage of a completed audit: once `finalize_audit` has succeeded, every key control that its
first RACM entry marks and that has a finding is tested or reported as a scope limitation, every
deficiency is classified and one engagement conclusion is active. -/
theorem gate3_coverage (rt : Runtime) (theme businessContext : Str) (frameworks : List Str)
    (sessionId : Option Str) (calls : List Call) (hfresh : FreshIds calls) (env : Env)
    (humanId source : Str) :
    let f := after rt (.fresh theme businessContext frameworks sessionId) calls
    f.reviewDecisionsRequired = true →
    (step rt f ⟨env, .record (.approveGate .reporting humanId source)⟩).1 = .ok () →
      ∃ v, f.effectiveView rt = .ok v ∧
        Concluded rt f.decisionContext f.state.reviewDecisions v := by
  intro f hrequired hok
  have hhistory := (@decisionHistory_run rt) theme businessContext frameworks sessionId hfresh
  obtain ⟨plan, happrovable⟩ := approvable_of_ok hok
  obtain ⟨v, states, active, hview, hparts, hnil⟩ :=
    nothing_missing (by decide) hrequired happrovable.decisions
  refine ⟨v, hview, ?_⟩
  have hreport : f.decisionContext.report.isSome := by
    have hartifact := happrovable.artifact
    unfold AuditState.artifact at hartifact
    obtain ⟨report, hreport, -⟩ := Option.map_eq_some_iff.mp hartifact
    unfold decisionContext
    rw [hreport]
    rfl
  have hclear := gate3Clear_of_nil hparts hreport hnil
  refine ⟨?_, ?_, ?_⟩
  · intro c _ _ hkey hfinding
    obtain ⟨finding, hmem, hid⟩ := hfinding
    obtain ⟨first, hfirst⟩ := exists_first_finding hmem
    rw [hid] at hfirst
    rcases tested_of_clear hparts hclear hfirst hkey with htested | ⟨d, hget⟩
    · exact .inl htested
    · obtain ⟨hactive, hslot⟩ := isActive_of_get? hparts.active_eq hget
      exact .inr ⟨d, hactive, of_slotKey hslot⟩
  · intro e he
    obtain ⟨d, hget⟩ := classified_of_clear hparts hclear he
    obtain ⟨hactive, hslot⟩ := isActive_of_get? hparts.active_eq hget
    exact ⟨d, hactive, of_slotKey hslot⟩
  · obtain ⟨d, hget⟩ := concluded_of_clear hparts hclear
    obtain ⟨hactive, hslot⟩ := isActive_of_get? hparts.active_eq hget
    refine ⟨d, ⟨hactive, (of_slotKey hslot).1⟩, ?_⟩
    intro d' hd'
    obtain ⟨hactive', htype'⟩ := hd'
    obtain ⟨digests, -, hdigests, -⟩ := exists_states hparts.active_eq
    refine hhistory.log.consistent.unique_active hactive'.1 hactive.1
      (IsActive.state hhistory.log.consistent hactive' hdigests)
      (IsActive.state hhistory.log.consistent hactive hdigests) ?_
    rw [slotKey_conclusion hhistory hactive'.1 htype', hslot]

end AuditFlow

namespace Sample

/-- Working papers that find one control effective and leave another untested. -/
def coveredPapers : ValidPapers :=
  ⟨papers [finding "C1" .effective .effective, finding "C2" .notTested .notTested],
    by decide +kernel⟩

def coveredEnv (uuid : String) : Env :=
  env uuid (crew (racm [control "C1" (some true), control "C2" (some true)]) coveredPapers
    smallReport)

/-- An audit of two key controls, one of them limited, ready for its last gate. -/
def covered : List Call :=
  [⟨coveredEnv "u1", .record (.recordPreparer (lit "Ann") true (lit "declared"))⟩,
    ⟨coveredEnv "u2", .generate .planning⟩,
    ⟨coveredEnv "u3", .record (.approveGate .planning (lit "Bob") (lit "declared"))⟩,
    ⟨coveredEnv "u4", .generate .fieldwork⟩,
    ⟨coveredEnv "u5", .record (.recordDecision (request "sign_off" "C1" "Cho" []))⟩,
    ⟨coveredEnv "u6", .record (.recordDecision (request "sign_off" "C2" "Cho" []))⟩,
    ⟨coveredEnv "u7", .record (.approveGate .fieldwork (lit "Bob") (lit "declared"))⟩,
    ⟨coveredEnv "u8", .generate .reporting⟩,
    ⟨coveredEnv "u9", .record (.recordDecision (request "classify" "D1" "Cho"
      [(lit "classification", .str (lit "Control Deficiency"))]))⟩,
    ⟨coveredEnv "u10", .record (.recordDecision (request "scope_limitation" "C2" "Cho" []))⟩,
    ⟨coveredEnv "u11", .record (.recordDecision (request "engagement_conclusion" "engagement" "Cho"
      [(lit "conclusion", .str (lit "Satisfactory"))]))⟩]

end Sample

namespace AuditFlow

/-- What that audit shows at its last gate: two key controls, each with a finding, of which one is
not tested, and a deficiency to classify. -/
def ReadyCovered (f : AuditFlow) : Prop :=
  f.reviewDecisionsRequired = true ∧
    (step Sample.rt f ⟨Sample.coveredEnv "u12",
      .record (.approveGate .reporting (lit "Cho") (lit "declared"))⟩).1 = .ok () ∧
    f.decisionContext.controls =
      [Sample.control "C1" (some true), Sample.control "C2" (some true)] ∧
    f.decisionContext.findings = Sample.coveredPapers.1.findings ∧
    f.decisionContext.evaluations.map (·.deficiencyId) = [lit "D1"]

theorem readyCovered : ReadyCovered
    (after Sample.rt (.fresh (lit "Access") (lit "A bank") [] none) Sample.covered) := by
  unfold ReadyCovered
  decide +kernel

theorem ReadyCovered.firstEntryKey {f : AuditFlow} (h : ReadyCovered f) :
    FirstEntryKey f.decisionContext (lit "C1") ∧ FirstEntryKey f.decisionContext (lit "C2") := by
  obtain ⟨-, -, hcontrols, -⟩ := h
  unfold FirstEntryKey
  rw [hcontrols]
  exact ⟨⟨Sample.control "C1" (some true), rfl, rfl⟩, ⟨Sample.control "C2" (some true), rfl, rfl⟩⟩

/-- A key control tested, one limited and a deficiency classified, at the last gate. -/
theorem gate3_coverage_covered :
    let f := after Sample.rt (.fresh (lit "Access") (lit "A bank") [] none) Sample.covered
    ReadyCovered f ∧
      (FirstEntryKey f.decisionContext (lit "C1") ∧ FirstEntryKey f.decisionContext (lit "C2")) ∧
      ∃ v, f.effectiveView Sample.rt = .ok v ∧
        Concluded Sample.rt f.decisionContext f.state.reviewDecisions v :=
  ⟨readyCovered, readyCovered.firstEntryKey,
    gate3_coverage Sample.rt (lit "Access") (lit "A bank") [] none Sample.covered
      (by decide +kernel) (Sample.coveredEnv "u12") (lit "Cho") (lit "declared") readyCovered.1
      readyCovered.2.1⟩

end AuditFlow

namespace Sample

def cleanReport : ValidReport := ⟨report none [], by decide +kernel⟩

/-- A crew that forgets the second control, the key one. -/
def unfoundEnv (uuid : String) : Env :=
  env uuid (crew (racm [control "C1" (some false), control "C2" (some true)]) effectivePapers
    cleanReport)

/-- An audit with that crew, ready for its last gate. -/
def unfound : List Call :=
  [⟨unfoundEnv "u1", .record (.recordPreparer (lit "A") true (lit "declared"))⟩,
    ⟨unfoundEnv "u2", .generate .planning⟩,
    ⟨unfoundEnv "u3", .record (.approveGate .planning (lit "B") (lit "declared"))⟩,
    ⟨unfoundEnv "u4", .generate .fieldwork⟩,
    ⟨unfoundEnv "u5", .record (.approveGate .fieldwork (lit "B") (lit "declared"))⟩,
    ⟨unfoundEnv "u6", .generate .reporting⟩,
    ⟨unfoundEnv "u7", .record (.recordDecision (request "engagement_conclusion" "engagement" "C"
      [(lit "conclusion", .str (lit "Satisfactory"))]))⟩]

end Sample

namespace AuditFlow

def PassesUnfound (f : AuditFlow) : Prop :=
  f.reviewDecisionsRequired = true ∧
    (step Sample.rt f ⟨Sample.unfoundEnv "u8",
      .record (.approveGate .reporting (lit "C") (lit "declared"))⟩).1 = .ok () ∧
    Sample.control "C2" (some true) ∈ f.decisionContext.controls ∧
    f.decisionContext.findings.map (·.controlId) = [lit "C1"] ∧
    f.state.reviewDecisions.map (·.decisionType) = [.engagementConclusion]

theorem passesUnfound : PassesUnfound
    (after Sample.rt (.fresh (lit "Access") (lit "A bank") [] none) Sample.unfound) := by
  unfold PassesUnfound
  decide +kernel

theorem PassesUnfound.uncovered {f : AuditFlow} (h : PassesUnfound f) :
    ∃ c ∈ f.decisionContext.controls, c.keyControl = some true ∧
      (∀ finding ∈ f.decisionContext.findings, finding.controlId ≠ c.controlId) ∧
      ¬ ∃ d, IsActive Sample.rt f.decisionContext f.state.reviewDecisions d ∧
        d.decisionType = .scopeLimitation := by
  obtain ⟨-, -, hcontrol, hfindings, htypes⟩ := h
  refine ⟨Sample.control "C2" (some true), hcontrol, rfl, ?_, ?_⟩
  · intro finding hfinding
    have hid : finding.controlId ∈ f.decisionContext.findings.map (·.controlId) :=
      List.mem_map_of_mem hfinding
    rw [hfindings, List.mem_singleton] at hid
    rw [hid]
    decide
  · intro hactive
    obtain ⟨d, hd, htype⟩ := hactive
    have hmem : d.decisionType ∈ f.state.reviewDecisions.map (·.decisionType) :=
      List.mem_map_of_mem hd.1
    rw [htypes, List.mem_singleton, htype] at hmem
    cases hmem

/-- A key control no finding mentions passes the last gate, neither tested nor limited. -/
theorem key_control_passes_unfound :
    let f := after Sample.rt (.fresh (lit "Access") (lit "A bank") [] none) Sample.unfound
    f.reviewDecisionsRequired = true ∧
      (step Sample.rt f ⟨Sample.unfoundEnv "u8",
        .record (.approveGate .reporting (lit "C") (lit "declared"))⟩).1 = .ok () ∧
      ∃ c ∈ f.decisionContext.controls, c.keyControl = some true ∧
        (∀ finding ∈ f.decisionContext.findings, finding.controlId ≠ c.controlId) ∧
        ¬ ∃ d, IsActive Sample.rt f.decisionContext f.state.reviewDecisions d ∧
          d.decisionType = .scopeLimitation :=
  ⟨passesUnfound.1, passesUnfound.2.1, passesUnfound.uncovered⟩

end AuditFlow

end AuditSwarm
