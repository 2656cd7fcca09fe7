import AuditSwarm.Linter.Rules
import AuditSwarm.Model.System

/-!
# The linter and its caller

`lint_phase_artifact` turns a linter that raises into an empty report, which passes.  This module
says over which papers the linter returns, and that the report is then passed only when no rule
finds an error.
-/

namespace AuditSwarm

open Python

namespace Linters

variable {rt : Runtime} {vlib : VaultLibrary} {lib : LintLibrary}

/-! ## The linter -/

/-- A rule finds an error: a violation of severity `error`, whatever becomes of the other rules. -/
def FindsError (rt : Runtime) (vlib : VaultLibrary) (lib : LintLibrary) (ctx : LintContext) :
    Prop :=
  ∃ v : LintViolation, v.severity = lit "error" ∧
    (v ∈ coverageViolations ctx.controls ctx.findings ∨
      ∃ f ∈ ctx.findings, ∃ rule ∈ findingRules rt vlib lib, ∃ found : List LintViolation,
        rule ctx f = .ok found ∧ v ∈ found)

theorem returns_lintWorkingPapers_iff {environ : Environ} {vault : Evidence.Vault}
    {papers : WorkingPaperSchema} (hvalid : papers.Valid) {racm : RiskControlMatrixSchema}
    {sessionId : Option Str} {verify : Bool} :
    (lintWorkingPapers rt vlib lib environ vault papers racm sessionId verify).Returns ↔
      ∀ f ∈ papers.findings, FindingLintable rt vlib lib
        (lintContext environ vault papers racm sessionId verify) f := by
  unfold lintWorkingPapers
  rw [Except.returns_bind_of_total fun _ => Except.returns_pure _, Except.returns_mapM_iff]
  refine forall_congr' fun f => imp_congr_right fun hf => ?_
  exact returns_lintFinding_iff (hvalid f hf)

/-- The quotes of the vault only matter where they are verified. -/
theorem FindingLintable.unverified {environ : Environ} {vault : Evidence.Vault}
    {papers : WorkingPaperSchema} {racm : RiskControlMatrixSchema} {sessionId : Option Str}
    {f : AuditFindingSchema}
    (h : FindingLintable rt vlib lib (lintContext environ vault papers racm sessionId true) f) :
    FindingLintable rt vlib lib (lintContext environ vault papers racm sessionId false) f :=
  ⟨h.counts, fun hverify => absurd hverify Bool.false_ne_true, h.period, h.lengths⟩

theorem mem_violations_of_rule {environ : Environ} {vault : Evidence.Vault}
    {papers : WorkingPaperSchema} {racm : RiskControlMatrixSchema} {sessionId : Option Str}
    {verify : Bool} {report : LintReport}
    (h : lintWorkingPapers rt vlib lib environ vault papers racm sessionId verify = .ok report)
    {f : AuditFindingSchema} (hf : f ∈ papers.findings) {rule : Rule}
    (hrule : rule ∈ findingRules rt vlib lib) {found : List LintViolation}
    (hfound : rule (lintContext environ vault papers racm sessionId verify) f = .ok found) :
    ∀ v ∈ found, v ∈ report.violations := by
  intro v hv
  unfold lintWorkingPapers at h
  obtain ⟨all, hall, h⟩ := Except.bind_eq_ok_iff.mp h
  obtain ⟨ofFinding, hmem, hofFinding⟩ := Except.exists_of_mapM_eq_ok hall f hf
  unfold lintFinding at hofFinding
  obtain ⟨ofRules, hofRules, rfl⟩ := Except.map_eq_ok_iff.mp hofFinding
  obtain ⟨found', hmem', hfound'⟩ := Except.exists_of_mapM_eq_ok hofRules rule hrule
  obtain rfl := Except.ok.inj (hfound.symm.trans hfound')
  rw [← Except.pure_eq_ok_iff.mp h]
  apply List.mem_append_right
  exact List.mem_flatten.mpr ⟨_, hmem, List.mem_flatten.mpr ⟨_, hmem', hv⟩⟩

theorem mem_violations_of_coverage {environ : Environ} {vault : Evidence.Vault}
    {papers : WorkingPaperSchema} {racm : RiskControlMatrixSchema} {sessionId : Option Str}
    {verify : Bool} {report : LintReport}
    (h : lintWorkingPapers rt vlib lib environ vault papers racm sessionId verify = .ok report) :
    ∀ v ∈ coverageViolations (controlsById racm) papers.findings, v ∈ report.violations := by
  intro v hv
  unfold lintWorkingPapers at h
  obtain ⟨all, -, h⟩ := Except.bind_eq_ok_iff.mp h
  rw [← Except.pure_eq_ok_iff.mp h]
  exact List.mem_append_left _ hv

theorem not_findsError_of_passed {environ : Environ} {vault : Evidence.Vault}
    {papers : WorkingPaperSchema} {racm : RiskControlMatrixSchema} {sessionId : Option Str}
    {verify : Bool} {report : LintReport}
    (h : lintWorkingPapers rt vlib lib environ vault papers racm sessionId verify = .ok report)
    (hpassed : report.passed = true) :
    ¬ FindsError rt vlib lib (lintContext environ vault papers racm sessionId verify) := by
  rintro ⟨v, hseverity, hv⟩
  have hmem : v ∈ report.violations := by
    rcases hv with hv | ⟨f, hf, rule, hrule, found, hfound, hv⟩
    · exact mem_violations_of_coverage h v hv
    · exact mem_violations_of_rule h hf hrule hfound v hv
  have hnil : report.errors = [] := by simpa [LintReport.passed] using hpassed
  have herror : v ∈ report.errors := List.mem_filter.mpr ⟨hmem, decide_eq_true hseverity⟩
  rw [hnil] at herror
  cases herror

/-! ## Its caller -/

/-- The linter an environment runs on working papers is the one of this module. -/
def RunsLinter (rt : Runtime) (vlib : VaultLibrary) (lib : LintLibrary) (env : Env)
    (vault : Evidence.Vault) (flow : AuditFlow) : Prop :=
  ∀ racm, flow.state.racmPlan = some racm → ∀ (attempt : Nat) (papers : ValidPapers),
    env.linter .fieldwork attempt (.papers papers) =
      (lintWorkingPapers rt vlib lib env.environ vault papers.val racm flow.sessionId
        false).mapError LintError.toRaised

/-- The linter does not raise over the papers, and the report the flow gets passes only if no rule
finds an error in them. -/
structure FailsClosed (rt : Runtime) (vlib : VaultLibrary) (lib : LintLibrary) (env : Env)
    (vault : Evidence.Vault) (flow : AuditFlow) (racm : RiskControlMatrixSchema) (attempt : Nat)
    (papers : ValidPapers) : Prop where
  returns : ∀ verify, (lintWorkingPapers rt vlib lib env.environ vault papers.val racm
    flow.sessionId verify).Returns
  passed : (AuditFlow.lintPhaseArtifact rt env attempt .fieldwork flow (some (.papers papers))).passed =
    true → ¬ FindsError rt vlib lib
      (lintContext env.environ vault papers.val racm flow.sessionId false)

/-- The linter fails closed exactly over papers all of whose findings are lintable. -/
theorem lintWorkingPapers_failsClosed_iff (rt : Runtime) (vlib : VaultLibrary)
    (lib : LintLibrary) (env : Env) (vault : Evidence.Vault) (flow : AuditFlow)
    (hlinter : RunsLinter rt vlib lib env vault flow) (racm : RiskControlMatrixSchema)
    (hracm : flow.state.racmPlan = some racm) (attempt : Nat) (papers : ValidPapers) :
    FailsClosed rt vlib lib env vault flow racm attempt papers ↔
      ∀ f ∈ papers.val.findings, FindingLintable rt vlib lib
        (lintContext env.environ vault papers.val racm flow.sessionId true) f := by
  constructor
  · intro h
    exact (returns_lintWorkingPapers_iff papers.property).mp (h.returns true)
  · intro h
    have hreturns : ∀ verify, (lintWorkingPapers rt vlib lib env.environ vault papers.val racm
        flow.sessionId verify).Returns := by
      intro verify
      rw [returns_lintWorkingPapers_iff papers.property]
      cases verify with
      | true => exact h
      | false => exact fun f hf => (h f hf).unverified
    refine ⟨hreturns, fun hpassed => ?_⟩
    obtain ⟨report, hreport⟩ := hreturns false
    have hreports : AuditFlow.lintPhaseArtifact rt env attempt .fieldwork flow
        (some (.papers papers)) =
        report := by
      unfold AuditFlow.lintPhaseArtifact
      rw [hracm, Option.some_or]
      dsimp only
      rw [Option.isSome_some, if_pos rfl, hlinter racm hracm, hreport]
      rfl
    rw [hreports] at hpassed
    exact not_findsError_of_passed hreport hpassed

namespace Sample

/-- A library for ASCII text, in which no text is a time. -/
def lintLibrary : LintLibrary where
  toCharClasses := .ascii
  parseDatetime _ := none
  percent _ _ := []

/-- An environment that lints working papers against an empty vault. -/
def lintEnv (racm : RiskControlMatrixSchema) : Env :=
  { AuditSwarm.Sample.smallEnv "u1" with
    linter := fun _ _ model =>
      match model with
      | .papers papers =>
          (lintWorkingPapers AuditSwarm.Sample.rt Evidence.sampleLibrary lintLibrary (fun _ => none)
            .empty papers.val racm none false).mapError LintError.toRaised
      | _ => .ok ⟨[]⟩ }

def lintFlow (racm : RiskControlMatrixSchema) : AuditFlow :=
  { AuditSwarm.Sample.fresh with
    state := { AuditSwarm.Sample.fresh.state with racmPlan := some racm } }

def yearZero : RiskControlMatrixSchema :=
  AuditSwarm.Sample.racm [{ AuditSwarm.Sample.control "C1" none with
    testingProcedures := ⟨[], [], none, none, none, none, some (lit "FY 0000")⟩ }]

def slopPapers : ValidPapers :=
  ⟨AuditSwarm.Sample.papers [{ AuditSwarm.Sample.finding "C1" .effective .notTested with
    testConclusion := lit "A robust framework." }], by decide +kernel⟩

end Sample

namespace Sample

def testedId : Str := lit "0a1b2c3d-4e5f-4a6b-8c7d-9e8f7a6b5c4d"

def testedPayload : Str := lit "MinimumPasswordLength: 14"

def testedRecord : Dict Str Json :=
  [(lit "raw_payload", .str testedPayload), (lit "encrypted", .bool false),
    (lit "sha256", .str (hexdigest
      (Runtime.shortDigest (.plain ((encodeUtf8 testedPayload).getD []))))),
    (lit "timestamp", .str (lit "2026-05-01T00:00:00Z")), (lit "mcp_source", .str (lit "iam"))]

def testedVault : Evidence.Vault :=
  Evidence.Vault.empty.put (testedId ++ lit ".json")
    (Evidence.written (fun _ => []) true (.obj testedRecord))

/-- A library that reads every time as the one of the record. -/
def datedLibrary : LintLibrary :=
  { lintLibrary with parseDatetime := fun _ => some ⟨739736 * microsPerDay, some 0⟩ }

/-- A control with a period, and a step that requires a length. -/
def testedRacm : RiskControlMatrixSchema :=
  AuditSwarm.Sample.racm [{ AuditSwarm.Sample.control "C1" (some true) with
    testingProcedures := ⟨[⟨lit "Read the policy.", lit "A minimum length of 12"⟩], [], none, none,
      none, none, some (lit "2026-01-01 to 2026-12-31")⟩ }]

/-- Papers with a control that was tested on 25 items. -/
def testedPapers : ValidPapers :=
  ⟨AuditSwarm.Sample.papers [{ AuditSwarm.Sample.finding "C1" .effective .effective with
    vaultIdReference := testedId
    exactQuoteFromEvidence := testedPayload
    toeBasis := some (lit "25 accounts")
    itemsTested := some 25
    exceptionsNoted := some 0 }], by decide +kernel⟩

/-- An environment that lints working papers against that vault. -/
def testedEnv : Env :=
  { AuditSwarm.Sample.smallEnv "u1" with
    linter := fun _ _ model =>
      match model with
      | .papers papers =>
          (lintWorkingPapers AuditSwarm.Sample.rt Evidence.sampleLibrary datedLibrary (fun _ => none)
            testedVault papers.val testedRacm none false).mapError LintError.toRaised
      | _ => .ok ⟨[]⟩ }

end Sample

theorem lintWorkingPapers_failsClosed_tested :
    FailsClosed AuditSwarm.Sample.rt Evidence.sampleLibrary Sample.datedLibrary Sample.testedEnv
      Sample.testedVault (Sample.lintFlow Sample.testedRacm) Sample.testedRacm 0
      Sample.testedPapers ∧
    (AuditFlow.lintPhaseArtifact AuditSwarm.Sample.rt Sample.testedEnv 0 .fieldwork
      (Sample.lintFlow Sample.testedRacm) (some (.papers Sample.testedPapers))).passed = true := by
  have hlinter : RunsLinter AuditSwarm.Sample.rt Evidence.sampleLibrary Sample.datedLibrary
      Sample.testedEnv Sample.testedVault (Sample.lintFlow Sample.testedRacm) := by
    intro racm hracm _ _
    rw [← Option.some.inj hracm]
    rfl
  have hruns : (lintWorkingPapers AuditSwarm.Sample.rt Evidence.sampleLibrary Sample.datedLibrary
      (fun _ => none) Sample.testedVault Sample.testedPapers.val Sample.testedRacm none true).toBool =
        true := by decide +kernel
  refine ⟨?_, by decide +kernel⟩
  apply (lintWorkingPapers_failsClosed_iff AuditSwarm.Sample.rt Evidence.sampleLibrary
    Sample.datedLibrary Sample.testedEnv Sample.testedVault (Sample.lintFlow Sample.testedRacm)
    hlinter Sample.testedRacm rfl 0 Sample.testedPapers).mpr
  apply (returns_lintWorkingPapers_iff Sample.testedPapers.property).mp
  cases hreport : lintWorkingPapers AuditSwarm.Sample.rt Evidence.sampleLibrary
      Sample.datedLibrary (fun _ => none) Sample.testedVault Sample.testedPapers.val
      Sample.testedRacm none true with
  | error e =>
      rw [hreport] at hruns
      cases hruns
  | ok report =>
      change (lintWorkingPapers AuditSwarm.Sample.rt Evidence.sampleLibrary Sample.datedLibrary
        (fun _ => none) Sample.testedVault Sample.testedPapers.val Sample.testedRacm none
        true).Returns
      rw [hreport]
      exact Except.returns_ok report

/-- A fiscal year 0 makes the linter raise, and the report passes papers with an error. -/
theorem lintWorkingPapers_failsOpen_yearZero :
    RunsLinter AuditSwarm.Sample.rt Evidence.sampleLibrary Sample.lintLibrary
      (Sample.lintEnv Sample.yearZero) .empty (Sample.lintFlow Sample.yearZero) ∧
    (AuditFlow.lintPhaseArtifact AuditSwarm.Sample.rt (Sample.lintEnv Sample.yearZero) 0 .fieldwork
      (Sample.lintFlow Sample.yearZero) (some (.papers Sample.slopPapers))).passed = true ∧
    FindsError AuditSwarm.Sample.rt Evidence.sampleLibrary Sample.lintLibrary
      (lintContext (fun _ => none) .empty Sample.slopPapers.val Sample.yearZero none false) ∧
    ¬ FailsClosed AuditSwarm.Sample.rt Evidence.sampleLibrary Sample.lintLibrary
      (Sample.lintEnv Sample.yearZero) .empty (Sample.lintFlow Sample.yearZero) Sample.yearZero 0
      Sample.slopPapers := by
  have hraise : lintWorkingPapers AuditSwarm.Sample.rt Evidence.sampleLibrary Sample.lintLibrary
      (fun _ => none) .empty Sample.slopPapers.val Sample.yearZero none false =
        .error .valueError := by decide +kernel
  refine ⟨?_, ?_, ?_, fun h => ?_⟩
  · intro racm hracm _ _
    rw [← Option.some.inj hracm]
    rfl
  · have hlinter : (Sample.lintEnv Sample.yearZero).linter .fieldwork 0
        (.papers Sample.slopPapers) = .error (LintError.toRaised .valueError) := by
      change (lintWorkingPapers AuditSwarm.Sample.rt Evidence.sampleLibrary Sample.lintLibrary
        (fun _ => none) .empty Sample.slopPapers.val Sample.yearZero none false).mapError _ = _
      rw [hraise]
      rfl
    unfold AuditFlow.lintPhaseArtifact
    dsimp only [Option.some_or]
    rw [hlinter]
    rfl
  · have hslop : slopRule AuditSwarm.Sample.rt Sample.lintLibrary
        (lintContext (fun _ => none) .empty Sample.slopPapers.val Sample.yearZero none false)
        { AuditSwarm.Sample.finding "C1" .effective .notTested with
          testConclusion := lit "A robust framework." } =
        .ok [violation "D14" (lit "C1") (lit ("Forbidden AI-slop phrase 'robust framework' " ++
          "detected in C1. Use concise, factual audit prose."))] := by decide +kernel
    exact ⟨_, rfl, .inr ⟨_, List.mem_cons_self, slopRule AuditSwarm.Sample.rt Sample.lintLibrary,
      by simp [findingRules], _, hslop, List.mem_cons_self⟩⟩
  · obtain ⟨report, hreport⟩ := h.returns false
    exact absurd (hraise.symm.trans hreport) (by simp)

end Linters

end AuditSwarm
