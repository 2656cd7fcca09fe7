import AuditSwarm.Linter.Trim
import AuditSwarm.Properties.LinterFailsClosed

/-!
# The linter and the evidence check on quotes

Rule D11 of the linter checks a quote and its vault ID without the white space around them;
`unverified_findings` checks them as they are written, and also where the control was not tested.
-/

namespace AuditSwarm

open Python
open StrEnum (value)

namespace Linters

variable {rt : Runtime} {vlib : VaultLibrary} {lib : LintLibrary} {ctx : LintContext}
  {f : AuditFindingSchema}

/-! ## Quote violations -/

/-- A violation of the rule on quotes; the rule on collection dates shares its ID but warns. -/
structure IsQuoteViolation (v : LintViolation) : Prop where
  ruleId : v.ruleId = lit "D11"
  severity : v.severity = lit "error"

theorem not_isQuoteViolation {v : LintViolation} {ruleId : String} (h : v.ruleId = lit ruleId)
    (hne : ruleId ≠ "D11") : ¬ IsQuoteViolation v := by
  intro hquote
  exact hne (lit_inj.mp (h.symm.trans hquote.ruleId))

theorem not_isQuoteViolation_of_eq {v : LintViolation} {ruleId : String} {subjectId message : Str}
    (h : v = violation ruleId subjectId message) (hne : ruleId ≠ "D11") :
    ¬ IsQuoteViolation v := by
  rw [h]
  exact not_isQuoteViolation rfl hne

/-- Violations among which none is of the rule on quotes. -/
def NoQuoteViolation (found : List LintViolation) : Prop := ∀ v ∈ found, ¬ IsQuoteViolation v

theorem noQuoteViolation_nil : NoQuoteViolation [] := by
  intro v h
  cases h

theorem noQuoteViolation_singleton {ruleId : String} {subjectId message : Str}
    (hne : ruleId ≠ "D11") : NoQuoteViolation [violation ruleId subjectId message] := by
  intro v h
  exact not_isQuoteViolation_of_eq (List.mem_singleton.mp h) hne

theorem noQuoteViolation_append {a b : List LintViolation} (ha : NoQuoteViolation a)
    (hb : NoQuoteViolation b) : NoQuoteViolation (a ++ b) := by
  intro v h
  rcases List.mem_append.mp h with h | h
  · exact ha v h
  · exact hb v h

theorem noQuoteViolation_map {α : Type} {as : List α} {g : α → LintViolation} {ruleId : String}
    (hg : ∀ a, (g a).ruleId = lit ruleId) (hne : ruleId ≠ "D11") :
    NoQuoteViolation (as.map g) := by
  intro v h
  obtain ⟨a, -, rfl⟩ := List.mem_map.mp h
  exact not_isQuoteViolation (hg a) hne

theorem noQuoteViolation_ite {c : Prop} [Decidable c] {ruleId : String} {subjectId message : Str}
    (hne : ruleId ≠ "D11") :
    NoQuoteViolation (if c then [violation ruleId subjectId message] else []) := by
  split
  · exact noQuoteViolation_singleton hne
  · exact noQuoteViolation_nil

theorem noQuoteViolation_arithmeticRule {found : List LintViolation}
    (h : arithmeticRule ctx f = .ok found) : NoQuoteViolation found := by
  unfold arithmeticRule at h
  obtain ⟨counted, hcounted, h⟩ := Except.bind_eq_ok_iff.mp h
  rw [← Except.pure_eq_ok_iff.mp h]
  apply noQuoteViolation_append _ (noQuoteViolation_ite (by decide))
  unfold excessViolations at hcounted
  split at hcounted
  · split at hcounted
    · obtain ⟨_, -, hcounted⟩ := Except.bind_eq_ok_iff.mp hcounted
      obtain ⟨_, -, hcounted⟩ := Except.bind_eq_ok_iff.mp hcounted
      rw [← Except.pure_eq_ok_iff.mp hcounted]
      exact noQuoteViolation_singleton (by decide)
    · cases hcounted
      exact noQuoteViolation_nil
  · cases hcounted
    exact noQuoteViolation_nil

theorem noQuoteViolation_periodRule {found : List LintViolation}
    (h : periodRule rt lib ctx f = .ok found) : NoQuoteViolation found := by
  have hwarning : ∀ message : Str,
      NoQuoteViolation [⟨lit "D11", f.controlId, message, lit "warning"⟩] := by
    intro message v hv hquote
    rw [List.mem_singleton.mp hv] at hquote
    exact absurd (lit_inj.mp hquote.severity) (by decide)
  unfold periodRule at h
  split at h
  · cases h
    exact noQuoteViolation_nil
  · dsimp only at h
    split at h
    · cases h
      exact noQuoteViolation_nil
    · obtain ⟨_, -, h⟩ := Except.bind_eq_ok_iff.mp h
      obtain ⟨_, -, h⟩ := Except.bind_eq_ok_iff.mp h
      split at h
      · obtain ⟨_, -, h⟩ := Except.bind_eq_ok_iff.mp h
        rw [← Except.pure_eq_ok_iff.mp h]
        split
        · exact hwarning _
        · exact noQuoteViolation_nil
      · rw [← Except.pure_eq_ok_iff.mp h]
        exact noQuoteViolation_nil

theorem noQuoteViolation_deviationRule {found : List LintViolation}
    (h : deviationRule lib ctx f = .ok found) : NoQuoteViolation found := by
  unfold deviationRule at h
  dsimp only at h
  split at h
  · obtain ⟨_, -, h⟩ := Except.bind_eq_ok_iff.mp h
    split at h
    · obtain ⟨_, -, h⟩ := Except.bind_eq_ok_iff.mp h
      obtain ⟨_, -, h⟩ := Except.bind_eq_ok_iff.mp h
      rw [← Except.pure_eq_ok_iff.mp h]
      exact noQuoteViolation_singleton (by decide)
    · rw [← Except.pure_eq_ok_iff.mp h]
      exact noQuoteViolation_nil
  · cases h
    exact noQuoteViolation_nil

theorem noQuoteViolation_trapRule {found : List LintViolation}
    (h : trapRule rt lib ctx f = .ok found) : NoQuoteViolation found := by
  have hthreshold : ∀ {control found}, thresholdTrap rt lib f control = .ok found →
      NoQuoteViolation found := by
    intro control found h
    unfold thresholdTrap at h
    split at h
    · split at h
      · obtain ⟨_, -, h⟩ := Except.bind_eq_ok_iff.mp h
        obtain ⟨_, -, h⟩ := Except.bind_eq_ok_iff.mp h
        rw [← Except.pure_eq_ok_iff.mp h]
        exact noQuoteViolation_ite (by decide)
      · cases h
        exact noQuoteViolation_nil
    · cases h
      exact noQuoteViolation_nil
  have hinversion : NoQuoteViolation (inversionTrap lib f) := by
    unfold inversionTrap
    split
    · exact noQuoteViolation_map (fun _ => rfl) (by decide)
    · exact noQuoteViolation_nil
  unfold trapRule at h
  dsimp only at h
  split at h
  · obtain ⟨threshold, hfound, h⟩ := Except.bind_eq_ok_iff.mp h
    rw [← Except.pure_eq_ok_iff.mp h]
    apply noQuoteViolation_append _ (noQuoteViolation_ite (by decide))
    apply noQuoteViolation_append _ (hthreshold hfound)
    apply noQuoteViolation_append _ (noQuoteViolation_ite (by decide))
    exact noQuoteViolation_append hinversion (noQuoteViolation_ite (by decide))
  · cases h
    exact noQuoteViolation_nil

theorem noQuoteViolation_coverage (controls : Dict Str Control)
    (findings : List AuditFindingSchema) :
    NoQuoteViolation (coverageViolations controls findings) := by
  have hreport : ∀ (ids : List Str) (message : String), NoQuoteViolation
      (if ids = [] then []
      else [violation "D1" (join (lit ",") ids) (lit message ++ join (lit ", ") ids ++ lit ".")]) := by
    intro ids message
    split
    · exact noQuoteViolation_nil
    · exact noQuoteViolation_singleton (by decide)
  exact noQuoteViolation_append (hreport _ _) (hreport _ _)

theorem quoteRule_of_quoteViolation {rule : Rule} (hrule : rule ∈ findingRules rt vlib lib)
    {found : List LintViolation} (hfound : rule ctx f = .ok found) {v : LintViolation}
    (hv : v ∈ found) (hquote : IsQuoteViolation v) : quoteRule rt vlib ctx f = .ok found := by
  unfold findingRules at hrule
  simp only [List.mem_cons, List.not_mem_nil, or_false] at hrule
  rcases hrule with rfl | rfl | rfl | rfl | rfl | rfl | rfl | rfl
  · exact absurd hquote (noQuoteViolation_arithmeticRule hfound v hv)
  · cases hfound
    exact absurd hquote (noQuoteViolation_ite (by decide) v hv)
  · exact hfound
  · cases hfound
    exact absurd hquote (noQuoteViolation_ite (by decide) v hv)
  · exact absurd hquote (noQuoteViolation_periodRule hfound v hv)
  · exact absurd hquote (noQuoteViolation_deviationRule hfound v hv)
  · exact absurd hquote (noQuoteViolation_trapRule hfound v hv)
  · cases hfound
    exact absurd hquote (noQuoteViolation_map (fun _ => rfl) (by decide) v hv)

/-! ## The two loops -/

/-- A tested finding whose citation fails without the white space around it. -/
structure TrimRejected (rt : Runtime) (vlib : VaultLibrary) (ctx : LintContext)
    (f : AuditFindingSchema) : Prop where
  tested : f.result ≠ some .notTested
  rejected : trimmedCheck rt vlib ctx f = .ok false

/-- The quote check on a citation as it is written. -/
def rawCheck (rt : Runtime) (vlib : VaultLibrary) (ctx : LintContext)
    (f : AuditFindingSchema) : Except Evidence.VaultError Bool :=
  Evidence.verifyExactQuote rt vlib ctx.environ ctx.vault f.vaultIdReference
    f.exactQuoteFromEvidence ctx.sessionId

/-- A finding with a quote whose citation fails as it is written. -/
structure RawRejected (rt : Runtime) (vlib : VaultLibrary) (ctx : LintContext)
    (f : AuditFindingSchema) : Prop where
  quoted : strip f.exactQuoteFromEvidence ≠ []
  rejected : rawCheck rt vlib ctx f = .ok false

/-- The rule on quotes reports the findings whose trimmed citation fails. -/
theorem quoteRule_reports_iff (hverify : ctx.verifyVaultQuotes = true) (hvalid : f.Valid)
    {found : List LintViolation} (hfound : quoteRule rt vlib ctx f = .ok found) {id : Str} :
    (∃ v ∈ found, IsQuoteViolation v ∧ v.subjectId = id) ↔
      TrimRejected rt vlib ctx f ∧ f.controlId = id := by
  by_cases htested : f.result = some .notTested
  · have hnil : quoteRule rt vlib ctx f = .ok [] := by
      unfold quoteRule
      simp [htested]
    obtain rfl := Except.ok.inj (hnil.symm.trans hfound)
    constructor
    · rintro ⟨v, hv, -⟩
      cases hv
    · exact fun h => absurd htested h.1.tested
  · rw [quoteRule_tested hverify hvalid htested] at hfound
    obtain ⟨verified, hverified, hfound⟩ := Except.bind_eq_ok_iff.mp hfound
    have hcheck : trimmedCheck rt vlib ctx f = .ok verified := by
      cases hx : trimmedCheck rt vlib ctx f with
      | error e =>
          rw [hx] at hverified
          cases hverified
      | ok b =>
          rw [hx] at hverified
          rw [Except.ok.inj hverified]
    rw [← Except.pure_eq_ok_iff.mp hfound]
    cases verified with
    | true =>
        constructor
        · rintro ⟨v, hv, -⟩
          cases hv
        · intro h
          have hrejected := h.1.rejected
          rw [hcheck] at hrejected
          cases hrejected
    | false =>
        constructor
        · rintro ⟨v, hv, -, hid⟩
          rw [List.mem_singleton.mp hv] at hid
          exact ⟨⟨htested, hcheck⟩, hid⟩
        · intro h
          exact ⟨_, List.mem_cons_self, ⟨rfl, rfl⟩, h.2⟩

/-- A quote violation with the given subject in a report. -/
def Reports (report : LintReport) (id : Str) : Prop :=
  ∃ v ∈ report.violations, IsQuoteViolation v ∧ v.subjectId = id

/-- A linter that returns reports the controls whose trimmed citations fail. -/
theorem reports_iff {environ : Environ} {vault : Evidence.Vault} {papers : ValidPapers}
    {racm : RiskControlMatrixSchema} {sessionId : Option Str} {report : LintReport}
    (h : lintWorkingPapers rt vlib lib environ vault papers.val racm sessionId true = .ok report)
    {id : Str} :
    Reports report id ↔ ∃ f ∈ papers.val.findings,
      TrimRejected rt vlib (lintContext environ vault papers.val racm sessionId true) f ∧
        f.controlId = id := by
  constructor
  · rintro ⟨v, hv, hquote, hid⟩
    unfold lintWorkingPapers at h
    obtain ⟨all, hall, h⟩ := Except.bind_eq_ok_iff.mp h
    rw [← Except.pure_eq_ok_iff.mp h] at hv
    rcases List.mem_append.mp hv with hv | hv
    · exact absurd hquote (noQuoteViolation_coverage _ _ v hv)
    · obtain ⟨ofFinding, hofFinding, hv⟩ := List.mem_flatten.mp hv
      obtain ⟨f, hf, hlint⟩ := Except.mem_of_mapM_eq_ok hall ofFinding hofFinding
      unfold lintFinding at hlint
      obtain ⟨ofRules, hofRules, rfl⟩ := Except.map_eq_ok_iff.mp hlint
      obtain ⟨found, hfound, hv⟩ := List.mem_flatten.mp hv
      obtain ⟨rule, hrule, hruns⟩ := Except.mem_of_mapM_eq_ok hofRules found hfound
      have hquoteRule := quoteRule_of_quoteViolation hrule hruns hv hquote
      have hreports := (quoteRule_reports_iff rfl (papers.property f hf) hquoteRule).mp
        ⟨v, hv, hquote, hid⟩
      exact ⟨f, hf, hreports⟩
  · rintro ⟨f, hf, hrejected, hid⟩
    have hvalid := papers.property f hf
    have hlintable := (returns_lintWorkingPapers_iff papers.property).mp ⟨report, h⟩ f hf
    obtain ⟨found, hfound⟩ := (returns_quoteRule_iff hvalid).mpr hlintable.quote
    obtain ⟨v, hv, hquote, hsubject⟩ :=
      (quoteRule_reports_iff rfl hvalid hfound).mpr ⟨hrejected, hid⟩
    exact ⟨v, mem_violations_of_rule h hf (by simp [findingRules]) hfound v hv, hquote, hsubject⟩

/-- The names an evidence check that returns has in its list. -/
theorem mem_unverifiedFindings_iff {verify : Str → Str → Option Str → Except Raised Bool}
    {sessionId : Option Str} {index : Nat} {findings : List AuditFindingSchema} {names : List Str}
    (h : Evidence.unverifiedFindings rt verify sessionId index findings = .ok names) {name : Str} :
    name ∈ names ↔ ∃ j f, findings[j]? = some f ∧
      Evidence.reportedId (index + j) f.controlId = name ∧
        Evidence.findingUnverified rt verify sessionId f = .ok true := by
  induction findings generalizing index names with
  | nil =>
      rw [Evidence.unverifiedFindings] at h
      obtain rfl := Except.ok.inj h
      simp
  | cons f rest ih =>
      rw [Evidence.unverifiedFindings] at h
      obtain ⟨unverified, hunverified, h⟩ := Except.bind_eq_ok_iff.mp h
      obtain ⟨others, hothers, h⟩ := Except.bind_eq_ok_iff.mp h
      have hrest : name ∈ others ↔ ∃ j g, (f :: rest)[j + 1]? = some g ∧
          Evidence.reportedId (index + (j + 1)) g.controlId = name ∧
            Evidence.findingUnverified rt verify sessionId g = .ok true := by
        rw [ih hothers]
        simp only [List.getElem?_cons_succ, Nat.add_assoc, Nat.add_comm 1]
      rw [← Except.pure_eq_ok_iff.mp h]
      constructor
      · intro hmem
        have hcases : (unverified = true ∧ name = Evidence.reportedId index f.controlId) ∨
            name ∈ others := by
          cases unverified with
          | true => simpa using hmem
          | false => exact .inr (by simpa using hmem)
        rcases hcases with ⟨rfl, hname⟩ | hmem
        · exact ⟨0, f, rfl, hname.symm, hunverified⟩
        · obtain ⟨j, g, hg, hname, hfound⟩ := hrest.mp hmem
          exact ⟨j + 1, g, hg, hname, hfound⟩
      · rintro ⟨j, g, hg, hname, hfound⟩
        cases j with
        | zero =>
            obtain rfl := Option.some.inj hg
            obtain rfl := Except.ok.inj (hunverified.symm.trans hfound)
            rw [if_pos rfl, ← hname]
            exact List.mem_cons_self
        | succ j =>
            have hmem := hrest.mpr ⟨j, g, hg, hname, hfound⟩
            split
            · exact List.mem_cons_of_mem _ hmem
            · exact hmem

theorem returns_unverifiedFindings_iff
    {verify : Str → Str → Option Str → Except Raised Bool} {sessionId : Option Str} {index : Nat}
    {findings : List AuditFindingSchema} :
    (Evidence.unverifiedFindings rt verify sessionId index findings).Returns ↔
      ∀ f ∈ findings, (Evidence.findingUnverified rt verify sessionId f).Returns := by
  induction findings generalizing index with
  | nil => simp [Evidence.unverifiedFindings]
  | cons f rest ih =>
      rw [Evidence.unverifiedFindings, Except.returns_bind_iff, List.forall_mem_cons]
      constructor
      · rintro ⟨unverified, hunverified, h⟩
        rw [Except.returns_bind_of_total fun _ => Except.returns_pure _] at h
        exact ⟨⟨unverified, hunverified⟩, ih.mp h⟩
      · rintro ⟨⟨unverified, hunverified⟩, h⟩
        refine ⟨unverified, hunverified, ?_⟩
        rw [Except.returns_bind_of_total fun _ => Except.returns_pure _]
        exact ih.mpr h

/-! ## One finding at the gate -/

/-- A valid finding without a quote says that its control was not tested. -/
theorem findingMarkedNotTested_of_blank (hfold : rt.casefold (lit "Not tested") = lit "not tested")
    (hvalid : f.Valid) (hblank : strip f.exactQuoteFromEvidence = []) :
    Evidence.findingMarkedNotTested rt f = true := by
  have hresult : f.result = some .notTested := by
    by_contra htested
    exact (hvalid.quoted htested).1 hblank
  have hwords : join (lit " ") (words ((value FindingResult.notTested).map fun c =>
      if c = 95 ∨ c = 45 then 32 else c)) = lit "Not tested" := by decide
  have hlabel : Evidence.normalisedLabel rt (value FindingResult.notTested) = lit "not tested" := by
    unfold Evidence.normalisedLabel
    dsimp only
    rw [hwords, hfold]
  unfold Evidence.findingMarkedNotTested
  rw [hresult, Option.map_some, hlabel]
  simp

theorem findingUnverified_of_quoted (hquoted : strip f.exactQuoteFromEvidence ≠ []) :
    Evidence.findingUnverified rt (Evidence.checkQuote rt vlib ctx.environ ctx.vault)
      ctx.sessionId f =
      ((rawCheck rt vlib ctx f).mapError Evidence.VaultError.toRaised).map (!·) := by
  unfold Evidence.findingUnverified
  rw [if_neg hquoted]
  rfl

theorem findingUnverified_iff (hfold : rt.casefold (lit "Not tested") = lit "not tested")
    (hvalid : f.Valid) :
    Evidence.findingUnverified rt (Evidence.checkQuote rt vlib ctx.environ ctx.vault)
      ctx.sessionId f = .ok true ↔ RawRejected rt vlib ctx f := by
  by_cases hblank : strip f.exactQuoteFromEvidence = []
  · have hmarked := findingMarkedNotTested_of_blank hfold hvalid hblank
    constructor
    · intro h
      unfold Evidence.findingUnverified at h
      rw [if_pos hblank, hmarked] at h
      cases h
    · exact fun h => absurd hblank h.quoted
  · rw [findingUnverified_of_quoted hblank]
    constructor
    · intro h
      refine ⟨hblank, ?_⟩
      cases hx : rawCheck rt vlib ctx f with
      | error e =>
          rw [hx] at h
          cases h
      | ok b =>
          rw [hx] at h
          cases b with
          | false => rfl
          | true => cases h
    · intro h
      rw [h.rejected]
      rfl

/-- The vault record behind a quote, as it is cited, can be read. -/
def RawReadable (rt : Runtime) (vlib : VaultLibrary) (ctx : LintContext)
    (f : AuditFindingSchema) : Prop :=
  strip f.exactQuoteFromEvidence ≠ [] → ∀ loaded,
    Evidence.Reads ctx.vault f.vaultIdReference f.exactQuoteFromEvidence loaded →
      Evidence.RecordReadable rt vlib ctx.environ loaded

theorem returns_findingUnverified_iff :
    (Evidence.findingUnverified rt (Evidence.checkQuote rt vlib ctx.environ ctx.vault)
      ctx.sessionId f).Returns ↔ RawReadable rt vlib ctx f := by
  unfold RawReadable
  by_cases hblank : strip f.exactQuoteFromEvidence = []
  · unfold Evidence.findingUnverified
    simp [hblank]
  · rw [findingUnverified_of_quoted hblank, Except.returns_map_iff, returns_mapError_iff, rawCheck,
      Evidence.returns_verifyExactQuote_iff]
    exact ⟨fun h _ => h, fun h => h hblank⟩

/-! ## Agreement -/

/-- Both checks return, and the linter reports a tested finding's control for its quote exactly
when the evidence check reports that finding's name. -/
def Agree (rt : Runtime) (vlib : VaultLibrary) (lib : LintLibrary) (environ : Environ)
    (vault : Evidence.Vault) (papers : ValidPapers) (racm : RiskControlMatrixSchema)
    (sessionId : Option Str) : Prop :=
  ∃ report names,
    lintWorkingPapers rt vlib lib environ vault papers.val racm sessionId true = .ok report ∧
    Evidence.unverifiedFindings rt (Evidence.checkQuote rt vlib environ vault) sessionId 0
      papers.val.findings = .ok names ∧
    ∀ i f, papers.val.findings[i]? = some f → f.result ≠ some .notTested →
      (Reports report f.controlId ↔ Evidence.reportedId i f.controlId ∈ names)

/-- Some finding reported under the name of the one at a place fails as it is written. -/
def GateRejects (rt : Runtime) (vlib : VaultLibrary) (ctx : LintContext) (i : Nat)
    (f : AuditFindingSchema) : Prop :=
  ∃ j h, ctx.findings[j]? = some h ∧
    Evidence.reportedId j h.controlId = Evidence.reportedId i f.controlId ∧
      RawRejected rt vlib ctx h

/-- Some tested finding of a control fails without the white space around its citation. -/
def LinterRejects (rt : Runtime) (vlib : VaultLibrary) (ctx : LintContext)
    (f : AuditFindingSchema) : Prop :=
  ∃ h ∈ ctx.findings, TrimRejected rt vlib ctx h ∧ h.controlId = f.controlId

/-- Papers on which trimming a citation, quoting evidence for a control that was not tested and
leaving out a control ID make no difference. -/
structure CitationsAgree (rt : Runtime) (vlib : VaultLibrary) (lib : LintLibrary)
    (ctx : LintContext) : Prop where
  lintable : ∀ f ∈ ctx.findings, FindingLintable rt vlib lib ctx f
  readable : ∀ f ∈ ctx.findings, RawReadable rt vlib ctx f
  /-- A quote that is too short once trimmed. -/
  shortened : ∀ i f, ctx.findings[i]? = some f → f.result ≠ some .notTested →
    ∀ g ∈ ctx.findings, g.controlId = f.controlId → g.result ≠ some .notTested →
      rawCheck rt vlib ctx g = .ok true →
        (strip g.exactQuoteFromEvidence).length < Evidence.minQuoteLength →
          GateRejects rt vlib ctx i f
  /-- Findings without a control ID, which the evidence check tells apart by their places. -/
  nameless : ∀ i f, ctx.findings[i]? = some f → f.result ≠ some .notTested → f.controlId = [] →
    ∀ g ∈ ctx.findings, g.controlId = [] → TrimRejected rt vlib ctx g →
      RawRejected rt vlib ctx g → GateRejects rt vlib ctx i f
  /-- A citation that only fails as it is written, or that the linter does not look at. -/
  untrimmed : ∀ i f, ctx.findings[i]? = some f → f.result ≠ some .notTested →
    ∀ j g, ctx.findings[j]? = some g →
      Evidence.reportedId j g.controlId = Evidence.reportedId i f.controlId →
        RawRejected rt vlib ctx g →
          (g.result = some .notTested ∨ trimmedCheck rt vlib ctx g = .ok true ∨
            g.controlId ≠ f.controlId) → LinterRejects rt vlib ctx f

theorem reportedId_of_ne_nil {i : Nat} {id : Str} (h : id ≠ []) : Evidence.reportedId i id = id := by
  unfold Evidence.reportedId
  rw [if_neg h]

/-- A finding that only the linter rejects has a quote that is too short once trimmed. -/
theorem short_of_trimRejected {g : AuditFindingSchema} (h : TrimRejected rt vlib ctx g)
    (hraw : rawCheck rt vlib ctx g = .ok true) :
    (strip g.exactQuoteFromEvidence).length < Evidence.minQuoteLength := by
  have hrejected := h.rejected
  rw [trimmedCheck, Evidence.verifyExactQuote_strip hraw] at hrejected
  exact Nat.lt_of_not_le (of_decide_eq_false (Except.ok.inj hrejected))

theorem trimRejected_of_short {g : AuditFindingSchema} (htested : g.result ≠ some .notTested)
    (hraw : rawCheck rt vlib ctx g = .ok true)
    (hshort : (strip g.exactQuoteFromEvidence).length < Evidence.minQuoteLength) :
    TrimRejected rt vlib ctx g := by
  refine ⟨htested, ?_⟩
  rw [trimmedCheck, Evidence.verifyExactQuote_strip hraw, decide_eq_false (Nat.not_le_of_lt hshort)]

/-- What the linter rejects the evidence check rejects, and the other way round. -/
theorem CitationsAgree.rejects_iff (h : CitationsAgree rt vlib lib ctx)
    (hvalid : ∀ g ∈ ctx.findings, g.Valid) (hverify : ctx.verifyVaultQuotes = true) {i : Nat}
    (hf : ctx.findings[i]? = some f) (htested : f.result ≠ some .notTested) :
    LinterRejects rt vlib ctx f ↔ GateRejects rt vlib ctx i f := by
  constructor
  · rintro ⟨g, hg, hrejected, hid⟩
    have hquoted := ((hvalid g hg).quoted hrejected.tested).1
    have hreturns : (rawCheck rt vlib ctx g).Returns :=
      Evidence.returns_verifyExactQuote_iff.mpr (h.readable g hg hquoted)
    obtain ⟨b, hb⟩ := hreturns
    cases b with
    | true =>
        have hshort := short_of_trimRejected hrejected hb
        exact h.shortened i f hf htested g hg hid hrejected.tested hb hshort
    | false =>
        have hraw : RawRejected rt vlib ctx g := ⟨hquoted, hb⟩
        by_cases hname : f.controlId = []
        · exact h.nameless i f hf htested hname g hg (hid.trans hname) hrejected hraw
        · obtain ⟨j, hj⟩ := List.getElem?_of_mem hg
          refine ⟨j, g, hj, ?_, hraw⟩
          rw [hid, reportedId_of_ne_nil hname, reportedId_of_ne_nil hname]
  · rintro ⟨j, g, hg, hname, hraw⟩
    have hmem := List.mem_of_getElem? hg
    by_cases hother : g.result = some .notTested ∨ trimmedCheck rt vlib ctx g = .ok true ∨
        g.controlId ≠ f.controlId
    · exact h.untrimmed i f hf htested j g hg hname hraw hother
    · simp only [not_or, not_not] at hother
      obtain ⟨hgTested, hnot, hid⟩ := hother
      have hreturns : (trimmedCheck rt vlib ctx g).Returns :=
        Evidence.returns_verifyExactQuote_iff.mpr ((h.lintable g hmem).quote hverify hgTested)
      obtain ⟨b, hb⟩ := hreturns
      cases b with
      | true => exact absurd hb hnot
      | false => exact ⟨g, hmem, ⟨hgTested, hb⟩, hid⟩

/-- The linter and the evidence check agree on quotes exactly when no trimmed, misplaced or
nameless citation makes a difference. -/
theorem lintWorkingPapers_agree_iff (rt : Runtime) (vlib : VaultLibrary) (lib : LintLibrary)
    (environ : Environ) (vault : Evidence.Vault) (papers : ValidPapers)
    (racm : RiskControlMatrixSchema) (sessionId : Option Str)
    (hfold : rt.casefold (lit "Not tested") = lit "not tested") :
    Agree rt vlib lib environ vault papers racm sessionId ↔
      CitationsAgree rt vlib lib
        (lintContext environ vault papers.val racm sessionId true) := by
  have hvalid : ∀ g ∈ papers.val.findings, g.Valid := papers.property
  -- the two loops, once they return
  have hloops : ∀ {report names},
      lintWorkingPapers rt vlib lib environ vault papers.val racm sessionId true = .ok report →
      Evidence.unverifiedFindings rt (Evidence.checkQuote rt vlib environ vault) sessionId 0
        papers.val.findings = .ok names → ∀ i f, (Reports report f.controlId ↔
          LinterRejects rt vlib (lintContext environ vault papers.val racm sessionId true) f) ∧
        (Evidence.reportedId i f.controlId ∈ names ↔
          GateRejects rt vlib (lintContext environ vault papers.val racm sessionId true) i f) := by
    intro report names hreport hnames i f
    constructor
    · exact reports_iff hreport
    · rw [mem_unverifiedFindings_iff hnames]
      refine exists_congr fun j => exists_congr fun g => and_congr_right fun hg => ?_
      rw [Nat.zero_add]
      exact and_congr_right fun _ => @findingUnverified_iff rt vlib
        (lintContext environ vault papers.val racm sessionId true) g hfold
        (hvalid g (List.mem_of_getElem? hg))
  constructor
  · rintro ⟨report, names, hreport, hnames, hagree⟩
    have hiff : ∀ i f, papers.val.findings[i]? = some f → f.result ≠ some .notTested →
        (LinterRejects rt vlib (lintContext environ vault papers.val racm sessionId true) f ↔
          GateRejects rt vlib (lintContext environ vault papers.val racm sessionId true) i f) := by
      intro i f hf htested
      rw [← (hloops hreport hnames i f).1, ← (hloops hreport hnames i f).2]
      exact hagree i f hf htested
    constructor
    · exact (returns_lintWorkingPapers_iff hvalid).mp ⟨report, hreport⟩
    · intro f hf
      exact returns_findingUnverified_iff.mp (returns_unverifiedFindings_iff.mp ⟨names, hnames⟩ f hf)
    · intro i f hf htested g hg hid hgTested hraw hshort
      exact (hiff i f hf htested).mp ⟨g, hg, trimRejected_of_short hgTested hraw hshort, hid⟩
    · intro i f hf htested hname g hg hgName hrejected _
      exact (hiff i f hf htested).mp ⟨g, hg, hrejected, hgName.trans hname.symm⟩
    · intro i f hf htested j g hg hname hraw _
      exact (hiff i f hf htested).mpr ⟨j, g, hg, hname, hraw⟩
  · intro h
    obtain ⟨report, hreport⟩ := (returns_lintWorkingPapers_iff hvalid).mpr h.lintable
    obtain ⟨names, hnames⟩ := (@returns_unverifiedFindings_iff rt _ sessionId 0 _).mpr fun f hf =>
      (@returns_findingUnverified_iff rt vlib
        (lintContext environ vault papers.val racm sessionId true) f).mpr (h.readable f hf)
    refine ⟨report, names, hreport, hnames, fun i f hf htested => ?_⟩
    rw [(hloops hreport hnames i f).1, (hloops hreport hnames i f).2]
    exact h.rejects_iff hvalid rfl hf htested

namespace Sample

/-- Valid papers with one finding that quotes the sample record. -/
def quotingPapers (quote : Str) : WorkingPaperSchema :=
  AuditSwarm.Sample.papers [{ AuditSwarm.Sample.finding "C1" .effective .exceptionsNoted with
    vaultIdReference := Evidence.Sample.vaultId, exactQuoteFromEvidence := quote }]

def exactPapers : ValidPapers :=
  ⟨quotingPapers Evidence.Sample.evidenceText, by decide +kernel⟩

/-- The quote of the record with a blank after it. -/
def paddedPapers : ValidPapers :=
  ⟨quotingPapers (Evidence.Sample.evidenceText ++ lit " "), by decide +kernel⟩

end Sample

theorem lintWorkingPapers_agree_exact :
    Agree AuditSwarm.Sample.rt Evidence.sampleLibrary Sample.lintLibrary (fun _ => none)
      Evidence.Sample.vault Sample.exactPapers AuditSwarm.Sample.smallRacm none := by
  apply (lintWorkingPapers_agree_iff AuditSwarm.Sample.rt Evidence.sampleLibrary
    Sample.lintLibrary (fun _ => none) Evidence.Sample.vault Sample.exactPapers
    AuditSwarm.Sample.smallRacm none (by decide)).mpr
  have hlint : lintWorkingPapers AuditSwarm.Sample.rt Evidence.sampleLibrary Sample.lintLibrary
      (fun _ => none) Evidence.Sample.vault Sample.exactPapers.val AuditSwarm.Sample.smallRacm none
      true = .ok ⟨[]⟩ := by decide +kernel
  have hraw : rawCheck AuditSwarm.Sample.rt Evidence.sampleLibrary
      (lintContext (fun _ => none) Evidence.Sample.vault Sample.exactPapers.val
        AuditSwarm.Sample.smallRacm none true)
      { AuditSwarm.Sample.finding "C1" .effective .exceptionsNoted with
        vaultIdReference := Evidence.Sample.vaultId,
        exactQuoteFromEvidence := Evidence.Sample.evidenceText } = .ok true := by decide +kernel
  constructor
  · exact (returns_lintWorkingPapers_iff Sample.exactPapers.property).mp ⟨_, hlint⟩
  · intro f hf _
    rw [List.mem_singleton.mp hf]
    exact Evidence.returns_verifyExactQuote_iff.mp ⟨true, hraw⟩
  · intro _ _ _ _ g hg _ _ _ hshort
    rw [List.mem_singleton.mp hg] at hshort
    exact absurd hshort (by decide)
  · intro _ f hf _ hname
    rw [List.mem_singleton.mp (List.mem_of_getElem? hf)] at hname
    cases hname
  · intro _ _ _ _ _ g hg _ hrejected
    have hfails := hrejected.rejected
    rw [List.mem_singleton.mp (List.mem_of_getElem? hg), hraw] at hfails
    cases hfails

/-- A blank after a quote makes the evidence check report a finding that the linter lets pass. -/
theorem lintWorkingPapers_disagree_padded :
    ¬ ∀ (papers : ValidPapers) (racm : RiskControlMatrixSchema) (vault : Evidence.Vault)
      (sessionId : Option Str),
      Agree AuditSwarm.Sample.rt Evidence.sampleLibrary Sample.lintLibrary (fun _ => none) vault
        papers racm sessionId := by
  intro h
  obtain ⟨report, names, hreport, hnames, hagree⟩ :=
    h Sample.paddedPapers AuditSwarm.Sample.smallRacm Evidence.Sample.vault none
  have hlint : lintWorkingPapers AuditSwarm.Sample.rt Evidence.sampleLibrary Sample.lintLibrary
      (fun _ => none) Evidence.Sample.vault Sample.paddedPapers.val AuditSwarm.Sample.smallRacm none
      true = .ok ⟨[]⟩ := by decide +kernel
  have hgate : Evidence.unverifiedFindings AuditSwarm.Sample.rt
      (Evidence.checkQuote AuditSwarm.Sample.rt Evidence.sampleLibrary (fun _ => none)
        Evidence.Sample.vault) none 0 Sample.paddedPapers.val.findings = .ok [lit "C1"] := by
    decide +kernel
  obtain rfl := Except.ok.inj (hlint.symm.trans hreport)
  obtain rfl := Except.ok.inj (hgate.symm.trans hnames)
  obtain ⟨v, hv, -⟩ := (hagree 0 _ rfl (by decide)).mpr List.mem_cons_self
  cases hv

end Linters

end AuditSwarm
