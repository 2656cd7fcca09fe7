import AuditSwarm.Lib.Returns
import AuditSwarm.Model.Linter
import AuditSwarm.Properties.QuoteCheckReturns

/-!
# What the linter rules do

Which inputs make a rule raise, and which violations a rule can report.
-/

namespace AuditSwarm

open Python

namespace Linters

variable {rt : Runtime} {vlib : VaultLibrary} {lib : LintLibrary} {ctx : LintContext}
  {f : AuditFindingSchema}

/-! ## Numbers -/

theorem length_decimal_le_iff {n : Nat} : (decimal n).length ≤ maxDigits ↔ n < 10 ^ maxDigits := by
  unfold decimal
  split
  · rename_i hzero
    subst hzero
    have hshort : (lit "0").length ≤ maxDigits := by decide
    have hpos : 0 < 10 ^ maxDigits := Nat.pow_pos (by decide)
    exact iff_of_true hshort hpos
  · rw [List.length_map, List.length_reverse, Nat.digits_length_le_iff (by decide)]

theorem returns_textOfNat_iff {n : Nat} : (textOfNat n).Returns ↔ n < 10 ^ maxDigits := by
  rw [← length_decimal_le_iff, textOfNat]
  by_cases h : (decimal n).length ≤ maxDigits
  · simp [h]
  · simp [h]

/-! ## Counts -/

/-- The counts of a finding, with exceptions among the items, can be written and divided. -/
structure CountsReadable (f : AuditFindingSchema) : Prop where
  written : ∀ items ∈ f.itemsTested, ∀ exceptions ∈ f.exceptionsNoted,
    items < exceptions → exceptions < 10 ^ maxDigits
  divided : ∀ items ∈ f.itemsTested, ∀ exceptions ∈ f.exceptionsNoted,
    0 < items → floatFinite exceptions items

theorem returns_arithmeticRule_iff :
    (arithmeticRule ctx f).Returns ↔
      ∀ items ∈ f.itemsTested, ∀ exceptions ∈ f.exceptionsNoted,
        items < exceptions → exceptions < 10 ^ maxDigits := by
  unfold arithmeticRule
  rw [Except.returns_bind_of_total fun _ => Except.returns_pure _]
  unfold excessViolations
  cases f.itemsTested with
  | none => simp
  | some items =>
      cases f.exceptionsNoted with
      | none => simp
      | some exceptions =>
          simp only [Option.mem_def, Option.some.injEq, forall_eq']
          by_cases hlt : items < exceptions
          · rw [if_pos hlt]
            constructor
            · intro h _
              obtain ⟨text, htext, -⟩ := Except.returns_bind_iff.mp h
              exact returns_textOfNat_iff.mp ⟨text, htext⟩
            · intro h
              obtain ⟨text, htext⟩ := returns_textOfNat_iff.mpr (h hlt)
              obtain ⟨text', htext'⟩ := returns_textOfNat_iff.mpr (hlt.trans (h hlt))
              rw [htext, Except.ok_bind, htext', Except.ok_bind]
              exact Except.returns_pure _
          · rw [if_neg hlt]
            exact iff_of_true (Except.returns_ok _) fun h => absurd h hlt

theorem two_pow_sub_pos {m n : Nat} (h : m < n) : 0 < 2 ^ n - 2 ^ m :=
  Nat.sub_pos_of_lt (Nat.pow_lt_pow_right one_lt_two h)

theorem floatFinite_zero {items : Nat} (h : 0 < items) : floatFinite 0 items :=
  Nat.mul_pos h (two_pow_sub_pos (by omega))

theorem returns_deviationRule_iff (hvalid : f.Valid) :
    (deviationRule lib ctx f).Returns ↔
      ∀ items ∈ f.itemsTested, ∀ exceptions ∈ f.exceptionsNoted,
        0 < items → floatFinite exceptions items := by
  have heffective : ¬ (f.toeConclusion = .effective ∧ 0 < f.exceptionsNoted.getD 0) := by
    unfold AuditFindingSchema.Valid AuditFindingSchema.consistent at hvalid
    obtain ⟨_, hensure, -⟩ := Except.bind_eq_ok_iff.mp hvalid
    simpa using hensure
  unfold deviationRule
  by_cases hpositive : 0 < f.itemsTested.getD 0 ∧ 0 < f.exceptionsNoted.getD 0
  · have htoe : f.toeConclusion ≠ .effective := fun h => heffective ⟨h, hpositive.2⟩
    rw [if_pos hpositive]
    cases hitems : f.itemsTested with
    | none => simp [hitems] at hpositive
    | some items =>
        cases hexceptions : f.exceptionsNoted with
        | none => simp [hexceptions] at hpositive
        | some exceptions =>
            have hpos : 0 < items := by simpa [hitems] using hpositive.1
            simp only [Option.mem_def, Option.getD_some, Option.some.injEq, forall_eq', htoe, and_false,
              if_false]
            rw [Except.returns_bind_of_total fun _ => Except.returns_pure _, Except.ensure]
            by_cases hfinite : floatFinite exceptions items
            · simp [hfinite]
            · simp [hfinite, hpos]
  · rw [if_neg hpositive]
    refine iff_of_true (Except.returns_ok _) ?_
    intro items hitems exceptions hexceptions hpos
    have hzero : exceptions = 0 := by
      rw [Option.mem_def.mp hitems, Option.mem_def.mp hexceptions, Option.getD_some,
        Option.getD_some] at hpositive
      omega
    rw [hzero]
    exact floatFinite_zero hpos

/-! ## Quotes -/

/-- The quote of a finding without white space around it, with its vault ID. -/
def trimmedCheck (rt : Runtime) (vlib : VaultLibrary) (ctx : LintContext)
    (f : AuditFindingSchema) : Except Evidence.VaultError Bool :=
  Evidence.verifyExactQuote rt vlib ctx.environ ctx.vault (strip f.vaultIdReference)
    (strip f.exactQuoteFromEvidence) ctx.sessionId

def QuoteReadable (rt : Runtime) (vlib : VaultLibrary) (ctx : LintContext)
    (f : AuditFindingSchema) : Prop :=
  ctx.verifyVaultQuotes = true → f.result ≠ some .notTested → ∀ loaded,
    Evidence.Reads ctx.vault (strip f.vaultIdReference) (strip f.exactQuoteFromEvidence) loaded →
      Evidence.RecordReadable rt vlib ctx.environ loaded

theorem quoteRule_tested (hverify : ctx.verifyVaultQuotes = true) (hvalid : f.Valid)
    (htested : f.result ≠ some .notTested) :
    quoteRule rt vlib ctx f = (do
      let verified ← (trimmedCheck rt vlib ctx f).mapError LintError.vault
      return if verified then [] else
        [violation "D11" f.controlId (lit "Exact quote for " ++ f.controlId ++
          lit " failed verification against vault record '" ++ strip f.vaultIdReference ++
          lit "'.")]) := by
  obtain ⟨hquote, hvid⟩ := hvalid.quoted htested
  unfold quoteRule trimmedCheck
  simp [hverify, htested, hquote, hvid]

theorem returns_mapError_iff {ε ε' α : Type} {x : Except ε α} {g : ε → ε'} :
    (x.mapError g).Returns ↔ x.Returns := by
  cases x with
  | error e => simp [Except.mapError]
  | ok a => simp [Except.mapError]

theorem returns_quoteRule_iff (hvalid : f.Valid) :
    (quoteRule rt vlib ctx f).Returns ↔ QuoteReadable rt vlib ctx f := by
  unfold QuoteReadable
  by_cases hchecked : ctx.verifyVaultQuotes = true ∧ f.result ≠ some .notTested
  · rw [quoteRule_tested hchecked.1 hvalid hchecked.2,
      Except.returns_bind_of_total fun _ => Except.returns_pure _, returns_mapError_iff,
      trimmedCheck, Evidence.returns_verifyExactQuote_iff]
    exact ⟨fun h _ _ => h, fun h => h hchecked.1 hchecked.2⟩
  · have hskip : quoteRule rt vlib ctx f = .ok [] := by
      unfold quoteRule
      rw [not_and_or, not_not] at hchecked
      rcases hchecked with h | h
      · simp [h]
      · simp [h]
    rw [hskip]
    exact iff_of_true (Except.returns_ok _) fun hv ht => absurd ⟨hv, ht⟩ hchecked

/-! ## Periods -/

/-- A time whose date in UTC is one of the calendar. -/
def InCalendar (p : ParsedDatetime) : Prop :=
  let micros := (p.micros : Int) - p.offset.getD 0
  0 ≤ micros ∧ micros.toNat / microsPerDay + 1 ≤ maxOrdinal

theorem returns_utcDate_iff {p : ParsedDatetime} : (utcDate p).Returns ↔ InCalendar p := by
  unfold utcDate InCalendar
  dsimp only
  split
  · exact iff_of_true (Except.returns_ok _) ‹_›
  · exact iff_of_false (Except.not_returns_error _) ‹_›

/-- A vault entry whose timestamp can be read: its JSON is not nested too deep, and a timestamp
that is a time has a date in UTC. -/
structure TimestampReadable (rt : Runtime) (lib : LintLibrary) (entry : Evidence.VaultEntry) :
    Prop where
  shallow : Evidence.Vault.load entry ≠ .error .runtimeError
  dated : ∀ record : Dict Str Json, Evidence.Vault.load entry = .ok (.obj record) →
    line rt (record.get? (lit "timestamp")) ≠ [] → ∀ p,
      lib.parseDatetime (replaceZ (line rt (record.get? (lit "timestamp")))) = some p →
        InCalendar p

theorem returns_oscalDatetime_iff {field : Option Json} :
    (oscalDatetime rt lib field).Returns ↔
      (line rt field ≠ [] → ∀ p, lib.parseDatetime (replaceZ (line rt field)) = some p →
        InCalendar p) := by
  unfold oscalDatetime
  by_cases hblank : line rt field = []
  · simp [hblank]
  · rw [if_neg hblank]
    cases lib.parseDatetime (replaceZ (line rt field)) with
    | none => simp
    | some p => simp [hblank, returns_utcDate_iff]

theorem returns_vaultMetadata_iff {vault : Evidence.Vault} {vaultId : Str} :
    (vaultMetadata rt lib vault vaultId).Returns ↔
      (Evidence.isUuid vaultId = true → ∀ entry, vault.get? (vaultId ++ lit ".json") = some entry →
        Evidence.Vault.inside entry = true → TimestampReadable rt lib entry) := by
  unfold vaultMetadata
  by_cases huuid : Evidence.isUuid vaultId = true
  · cases hentry : vault.get? (vaultId ++ lit ".json") with
    | none => simp [huuid]
    | some entry =>
        by_cases hinside : Evidence.Vault.inside entry = true
        · simp only [huuid, hinside, Bool.not_true, Bool.false_eq_true, if_false,
            Option.some.injEq, forall_eq', forall_const]
          cases hload : Evidence.Vault.load entry with
          | error e =>
              cases e with
              | runtimeError =>
                  exact iff_of_false (Except.not_returns_error _) fun h => h.shallow hload
              | _ => exact iff_of_true (Except.returns_ok _) ⟨by simp [hload], by simp [hload]⟩
          | ok loaded =>
              cases loaded with
              | obj record =>
                  have hrecord : (recordMetadata rt lib record).Returns ↔
                      (oscalDatetime rt lib (Dict.get? record (lit "timestamp"))).Returns :=
                    Except.returns_bind_of_total fun _ => Except.returns_pure _
                  dsimp only
                  rw [hrecord, returns_oscalDatetime_iff]
                  constructor
                  · intro h
                    refine ⟨by simp [hload], fun record' hload' => ?_⟩
                    rw [hload] at hload'
                    rw [← Json.obj.inj (Except.ok.inj hload')]
                    exact h
                  · exact fun h => h.dated record hload
              | _ => exact iff_of_true (Except.returns_ok _) ⟨by simp [hload], by simp [hload]⟩
        · simp [huuid, hinside]
  · simp [huuid]

/-- The fiscal year of a period, where one is looked for, is a year of the calendar. -/
def FiscalYearReadable (rt : Runtime) (lib : LintLibrary) (period : Str) : Prop :=
  isoBounds lib period = none → ∀ digits,
    Regex.firstGroup lib.word (fiscalYearPattern lib) period = some digits →
      ∃ year, fiscalYear rt digits = some year ∧ 1 ≤ year ∧ year ≤ 9999

theorem yearBounds_isSome_iff {digits : Str} :
    (∃ bounds, yearBounds rt digits = some bounds) ↔
      ∃ year, fiscalYear rt digits = some year ∧ 1 ≤ year ∧ year ≤ 9999 := by
  have hday : ∀ year month day, (Date.ofYmd year month day).isSome = decide (IsDay year month day) := by
    intro year month day
    unfold Date.ofYmd
    by_cases h : IsDay year month day
    · simp [h]
    · simp [h]
  unfold yearBounds
  cases fiscalYear rt digits with
  | none => simp
  | some year =>
      constructor
      · rintro ⟨bounds, h⟩
        obtain ⟨_, hyear, h⟩ := Option.bind_eq_some_iff.mp h
        obtain rfl := Option.some.inj hyear
        obtain ⟨first, hfirst, -⟩ := Option.bind_eq_some_iff.mp h
        have hsome := hday year 1 1
        rw [hfirst] at hsome
        have hisDay : IsDay year 1 1 := by simpa using hsome.symm
        exact ⟨year, rfl, hisDay.year_pos, hisDay.year_le⟩
      · rintro ⟨year', hyear, hpos, hle⟩
        obtain rfl := Option.some.inj hyear
        have hfirst : IsDay year 1 1 :=
          ⟨hpos, hle, by decide, by decide, by decide, (by decide : 1 ≤ 31)⟩
        have hlast : IsDay year 12 31 :=
          ⟨hpos, hle, by decide, by decide, by decide, (by decide : 31 ≤ 31)⟩
        have hfirstDay : ∃ d, Date.ofYmd year 1 1 = some d := ⟨_, dif_pos hfirst⟩
        have hlastDay : ∃ d, Date.ofYmd year 12 31 = some d := ⟨_, dif_pos hlast⟩
        obtain ⟨first, hfirstDay⟩ := hfirstDay
        obtain ⟨last, hlastDay⟩ := hlastDay
        exact ⟨(first, last), by simp [hfirstDay, hlastDay]⟩

theorem returns_extractYearBounds_iff {period : Str} (hperiod : period ≠ []) :
    (extractYearBounds rt lib period).Returns ↔ FiscalYearReadable rt lib period := by
  unfold extractYearBounds FiscalYearReadable
  rw [if_neg hperiod]
  cases isoBounds lib period with
  | some bounds => simp
  | none =>
      dsimp only
      cases Regex.firstGroup lib.word (fiscalYearPattern lib) period with
      | none => simp
      | some digits =>
          simp only [Except.returns_map_iff, Option.some.injEq, forall_eq', forall_const]
          rw [← yearBounds_isSome_iff]
          cases yearBounds rt digits with
          | none => simp [Except.orRaise]
          | some bounds => simp [Except.orRaise]

theorem returns_outsidePeriod_iff {collected start stop : Date} :
    (outsidePeriod collected start stop).Returns ↔
      collected.ordinal < start.ordinal ∨ stop.ordinal + cutoffDays ≤ maxOrdinal := by
  unfold outsidePeriod
  by_cases hbefore : collected.ordinal < start.ordinal
  · simp [hbefore]
  · rw [if_neg hbefore, Except.returns_bind_of_total fun _ => Except.returns_pure _,
      or_iff_right hbefore, Date.addDays]
    split
    · exact iff_of_true (Except.returns_ok _) ‹_›
    · exact iff_of_false (Except.not_returns_error _) ‹_›

/-- The period of the control of a finding and the timestamp of its evidence can be read, and the
cutoff after the period is in the calendar if the evidence is not from before it. -/
structure PeriodReadable (rt : Runtime) (lib : LintLibrary) (vault : Evidence.Vault)
    (vaultId period : Str) : Prop where
  timestamp : Evidence.isUuid vaultId = true → ∀ entry,
    vault.get? (vaultId ++ lit ".json") = some entry → Evidence.Vault.inside entry = true →
      TimestampReadable rt lib entry
  fiscalYear : FiscalYearReadable rt lib period
  cutoff : ∀ (found : EvidenceMeta) (collected start stop : Date),
    vaultMetadata rt lib vault vaultId = .ok (some found) → found.collected = some collected →
      extractYearBounds rt lib period = .ok (some (start, stop)) →
        collected.ordinal < start.ordinal ∨ stop.ordinal + cutoffDays ≤ maxOrdinal

theorem returns_periodRule_iff :
    (periodRule rt lib ctx f).Returns ↔
      ∀ ctrl, ctx.controls.get? f.controlId = some ctrl →
        ctrl.testingProcedures.periodOfReliance.getD [] ≠ [] → f.vaultIdReference ≠ [] →
          PeriodReadable rt lib ctx.vault f.vaultIdReference
            (ctrl.testingProcedures.periodOfReliance.getD []) := by
  unfold periodRule
  cases ctx.controls.get? f.controlId with
  | none => simp
  | some ctrl =>
      simp only [Option.some.injEq, forall_eq']
      by_cases hskip : ctrl.testingProcedures.periodOfReliance.getD [] = [] ∨
          f.vaultIdReference = []
      · rw [if_pos hskip]
        refine iff_of_true (Except.returns_ok _) fun hperiod hvid => ?_
        rcases hskip with h | h
        · exact absurd h hperiod
        · exact absurd h hvid
      · rw [if_neg hskip]
        rw [not_or] at hskip
        constructor
        · intro h _ _
          obtain ⟨found, hfound, h⟩ := Except.returns_bind_iff.mp h
          obtain ⟨bounds, hbounds, h⟩ := Except.returns_bind_iff.mp h
          refine ⟨returns_vaultMetadata_iff.mp ⟨found, hfound⟩,
            (returns_extractYearBounds_iff hskip.1).mp ⟨bounds, hbounds⟩, ?_⟩
          intro found' collected start stop hfound' hcollected hbounds'
          obtain rfl := Except.ok.inj (hfound.symm.trans hfound')
          obtain rfl := Except.ok.inj (hbounds.symm.trans hbounds')
          rw [Option.bind_some, hcollected] at h
          dsimp only at h
          rw [Except.returns_bind_of_total fun _ => Except.returns_pure _] at h
          exact returns_outsidePeriod_iff.mp h
        · intro h
          have hreadable := h hskip.1 hskip.2
          obtain ⟨found, hfound⟩ := returns_vaultMetadata_iff.mpr hreadable.timestamp
          obtain ⟨bounds, hbounds⟩ := (returns_extractYearBounds_iff hskip.1).mpr
            hreadable.fiscalYear
          rw [hfound, Except.ok_bind, hbounds, Except.ok_bind]
          cases found with
          | none => exact Except.returns_pure _
          | some found =>
              rw [Option.bind_some]
              cases hcollected : found.collected with
              | none => exact Except.returns_pure _
              | some collected =>
                  cases bounds with
                  | none => exact Except.returns_pure _
                  | some bounds =>
                      cases bounds with
                      | mk start stop =>
                          dsimp only
                          rw [Except.returns_bind_of_total fun _ => Except.returns_pure _,
                            returns_outsidePeriod_iff]
                          exact hreadable.cutoff found collected start stop hfound hcollected hbounds

/-! ## Traps -/

def LengthsReadable (rt : Runtime) (lib : LintLibrary) (f : AuditFindingSchema) (ctrl : Control) :
    Prop :=
  claimsEffective f = true → ∀ quoted, quotedLength lib f = some quoted →
    (rt.intOfStr quoted).isSome = true ∧
      ∀ digits, requiredLength lib ctrl = some digits → (rt.intOfStr digits).isSome = true

theorem returns_readInt_iff {digits : Str} :
    (readInt rt digits).Returns ↔ (rt.intOfStr digits).isSome = true := by
  unfold readInt
  cases rt.intOfStr digits with
  | none => simp [Except.orRaise]
  | some n => simp [Except.orRaise]

theorem returns_requiredMinimum_iff {ctrl : Control} :
    (requiredMinimum rt lib ctrl).Returns ↔
      ∀ digits, requiredLength lib ctrl = some digits → (rt.intOfStr digits).isSome = true := by
  unfold requiredMinimum
  cases requiredLength lib ctrl with
  | none => simp
  | some digits => simp [returns_readInt_iff]

theorem returns_thresholdTrap_iff {control : Option Control} :
    (thresholdTrap rt lib f control).Returns ↔
      ∀ ctrl, control = some ctrl → LengthsReadable rt lib f ctrl := by
  unfold thresholdTrap LengthsReadable
  cases control with
  | none => simp
  | some ctrl =>
      simp only [Option.some.injEq, forall_eq']
      cases quotedLength lib f with
      | none => simp
      | some quoted =>
          cases claimsEffective f with
          | false => simp
          | true =>
              simp only [if_true, Option.some.injEq, forall_eq', forall_const]
              rw [Except.returns_bind_iff, ← returns_readInt_iff, ← returns_requiredMinimum_iff]
              constructor
              · intro h
                obtain ⟨actual, hactual, h⟩ := h
                rw [Except.returns_bind_of_total fun _ => Except.returns_pure _] at h
                exact ⟨⟨actual, hactual⟩, h⟩
              · intro h
                obtain ⟨⟨actual, hactual⟩, h⟩ := h
                refine ⟨actual, hactual, ?_⟩
                rw [Except.returns_bind_of_total fun _ => Except.returns_pure _]
                exact h

theorem returns_trapRule_iff :
    (trapRule rt lib ctx f).Returns ↔
      (trapped f = true → ∀ ctrl, ctx.controls.get? f.controlId = some ctrl →
        LengthsReadable rt lib f ctrl) := by
  unfold trapRule
  cases trapped f with
  | false => simp
  | true =>
      rw [if_pos rfl, Except.returns_bind_of_total fun _ => Except.returns_pure _,
        returns_thresholdTrap_iff]
      exact ⟨fun h _ => h, fun h => h rfl⟩

/-! ## All rules -/

/-- A finding that no rule raises over. -/
structure FindingLintable (rt : Runtime) (vlib : VaultLibrary) (lib : LintLibrary)
    (ctx : LintContext) (f : AuditFindingSchema) : Prop where
  counts : CountsReadable f
  quote : QuoteReadable rt vlib ctx f
  period : ∀ ctrl, ctx.controls.get? f.controlId = some ctrl →
    ctrl.testingProcedures.periodOfReliance.getD [] ≠ [] → f.vaultIdReference ≠ [] →
      PeriodReadable rt lib ctx.vault f.vaultIdReference
        (ctrl.testingProcedures.periodOfReliance.getD [])
  lengths : trapped f = true → ∀ ctrl, ctx.controls.get? f.controlId = some ctrl →
    LengthsReadable rt lib f ctrl

/-- The rules on a valid finding return exactly when it is lintable. -/
theorem returns_lintFinding_iff (hvalid : f.Valid) :
    (lintFinding rt vlib lib ctx f).Returns ↔ FindingLintable rt vlib lib ctx f := by
  unfold lintFinding findingRules
  rw [Except.returns_map_iff, Except.returns_mapM_iff]
  simp only [List.forall_mem_cons, List.not_mem_nil, false_implies, implies_true, and_true]
  rw [returns_arithmeticRule_iff, returns_quoteRule_iff hvalid, returns_periodRule_iff,
    returns_deviationRule_iff hvalid, returns_trapRule_iff]
  constructor
  · rintro ⟨hwritten, -, hquote, -, hperiod, hdivided, hlengths, -⟩
    exact ⟨⟨hwritten, hdivided⟩, hquote, hperiod, hlengths⟩
  · intro h
    exact ⟨h.counts.written, Except.returns_ok _, h.quote, Except.returns_ok _, h.period,
      h.counts.divided, h.lengths, Except.returns_ok _⟩

end Linters

end AuditSwarm
