import AuditSwarm.Model.Vault
import AuditSwarm.Python.Calendar
import AuditSwarm.Python.Regex

/-!
# Linter of the working papers

`lint_working_papers` of `linters.py` with `lint_distortion_traps`, and `vault_metadata` of
`oscal_ar.py`, which it reads the collection date of a vault record with.  The tolerable deviation
rate is the default one, which every caller uses.
-/

namespace AuditSwarm

open Python
open StrEnum (value)

/-! ## Exceptions and numbers -/

/-- The exceptions of the linter: its own, and those of a vault record it reads. -/
inductive LintError where
  | valueError
  | overflowError
  | vault (e : Evidence.VaultError)
  deriving DecidableEq

def LintError.className : LintError → Str
  | valueError => lit "ValueError"
  | overflowError => lit "OverflowError"
  | vault e => e.className

def LintError.toRaised (e : LintError) : Raised := ⟨e.className, []⟩

/-- A date and time read from a text: microseconds from the first day on, and the offset of its
timezone if it has one. -/
structure ParsedDatetime where
  micros : Nat
  offset : Option Int

/-- What the linter uses of `re`, of `datetime` and of float formatting. -/
structure LintLibrary extends CharClasses where
  /-- `datetime.fromisoformat`; `none` is a `ValueError` -/
  parseDatetime : Str → Option ParsedDatetime
  /-- The text of `a / b` as a percentage with one decimal -/
  percent : Nat → Nat → Str

namespace Linters

/-- The digits of a number that `str(int)` is ready to write. -/
def maxDigits : Nat := 4300

/-- `str(n)`, which refuses a number with too many digits. -/
def textOfNat (n : Nat) : Except LintError Str :=
  if (decimal n).length ≤ maxDigits then .ok (decimal n) else .error .valueError

/-- `a / b` is below the largest `float`; beyond it the division raises an `OverflowError`. -/
def floatFinite (a b : Nat) : Prop := a < b * (2 ^ 1024 - 2 ^ 970)

instance (a b : Nat) : Decidable (floatFinite a b) := inferInstanceAs (Decidable (_ < _))

/-- `a / b > 0.0`: the quotient is not rounded to zero. -/
def floatPositive (a b : Nat) : Bool := b < a * 2 ^ 1075

variable (rt : Runtime) (vlib : VaultLibrary) (lib : LintLibrary)

/-! ## Vault metadata -/

/-- `_line` of a record field. -/
def line (field : Option Json) : Str :=
  match field with
  | none | some .null => []
  | some j => join (lit " ") (words (rt.textOf j))

/-- `text.replace("Z", "+00:00")` -/
def replaceZ (text : Str) : Str := text.flatMap fun c => if c = 90 then lit "+00:00" else [c]

def microsPerDay : Nat := 86400000000

def utcDate (p : ParsedDatetime) : Except LintError Date :=
  let micros := (p.micros : Int) - p.offset.getD 0
  if h : 0 ≤ micros ∧ micros.toNat / microsPerDay + 1 ≤ maxOrdinal then
    .ok ⟨micros.toNat / microsPerDay + 1, Nat.le_add_left _ _, h.2⟩
  else .error .overflowError

/-- `oscal_datetime`: the date of the text it returns. -/
def oscalDatetime (field : Option Json) : Except LintError (Option Date) :=
  if line rt field = [] then .ok none
  else
    match lib.parseDatetime (replaceZ (line rt field)) with
    | none => .ok none
    | some p => (utcDate p).map some

structure EvidenceMeta where
  collected : Option Date
  source : Str

def recordMetadata (record : Dict Str Json) : Except LintError (Option EvidenceMeta) := do
  let collected ← oscalDatetime rt lib (record.get? (lit "timestamp"))
  return some ⟨collected, line rt (record.get? (lit "mcp_source"))⟩

def vaultMetadata (vault : Evidence.Vault) (vaultId : Str) :
    Except LintError (Option EvidenceMeta) :=
  if !Evidence.isUuid vaultId then .ok none
  else
    match vault.get? (vaultId ++ lit ".json") with
    | none => .ok none
    | some entry =>
        if !Evidence.Vault.inside entry then .ok none
        else
          match Evidence.Vault.load entry with
          | .error .runtimeError => .error (.vault .runtimeError)
          | .error _ => .ok none
          | .ok (.obj record) => recordMetadata rt lib record
          | .ok _ => .ok none

/-! ## Periods -/

/-- `\b(\d{4}-\d{2}-\d{2})\b` -/
def isoDatePattern : Regex :=
  let digit := Regex.one lib.digit
  .concat [.boundary, .group (.concat [.times 4 digit, .exactly "-", .times 2 digit,
    .exactly "-", .times 2 digit]), .boundary]

/-- A text of a pattern whatever the case of its letters. -/
def anyCase (s : String) : Regex := .text lib.sameLetter s

/-- `\bFY\s*(\d{4})\b` -/
def fiscalYearPattern : Regex :=
  .concat [.boundary, anyCase lib "FY", .star .space, .group (.times 4 (.one lib.digit)), .boundary]

/-- The dates a period names, if its first two dates can be read. -/
def isoBounds (period : Str) : Option (Date × Date) :=
  match Regex.findAll lib.word (isoDatePattern lib) period with
  | first :: second :: _ => do
      let start ← Date.fromIso first
      let stop ← Date.fromIso second
      return (start.earlier stop, start.later stop)
  | _ => none

def fiscalYear (digits : Str) : Option Nat := (rt.intOfStr digits).map Int.toNat

def yearBounds (digits : Str) : Option (Date × Date) := do
  let year ← fiscalYear rt digits
  let first ← Date.ofYmd year 1 1
  let last ← Date.ofYmd year 12 31
  return (first, last)

def extractYearBounds (period : Str) : Except LintError (Option (Date × Date)) :=
  if period = [] then .ok none
  else
    match isoBounds lib period with
    | some bounds => .ok (some bounds)
    | none =>
        match Regex.firstGroup lib.word (fiscalYearPattern lib) period with
        | none => .ok none
        | some digits => (Except.orRaise (yearBounds rt digits) .valueError).map some

/-! ## Rules -/

/-- What the rules read besides the finding they look at. -/
structure LintContext where
  findings : List AuditFindingSchema
  /-- `controls_by_id` -/
  controls : Dict Str Control
  vault : Evidence.Vault
  environ : Environ
  sessionId : Option Str
  verifyVaultQuotes : Bool

abbrev Rule := LintContext → AuditFindingSchema → Except LintError (List LintViolation)

/-- A violation of severity `error`, the default. -/
def violation (ruleId : String) (subjectId message : Str) : LintViolation :=
  ⟨lit ruleId, subjectId, message, lit "error"⟩

/-- The violation of noting more exceptions than items were tested. -/
def excessViolations (f : AuditFindingSchema) : Except LintError (List LintViolation) :=
  match f.itemsTested, f.exceptionsNoted with
  | some items, some exceptions =>
      if items < exceptions then do
        let exceptionsText ← textOfNat exceptions
        let itemsText ← textOfNat items
        return [violation "D2" f.controlId (lit "exceptions_noted (" ++ exceptionsText ++
          lit ") cannot exceed items_tested (" ++ itemsText ++ lit ").")]
      else .ok []
  | _, _ => .ok []

def arithmeticRule : Rule := fun _ f => do
  let counted ← excessViolations f
  let untested :=
    if f.result = some .notTested ∧ (0 < f.itemsTested.getD 0 ∨ 0 < f.exceptionsNoted.getD 0) then
      [violation "D2" f.controlId (lit ("A finding with result='Not tested' cannot report " ++
        "positive items_tested or exceptions_noted."))]
    else []
  return counted ++ untested

def flagText : Option Bool → Str
  | none => lit "None"
  | some true => lit "True"
  | some false => lit "False"

def resultText (result : Option FindingResult) : Str := (result.map value).getD (lit "None")

def deficiencyRule : Rule := fun _ f =>
  .ok (if f.preliminaryDeficiency ≠ some (decide (f.result = some .exception)) then
    [violation "D3" f.controlId (lit "preliminary_deficiency is " ++
      flagText f.preliminaryDeficiency ++ lit " but result is '" ++ resultText f.result ++
      lit "'.")]
  else [])

def quoteRule : Rule := fun ctx f =>
  let quote := strip f.exactQuoteFromEvidence
  let vid := strip f.vaultIdReference
  if !ctx.verifyVaultQuotes ∨ f.result = some .notTested then .ok []
  else if quote = [] ∨ vid = [] then
    .ok [violation "D11" f.controlId (lit ("Tested control finding must cite both " ++
      "vault_id_reference and exact_quote_from_evidence."))]
  else do
    let verified ← (Evidence.verifyExactQuote rt vlib ctx.environ ctx.vault vid quote
      ctx.sessionId).mapError LintError.vault
    return if verified then [] else
      [violation "D11" f.controlId (lit "Exact quote for " ++ f.controlId ++
        lit " failed verification against vault record '" ++ vid ++ lit "'.")]

/-- `_ITGC_RELIANCE_RE` -/
def itgcReliance : Regex :=
  let gap := Regex.opt (.anyOf [.exactly "-", .space])
  .anyOf [.concat [anyCase lib "change", gap, anyCase lib "management"], anyCase lib "itgc",
    .concat [anyCase lib "general", .plus .space, anyCase lib "it", .plus .space,
      anyCase lib "control"]]

/-- `_CONFIG_HISTORY_RE` -/
def configHistory : Regex :=
  let pair (a b : String) := Regex.concat [anyCase lib a, .plus .space, anyCase lib b]
  .anyOf [pair "aws" "config", pair "config" "history", pair "cloudtrail" "history",
    pair "historical" "log"]

/-- `_CHANGE_MGMT_CONTROL_RE` -/
def changeMgmtControl : Regex :=
  let gap := Regex.opt (.anyOf [.exactly "-", .space])
  .anyOf [.concat [anyCase lib "change", gap, anyCase lib "management"],
    .concat [anyCase lib "program", .plus .space, anyCase lib "change"], anyCase lib "cc8.1",
    .concat [anyCase lib "cm-", .plus (.one lib.digit)], anyCase lib "bai06", anyCase lib "chg"]

def changeMgmtIds (controls : Dict Str Control) : List Str :=
  let found := Regex.occursIn lib.word (changeMgmtControl lib)
  (controls.filter fun kv =>
    found kv.2.description || found kv.1 || kv.2.assertions.any found).map Prod.fst

def findingsById (findings : List AuditFindingSchema) : Dict Str AuditFindingSchema :=
  findings.foldl (fun d f => d.set f.controlId f) []

def relianceRule : Rule := fun ctx f =>
  let basis := f.toeBasis.getD []
  let ids := changeMgmtIds lib ctx.controls
  let failed := ids.filter fun id =>
    id ≠ f.controlId &&
      ((findingsById ctx.findings).get? id).map (·.toeConclusion) ≠ some .effective
  .ok (if f.toeConclusion = .effective ∧ basis ≠ [] ∧
      Regex.occursIn lib.word (itgcReliance lib) basis ∧
      ¬ Regex.occursIn lib.word (configHistory lib) basis ∧ ids ≠ [] ∧ failed ≠ [] then
    [violation "D8" f.controlId (lit "Control " ++ f.controlId ++
      lit " concludes ToE='Effective' by relying on Change Management ITGCs (" ++
      join (lit ", ") failed ++
      lit "), but those ITGC controls are not operating effectively in this engagement.")]
  else [])

/-- The buffer after the end of a period, in days. -/
def cutoffDays : Nat := 90

/-- Whether a date lies outside a period and its cutoff buffer. -/
def outsidePeriod (collected start stop : Date) : Except LintError Bool :=
  if collected.ordinal < start.ordinal then .ok true
  else do
    let cutoff ← Except.orRaise (stop.addDays cutoffDays) LintError.overflowError
    return cutoff.ordinal < collected.ordinal

/-- Rule D11: the collection date of the evidence, a warning. -/
def periodRule : Rule := fun ctx f =>
  match ctx.controls.get? f.controlId with
  | none => .ok []
  | some ctrl =>
      let period := ctrl.testingProcedures.periodOfReliance.getD []
      if period = [] ∨ f.vaultIdReference = [] then .ok []
      else do
        let found ← vaultMetadata rt lib ctx.vault f.vaultIdReference
        let bounds ← extractYearBounds rt lib period
        match found.bind (·.collected), bounds with
        | some collected, some (start, stop) => do
            let outside ← outsidePeriod collected start stop
            return if outside then
              [⟨lit "D11", f.controlId, lit "Evidence collection date (" ++ collected.isoFormat ++
                lit ") falls outside the control's period_of_reliance (" ++ start.isoFormat ++
                lit " to " ++ stop.isoFormat ++ lit ").", lit "warning"⟩]
            else []
        | _, _ => return []

def deviationRule : Rule := fun _ f =>
  let items := f.itemsTested.getD 0
  let exceptions := f.exceptionsNoted.getD 0
  if 0 < items ∧ 0 < exceptions then do
    Except.ensure (floatFinite exceptions items) LintError.overflowError
    if floatPositive exceptions items ∧ f.toeConclusion = .effective then do
      let exceptionsText ← textOfNat exceptions
      let itemsText ← textOfNat items
      return [violation "D12" f.controlId (lit "Deviation rate " ++ exceptionsText ++ lit "/" ++
        itemsText ++ lit " (" ++ lib.percent exceptions items ++
        lit ") exceeds tolerable rate (0.0%), so toe_conclusion cannot be 'Effective'.")]
    else return []
  else .ok []

/-! ## Distortion traps -/

def trapQuote (f : AuditFindingSchema) : Str := strip f.exactQuoteFromEvidence

def trapped (f : AuditFindingSchema) : Bool := f.result ≠ some .notTested && trapQuote f ≠ []

def claimsEffective (f : AuditFindingSchema) : Bool :=
  (f.todConclusion = .effective || f.toeConclusion = .effective) && f.result = some .noException

def keyValue (key : String) (v : Regex) : Regex :=
  .concat [anyCase lib key, .star .space, .exactly ":", .star .space, v]

def inversionPatterns : List (Regex × String) :=
  [(keyValue lib "\"MFA_Enabled\"" (anyCase lib "\"No\""), "quote shows MFA_Enabled is 'No'"),
    (keyValue lib "\"Verdict\"" (anyCase lib "\"PUBLIC\""),
      "quote shows bucket Verdict is 'PUBLIC'"),
    (anyCase lib "No IAM account password policy is set",
      "quote states no password policy is set"),
    (keyValue lib "\"BlockPublicAcls\"" (anyCase lib "false"),
      "quote shows BlockPublicAcls is false"),
    (keyValue lib "\"AccountMFAEnabled\"" (.concat [.exactly "0", .boundary]),
      "quote shows root AccountMFAEnabled is 0 (disabled)"),
    (keyValue lib "\"AccountAccessKeysPresent\""
      (.concat [.oneOf "123456789", .star (.one lib.digit), .boundary]),
      "quote shows root access keys are present")]

def inversionTrap (f : AuditFindingSchema) : List LintViolation :=
  if claimsEffective f then
    ((inversionPatterns lib).filter fun p => Regex.occursIn lib.word p.1 (trapQuote f)).map fun p =>
      violation "TRAP-1" f.controlId (lit "Polarity / Exception Inversion: " ++ lit p.2 ++
        lit ", but finding concludes '" ++ resultText f.result ++ lit "' (ToD=" ++
        value f.todConclusion ++ lit ", ToE=" ++ value f.toeConclusion ++ lit ").")
  else []

/-- Trap 2: the quote shows that something could not be read. -/
def scopeTrap (f : AuditFindingSchema) : List LintViolation :=
  let unread := Regex.anyOf [keyValue lib "\"Verdict\"" (anyCase lib "\"UNKNOWN\""),
    anyCase lib "\"AccessDenied\""]
  if claimsEffective f ∧ Regex.occursIn lib.word unread (trapQuote f) then
    [violation "TRAP-2" f.controlId (lit ("Scope Over-Generalization: evidence quote contains " ++
      "'UNKNOWN' or 'AccessDenied' (incomplete visibility), which cannot support an " ++
      "unqualified 'No exception' conclusion."))]
  else []

def isSnapshot (f : AuditFindingSchema) (control : Option Control) : Bool :=
  (f.itemsTested = none || f.itemsTested = some 1) &&
    match control with
    | none => true
    | some c => c.nature = some .automated || c.testingProcedures.samplingMethod = some .testOfOne

def snapshotTrap (f : AuditFindingSchema) (control : Option Control) : List LintViolation :=
  if f.toeConclusion = .effective ∧ isSnapshot f control ∧ strip (f.toeBasis.getD []) = [] then
    [violation "TRAP-3" f.controlId (lit ("Design-vs-Operating Confusion: finding concludes " ++
      "ToE='Effective' from a single point-in-time read without stating a 'toe_basis' (e.g. " ++
      "reliance on tested change-management ITGCs or configuration history covering the " ++
      "period)."))]
  else []

/-- The digits of a minimum password length in a quote. -/
def quotedLength (f : AuditFindingSchema) : Option Str :=
  Regex.firstGroup lib.word (.concat [anyCase lib "MinimumPasswordLength",
    .plus (.anyOf [.oneOf "\":=", .space]), .group (.plus (.one lib.digit))]) (trapQuote f)

def stepsText (c : Control) : Str :=
  join (lit " ") ((c.testingProcedures.testOfDesign ++
    c.testingProcedures.testOfEffectiveness).map fun s =>
      s.stepDescription ++ lit " " ++ s.expectedResult)

/-- The digits of the length the steps of a control require. -/
def requiredLength (c : Control) : Option Str :=
  let least := Regex.opt (.concat [anyCase lib "at", .star .space, anyCase lib "least",
    .star .space])
  Regex.firstGroup lib.word (.concat [
    .anyOf [.concat [anyCase lib "minimum", .plus .space, anyCase lib "length"],
      .concat [anyCase lib "at", .plus .space, anyCase lib "least"],
      .concat [.exactly ">", .opt (.exactly "=")]],
    .star .space, .opt (.concat [anyCase lib "of", .star .space, least]),
    .group (.plus (.one lib.digit))]) (stepsText c)

/-- `int(digits)`; a number that could be read can be written. -/
def readInt (digits : Str) : Except LintError Int :=
  Except.orRaise (rt.intOfStr digits) .valueError

/-- `req_len`: 14 if the steps state none. -/
def requiredMinimum (c : Control) : Except LintError Int :=
  match requiredLength lib c with
  | some digits => readInt rt digits
  | none => .ok 14

/-- Trap 4: the quoted password length is below the one required. -/
def thresholdTrap (f : AuditFindingSchema) (control : Option Control) :
    Except LintError (List LintViolation) :=
  match control, quotedLength lib f with
  | some c, some quoted =>
      if claimsEffective f then do
        let actual ← readInt rt quoted
        let required ← requiredMinimum rt lib c
        return if actual < required then
          [violation "TRAP-4" f.controlId (lit ("Quantitative Threshold Mismatch: evidence " ++
            "shows MinimumPasswordLength=") ++ decimalInt actual ++
            lit ", which is below the required threshold (" ++ decimalInt required ++
            lit "), yet finding concludes 'No exception'.")]
        else []
      else .ok []
  | _, _ => .ok []

def citationTrap (f : AuditFindingSchema) : List LintViolation :=
  let envelope := Regex.concat [.star (.anyOf [.oneOf "\x7b\x7d[]\",:", .space]),
    .anyOf [.exactly "\"AccountId\"", .exactly "\"ResponseMetadata\"", .exactly "\"RequestId\""],
    .upTo (.one fun _ => true) 40]
  if Regex.matchesAll lib.word envelope (trapQuote f) then
    [violation "TRAP-5" f.controlId (lit ("Citation Dumping: quote cites only generic envelope " ++
      "metadata rather than control-relevant configuration fields."))]
  else []

/-- `lint_distortion_traps` -/
def trapRule : Rule := fun ctx f =>
  let control := ctx.controls.get? f.controlId
  if trapped f then do
    let threshold ← thresholdTrap rt lib f control
    return inversionTrap lib f ++ scopeTrap lib f ++ snapshotTrap f control ++ threshold ++
      citationTrap lib f
  else .ok []

/-! ## Wording -/

def forbiddenSlopPhrases : List String :=
  ["delve", "delving", "tapestry", "testament to", "robust framework", "holistic approach",
    "synergy", "paradigm shift", "beacon of", "underscores the importance",
    "in today's rapidly evolving", "ever-changing landscape", "seamlessly integrated"]

/-- `_check_slop_text` on the conclusion of a finding: rule D14. -/
def slopRule : Rule := fun _ f =>
  let found (phrase : String) := Regex.occursIn lib.word
    (.concat [.notAfter lib.word, .exactly phrase, .notBefore lib.word]) (rt.lower f.testConclusion)
  .ok ((forbiddenSlopPhrases.filter found).map fun phrase =>
    violation "D14" f.controlId (lit "Forbidden AI-slop phrase '" ++ lit phrase ++
      lit "' detected in " ++ f.controlId ++ lit ". Use concise, factual audit prose."))

/-! ## The linter -/

/-- The rules for a finding, in the order of their violations. -/
def findingRules : List Rule :=
  [arithmeticRule, deficiencyRule, quoteRule rt vlib, relianceRule lib, periodRule rt lib,
    deviationRule lib, trapRule rt lib, slopRule rt lib]

def controlsById (racm : RiskControlMatrixSchema) : Dict Str Control :=
  (racm.risks.flatMap (·.controls)).foldl (fun d c => d.set c.controlId c) []

def coverageViolations (controls : Dict Str Control) (findings : List AuditFindingSchema) :
    List LintViolation :=
  let paperIds := findings.map (·.controlId)
  let missing := (controls.map Prod.fst).filter fun id => !paperIds.contains id
  let extra := paperIds.filter fun id => !controls.contains id
  let report (ids : List Str) (message : String) :=
    if ids = [] then []
    else [violation "D1" (join (lit ",") ids) (lit message ++ join (lit ", ") ids ++ lit ".")]
  report missing "Working papers are missing findings for RACM control(s): " ++
    report extra "Working papers contain findings for control ID(s) not in the RACM: "

def lintFinding (ctx : LintContext) (f : AuditFindingSchema) :
    Except LintError (List LintViolation) :=
  (List.mapM (fun rule : Rule => rule ctx f) (findingRules rt vlib lib)).map List.flatten

def lintContext (environ : Environ) (vault : Evidence.Vault) (papers : WorkingPaperSchema)
    (racm : RiskControlMatrixSchema) (sessionId : Option Str) (verifyVaultQuotes : Bool) :
    LintContext where
  findings := papers.findings
  controls := controlsById racm
  vault := vault
  environ := environ
  sessionId := sessionId
  verifyVaultQuotes := verifyVaultQuotes

def lintWorkingPapers (environ : Environ) (vault : Evidence.Vault) (papers : WorkingPaperSchema)
    (racm : RiskControlMatrixSchema) (sessionId : Option Str) (verifyVaultQuotes : Bool) :
    Except LintError LintReport := do
  let ctx := lintContext environ vault papers racm sessionId verifyVaultQuotes
  let found ← papers.findings.mapM (lintFinding rt vlib lib ctx)
  return ⟨coverageViolations ctx.controls papers.findings ++ found.flatten⟩

end Linters

end AuditSwarm
