import AuditSwarm.Model.Findings
import Mathlib.Data.Prod.Lex
import Mathlib.Data.List.Sort

/-!
# Prowler findings

The import of a Prowler file by `findings_checks.py`: its records, and the summary that is
registered as evidence.  A file is modelled by the JSON value it decodes to.
-/

namespace AuditSwarm

open Python Findings

structure NormalizedFinding where
  checkId : Str
  title : Str
  status : Str
  severity : Str
  region : Option Str
  resourceUid : Option Str
  statusDetail : Str
  compliance : List Str := []
  extraResources : Nat := 0
  deriving DecidableEq

structure ProwlerParseResult where
  format : Str
  findings : List NormalizedFinding
  errors : List Str
  toolVersion : Option Str
  generatedAt : Option Str

namespace Prowler

variable (rt : Runtime) (flib : FindingsLibrary)

/-! ## Records -/

/-- One line of `_flatten_compliance` -/
def complianceEntry (framework : Str) (reqs : Json) : Str :=
  let reqsText := match reqs with
    | .arr rs => join (lit ", ") (rs.map rt.textOf)
    | reqs => rt.textOf reqs
  cleanText flib (if reqsText = [] then framework else framework ++ lit ": " ++ reqsText)
    truncateDetail

def flattenCompliance (value : Option Json) : List Str :=
  match value with
  | some (.obj members) => members.map fun kv => complianceEntry rt flib kv.1 kv.2
  | _ => []

def normalizeOcsfRecord (rec : Dict Str Json) : Except Str NormalizedFinding :=
  let metadata := dictField rec (lit "metadata")
  let findingInfo := dictField rec (lit "finding_info")
  let unmapped := dictField rec (lit "unmapped")
  let resources := listField rec (lit "resources")
  let first := firstResource resources
  match orElse (metadata.get? (lit "event_code")) (findingInfo.get? (lit "uid")) with
  | some checkId =>
      if checkId.truthy then
        .ok
          { checkId := cleanField rt flib checkId truncateDetail
            title := cleanField rt flib
              ((orElse (findingInfo.get? (lit "title")) none).getD checkId) truncateDetail
            status := flib.upper (cleanField rt flib (orText
              (orElse (rec.get? (lit "status_code")) (rec.get? (lit "status")))
              (lit "UNKNOWN")) truncateShort)
            severity := rt.lower (cleanField rt flib
              (orText (rec.get? (lit "severity")) (lit "unknown")) truncateShort)
            region := cleanOptional rt flib (orElse (first.get? (lit "region"))
              ((dictField rec (lit "cloud")).get? (lit "region"))) truncateShort
            resourceUid := cleanOptional rt flib (orElse (first.get? (lit "uid"))
              (first.get? (lit "name"))) truncateResource
            statusDetail := cleanField rt flib (orText (rec.get? (lit "status_detail")) [])
              truncateDetail
            compliance := flattenCompliance rt flib (unmapped.get? (lit "compliance"))
            extraResources := resources.length - 1 }
      else .error (lit "OCSF record has neither metadata.event_code nor finding_info.uid")
  | none => .error (lit "OCSF record has neither metadata.event_code nor finding_info.uid")

def normalizeLegacyRecord (rec : Dict Str Json) : Except Str NormalizedFinding :=
  match rec.get? (lit "CheckID") with
  | some checkId =>
      if checkId.truthy then
        .ok
          { checkId := cleanField rt flib checkId truncateDetail
            title := cleanField rt flib
              ((orElse (rec.get? (lit "CheckTitle")) none).getD checkId) truncateDetail
            status := flib.upper (cleanField rt flib
              (orText (rec.get? (lit "Status")) (lit "UNKNOWN")) truncateShort)
            severity := rt.lower (cleanField rt flib
              (orText (rec.get? (lit "Severity")) (lit "unknown")) truncateShort)
            region := cleanOptional rt flib (rec.get? (lit "Region")) truncateShort
            resourceUid := cleanOptional rt flib
              (orElse (rec.get? (lit "ResourceArn")) (rec.get? (lit "ResourceId")))
              truncateResource
            statusDetail := cleanField rt flib (orText (rec.get? (lit "StatusExtended")) [])
              truncateDetail
            compliance := flattenCompliance rt flib (rec.get? (lit "Compliance")) }
      else .error (lit "legacy Prowler record has no CheckID")
  | none => .error (lit "legacy Prowler record has no CheckID")

def isOcsfRecord (rec : Dict Str Json) : Bool :=
  rec.contains (lit "finding_info") || rec.contains (lit "status_code") ||
    rec.contains (lit "class_uid")

/-- One record of the file, by its index: the finding, or the error that is reported for it. -/
def parseRecord (index : Nat) : Json → Except Str NormalizedFinding
  | .obj rec =>
      (if isOcsfRecord rec then normalizeOcsfRecord rt flib rec
        else normalizeLegacyRecord rt flib rec).mapError fun e =>
          lit "record #" ++ decimal (index + 1) ++ lit ": " ++ cleanText flib e truncateDetail
  | _ => .error (lit "record #" ++ decimal (index + 1) ++ lit ": not a JSON object")

/-- The loop over the records: the findings and the errors, in their order. -/
def parseRecordsFrom : Nat → List Json → List NormalizedFinding × List Str
  | _, [] => ([], [])
  | index, rec :: data =>
      let rest := parseRecordsFrom (index + 1) data
      match parseRecord rt flib index rec with
      | .ok f => (f :: rest.1, rest.2)
      | .error e => (rest.1, e :: rest.2)

/-! ## The file -/

/-- `_prowler_tool_version` -/
def toolVersion : List Json → Option Str
  | [] => none
  | .obj rec :: records =>
      match (dictField (dictField rec (lit "metadata")) (lit "product")).get? (lit "version") with
      | some version =>
          if version.truthy then some (cleanField rt flib version truncateShort)
          else toolVersion records
      | none => toolVersion records
  | _ :: records => toolVersion records

/-- `value is not None` -/
def isPresent : Json → Bool
  | .null => false
  | _ => true

def recordTimes : Json → List Json
  | .obj rec =>
      ([lit "time", lit "time_dt"].filterMap fun key =>
        (Dict.get? rec key).filter isPresent) ++
      (((dictField rec (lit "finding_info")).get? (lit "created_time_dt")).filter
        Json.truthy).toList
  | _ => []

/-- `_prowler_generated_at` -/
def generatedAt (records : List Json) : Option Str :=
  match records.flatMap recordTimes with
  | [] => none
  | t :: times =>
      some (cleanField rt flib
        (times.foldl (fun latest t => if rt.textOf latest < rt.textOf t then t else latest) t)
        truncateShort)

/-- The format of the first record that is an object. -/
def formatOf : List Json → Str
  | [] => lit "unknown"
  | .obj rec :: _ => if isOcsfRecord rec then lit "ocsf" else lit "legacy"
  | _ :: records => formatOf records

/-- `type(data).__name__` -/
def typeName : Json → Str
  | .null => lit "NoneType"
  | .bool _ => lit "bool"
  | .int _ => lit "int"
  | .float _ => lit "float"
  | .str _ => lit "str"
  | .arr _ => lit "list"
  | .obj _ => lit "dict"

def parseProwlerFindings : Json → Except Str ProwlerParseResult
  | .arr [] => .error (lit "Prowler findings file contains no records.")
  | .arr data =>
      let parsed := parseRecordsFrom rt flib 0 data
      .ok
        { format := formatOf data
          findings := parsed.1
          errors := parsed.2
          toolVersion := toolVersion rt flib data
          generatedAt := generatedAt rt flib data }
  | data => .error (lit "Prowler findings file must be a JSON array of finding records (got " ++
      typeName data ++ lit ")")

/-! ## The summary -/

abbrev FindingKey := Bool ×ₗ Nat

def findingKey (f : NormalizedFinding) : FindingKey :=
  toLex (f.status ≠ lit "FAIL", severityRank rt f.severity)

/-- `min` of the keys of a group, which is never empty -/
def smallestKey : List NormalizedFinding → FindingKey
  | [] => toLex (true, 0)
  | f :: group => group.foldl (fun m g => min m (findingKey rt g)) (findingKey rt f)

abbrev CheckKey := FindingKey ×ₗ Str

def checkKey (check : Str × List NormalizedFinding) : CheckKey :=
  toLex (smallestKey rt check.2, check.1)

/-- The checks of the findings, in the order of the summary. -/
def checks (findings : List NormalizedFinding) : List (Str × List NormalizedFinding) :=
  ((groupBy NormalizedFinding.checkId findings).insertionSort
    fun a b => checkKey rt a ≤ checkKey rt b).map fun check =>
      (check.1, check.2.insertionSort fun f g => findingKey rt f ≤ findingKey rt g)

/-- A check of the summary: its findings, of which the first `shown` have a detail line. -/
structure CheckBlock where
  checkId : Str
  group : List NormalizedFinding
  shown : Nat

/-- The loop over the checks, `printed` detail lines having been written. -/
def blocksFrom : Nat → List (Str × List NormalizedFinding) → List CheckBlock
  | _, [] => []
  | printed, check :: rest =>
      let shown := min check.2.length (maxDetailLines - printed)
      ⟨check.1, check.2, shown⟩ :: blocksFrom (printed + shown) rest

def blocks (findings : List NormalizedFinding) : List CheckBlock :=
  blocksFrom 0 (checks rt findings)

inductive Line where
  | source (format toolVersion generatedAt : Str)
  | honesty
  | blank
  | summary (parsed : Nat) (counts : Dict Str Nat) (errors : Nat)
  | byCheck
  | header (checkId title : Str) (counts : Dict Str Nat)
  | detail (f : NormalizedFinding)
  | unlisted (n : Nat)
  | omitted (n : Nat)
  | unparseable
  | error (text : Str)

def CheckBlock.lines (b : CheckBlock) : List Line :=
  [.header b.checkId ((b.group.head?.map (·.title)).getD [])
    (statusCounts (b.group.map (·.status)))] ++
  (b.group.take b.shown).map .detail ++
  (if b.shown < b.group.length then [.unlisted (b.group.length - b.shown)] else [])

def omittedCount (bs : List CheckBlock) : Nat :=
  (bs.map fun b => b.group.length - b.shown).sum

def summaryLines (result : ProwlerParseResult) : List Line :=
  let bs := blocks rt result.findings
  [.source result.format (orDefault result.toolVersion (lit "not present in file"))
      (orDefault result.generatedAt (lit "not present in file")),
    .honesty, .blank,
    .summary result.findings.length (statusCounts (result.findings.map (·.status)))
      result.errors.length,
    .blank, .byCheck] ++
  bs.flatMap CheckBlock.lines ++
  (if omittedCount bs = 0 then [] else [.omitted (omittedCount bs)]) ++
  (if result.errors = [] then []
    else [.blank, .unparseable] ++ (result.errors.take maxDetailLines).map .error)

def Line.text : Line → Str
  | source format version latest =>
      lit "Prowler findings import (format: " ++ (format ++ (lit ", tool version: " ++
        (version ++ (lit ", latest finding timestamp in file: " ++ (latest ++ lit ")")))))
  | honesty => honestyNote
  | blank => []
  | summary parsed counts errors =>
      lit "Summary: " ++ (decimal parsed ++ (lit " findings parsed, " ++ (countsText counts ++
        if errors = 0 then []
        else lit ", " ++ (decimal errors ++ lit " unparseable record(s) skipped"))))
  | byCheck =>
      lit "Findings by check (checks with a FAIL first, then by severity; every " ++
        lit "check's header line gives its complete per-status counts):"
  | header checkId title counts =>
      lit "- " ++ (checkId ++ (lit " (" ++ (title ++ (lit "): " ++ countsText counts))))
  | detail f =>
      lit "    [" ++ (f.status ++ (lit "] severity=" ++ (f.severity ++ (lit " region=" ++
        (orDefault f.region (lit "unknown region") ++ (lit " resource=" ++
          (orDefault f.resourceUid (lit "unknown resource") ++
            ((if f.extraResources = 0 then []
              else lit " (+" ++ (decimal f.extraResources ++ lit " more resource(s))")) ++
              (lit " status_detail=\"" ++ (f.statusDetail ++ (lit "\"" ++
                if f.compliance = [] then []
                else lit "; compliance=" ++ listText rt f.compliance)))))))))))
  | unlisted n =>
      lit "    ... " ++ (decimal n ++ lit (" finding line(s) for this check not listed (detail " ++
        "limit reached); counted in the header above."))
  | omitted n =>
      lit "... " ++ (decimal n ++ (lit " further finding(s) omitted from this listing (limit: " ++
        (decimal maxDetailLines ++ lit (" detail lines); the per-check header lines and the " ++
          "overall Summary line above include them."))))
  | unparseable => lit "Unparseable records (skipped, not counted as findings):"
  | error text => lit "- " ++ text

def buildProwlerSummary (result : ProwlerParseResult) : Str :=
  join (lit "\n") ((summaryLines rt result).map (Line.text rt))

end Prowler

end AuditSwarm
