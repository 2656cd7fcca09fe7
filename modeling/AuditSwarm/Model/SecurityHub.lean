import AuditSwarm.Model.Findings
import Mathlib.Data.Prod.Lex
import Mathlib.Data.List.Sort

/-!
# Security Hub findings

The import of Security Hub findings by `findings_checks.py`: the pages of `GetFindings`, up to a
limit, the records in ASFF, and the summary that is registered as evidence.
-/

namespace AuditSwarm

open Python Findings

structure NormalizedSecurityHubFinding where
  findingId : Str
  title : Str
  complianceStatus : Str
  severityLabel : Str
  recordState : Str
  workflowStatus : Str
  generatorId : Str
  productName : Str
  region : Option Str
  resourceUid : Option Str
  description : Str
  relatedRequirements : List Str := []
  extraResources : Nat := 0
  deriving DecidableEq

structure SecurityHubParseResult where
  findings : List NormalizedSecurityHubFinding
  errors : List Str

namespace SecurityHub

variable (rt : Runtime) (flib : FindingsLibrary)

/-! ## Pages -/

/-- A page of `GetFindings`: its `Findings` and its `NextToken`, when it has them. -/
structure FindingsPage (α : Type) where
  findings : Option (List α)
  nextToken : Option Str

/-- `page.get("Findings", [])` -/
def FindingsPage.read {α : Type} (page : FindingsPage α) : List α := page.findings.getD []

/-- The loop of `collect_securityhub_findings`, `findings` being what it has read so far. -/
def collectFrom {α : Type} (maxFindings : Int) :
    List α → List (FindingsPage α) → List α × Bool
  | findings, [] => (findings, false)
  | findings, page :: pages =>
      let remaining := maxFindings - findings.length
      if remaining ≤ 0 then (findings, true)
      else if remaining < page.read.length then
        (findings ++ page.read.take remaining.toNat,
          page.nextToken.isSome || remaining < page.read.length)
      else collectFrom maxFindings (findings ++ page.read) pages

def collectSecurityhubFindings {α : Type} (pages : List (FindingsPage α)) (maxFindings : Int) :
    List α × Bool :=
  collectFrom maxFindings [] pages

/-! ## Filters -/

structure FilterCondition where
  value : Str
  comparison : Str

def narrowing (name : Str) (value : Option Str) : Dict Str (List FilterCondition) :=
  if value.getD [] = [] then [] else [(name, [⟨value.getD [], lit "EQUALS"⟩])]

def buildSecurityhubFilters (productName generatorId complianceStatus : Option Str) :
    Dict Str (List FilterCondition) :=
  [(lit "RecordState", [⟨lit "ACTIVE", lit "EQUALS"⟩]),
    (lit "WorkflowStatus", [⟨lit "SUPPRESSED", lit "NOT_EQUALS"⟩])] ++
  narrowing (lit "ProductName") productName ++
  narrowing (lit "GeneratorId") generatorId ++
  narrowing (lit "ComplianceStatus") complianceStatus

def filterDesc (filters : Dict Str (List FilterCondition)) : Str :=
  cleanText flib (join (lit ", ") (filters.sortByKey.map fun filter =>
    filter.1 ++ lit "=" ++ listText rt (filter.2.map (·.value)))) 1024

/-! ## Records -/

/-- `text.rsplit("/", 1)[-1]` -/
def afterLastSlash (text : Str) : Str := text.rtakeWhile (· ≠ 47)

def productNameOf (rec : Dict Str Json) : Json :=
  match (dictField rec (lit "ProductFields")).get? (lit "aws/securityhub/ProductName") with
  | some name => if name.truthy then name else fromArn
  | none => fromArn
where
  fromArn : Json :=
    let productArn := rt.textOf (orText (rec.get? (lit "ProductArn")) [])
    .str (if productArn = [] then lit "unknown" else afterLastSlash productArn)

def shortUpper (value : Json) : Str := flib.upper (cleanField rt flib value truncateShort)

def normalizeAsffRecord (rec : Dict Str Json) : Except Str NormalizedSecurityHubFinding :=
  let compliance := dictField rec (lit "Compliance")
  let severity := dictField rec (lit "Severity")
  let workflow := dictField rec (lit "Workflow")
  let resources := listField rec (lit "Resources")
  let first := firstResource resources
  match rec.get? (lit "Id") with
  | some findingId =>
      if findingId.truthy then
        .ok
          { findingId := cleanField rt flib findingId truncateResource
            title := cleanField rt flib
              ((orElse (rec.get? (lit "Title")) none).getD findingId) truncateDetail
            complianceStatus := shortUpper rt flib
              (orText (compliance.get? (lit "Status")) (lit "NOT_AVAILABLE"))
            severityLabel := shortUpper rt flib
              (orText (severity.get? (lit "Label")) (lit "UNKNOWN"))
            recordState := shortUpper rt flib
              (orText (rec.get? (lit "RecordState")) (lit "UNKNOWN"))
            workflowStatus := shortUpper rt flib (orText
              (orElse (workflow.get? (lit "Status")) (rec.get? (lit "WorkflowState")))
              (lit "UNKNOWN"))
            generatorId := cleanField rt flib
              (orText (rec.get? (lit "GeneratorId")) (lit "unknown")) truncateDetail
            productName := cleanField rt flib (productNameOf rt rec) truncateDetail
            region := cleanOptional rt flib (first.get? (lit "Region")) truncateShort
            resourceUid := cleanOptional rt flib (first.get? (lit "Id")) truncateResource
            description := cleanField rt flib (orText (rec.get? (lit "Description")) [])
              truncateDetail
            relatedRequirements := (listField compliance (lit "RelatedRequirements")).map
              fun r => cleanField rt flib r truncateDetail
            extraResources := resources.length - 1 }
      else .error (lit "ASFF record has no Id")
  | none => .error (lit "ASFF record has no Id")

/-- One record of the read, by its index: the finding, or the error that is reported for it. -/
def parseRecord (index : Nat) : Json → Except Str NormalizedSecurityHubFinding
  | .obj rec => (normalizeAsffRecord rt flib rec).mapError fun e =>
      lit "finding #" ++ decimal (index + 1) ++ lit ": " ++ cleanText flib e truncateDetail
  | _ => .error (lit "finding #" ++ decimal (index + 1) ++ lit ": not a JSON object")

def parseAsffRecordsFrom : Nat → List Json → SecurityHubParseResult
  | _, [] => ⟨[], []⟩
  | index, rec :: records =>
      let rest := parseAsffRecordsFrom (index + 1) records
      match parseRecord rt flib index rec with
      | .ok f => { rest with findings := f :: rest.findings }
      | .error e => { rest with errors := e :: rest.errors }

def parseAsffRecords (records : List Json) : SecurityHubParseResult :=
  parseAsffRecordsFrom rt flib 0 records

/-! ## The summary -/

abbrev OrderKey := Bool ×ₗ Nat ×ₗ Str ×ₗ Str

def orderKey (f : NormalizedSecurityHubFinding) : OrderKey :=
  toLex (f.complianceStatus ≠ lit "FAILED",
    toLex (severityRank rt f.severityLabel, toLex (f.generatorId, f.findingId)))

def ordered (findings : List NormalizedSecurityHubFinding) : List NormalizedSecurityHubFinding :=
  findings.insertionSort fun f g => orderKey rt f ≤ orderKey rt g

def listed (findings : List NormalizedSecurityHubFinding) : List NormalizedSecurityHubFinding :=
  (ordered rt findings).take maxDetailLines

def rest (findings : List NormalizedSecurityHubFinding) : List NormalizedSecurityHubFinding :=
  (ordered rt findings).drop maxDetailLines

def generatorCounts (findings : List NormalizedSecurityHubFinding) : Dict Str (Dict Str Nat) :=
  (groupBy (·.generatorId) findings).sortByKey.mapValues fun group =>
    statusCounts (group.map (·.complianceStatus))

inductive Line where
  | source (filterDesc : Str)
  | honesty
  | blank
  | summary (read : Nat) (truncated : Bool) (counts : Dict Str Nat) (errors : Nat)
  | findings
  | detail (f : NormalizedSecurityHubFinding)
  | omitted (n : Nat)
  | generator (generatorId : Str) (counts : Dict Str Nat)
  | unparseable
  | error (text : Str)

def summaryLines (result : SecurityHubParseResult) (filters : Dict Str (List FilterCondition))
    (truncated : Bool) : List Line :=
  let rest := rest rt result.findings
  [.source (filterDesc rt flib filters), .honesty, .blank,
    .summary result.findings.length truncated
      (statusCounts (result.findings.map (·.complianceStatus))) result.errors.length,
    .blank, .findings] ++
  (listed rt result.findings).map .detail ++
  (if rest = [] then []
    else .omitted rest.length :: (generatorCounts rest).map fun g => .generator g.1 g.2) ++
  (if result.errors = [] then []
    else [.blank, .unparseable] ++ (result.errors.take maxDetailLines).map .error)

def Line.text : Line → Str
  | source filterDesc =>
      lit "AWS Security Hub findings import (GetFindings, filters: " ++ (filterDesc ++ lit ")")
  | honesty => honestyNote
  | blank => []
  | summary read truncated counts errors =>
      lit "Summary: " ++ (decimal read ++ (lit " findings read" ++
        ((if truncated then lit " (truncated at the configured limit; more findings exist)"
          else []) ++
          (lit ", " ++ (countsText counts ++
            if errors = 0 then []
            else lit ", " ++ (decimal errors ++ lit " unparseable record(s) skipped"))))))
  | findings => lit "Findings:"
  | detail f =>
      lit "- [" ++ (f.complianceStatus ++ (lit "] " ++ (f.generatorId ++ (lit " (" ++ (f.title ++
        (lit ") severity=" ++ (f.severityLabel ++ (lit " product=" ++ (f.productName ++
          (lit " region=" ++ (orDefault f.region (lit "unknown region") ++ (lit " resource=" ++
            (orDefault f.resourceUid (lit "unknown resource") ++
              ((if f.extraResources = 0 then []
                else lit " (+" ++ (decimal f.extraResources ++ lit " more resource(s))")) ++
                (lit " record_state=" ++ (f.recordState ++ (lit " workflow_status=" ++
                  (f.workflowStatus ++ (lit " description=\"" ++ (f.description ++ (lit "\"" ++
                    ((if f.relatedRequirements = [] then []
                      else lit "; related_requirements=" ++
                        listText rt f.relatedRequirements) ++
                      (lit " id=" ++ f.findingId)))))))))))))))))))))))
  | omitted n =>
      lit "... " ++ (decimal n ++ (lit " further finding(s) omitted from this listing (limit: " ++
        (decimal maxDetailLines ++ lit ("; FAILED and higher-severity findings " ++
          "are listed first). Omitted findings by generator, with counts:"))))
  | generator generatorId counts =>
      lit "  - " ++ (generatorId ++ (lit ": " ++ countsText counts))
  | unparseable => lit "Unparseable records (skipped, not counted as findings):"
  | error text => lit "- " ++ text

def buildSecurityhubSummary (result : SecurityHubParseResult)
    (filters : Dict Str (List FilterCondition)) (truncated : Bool) : Str :=
  join (lit "\n") ((summaryLines rt flib result filters truncated).map (Line.text rt))

/-- What `get_securityhub_findings` registers as evidence; `paginate` is what `GetFindings` yields
under a filter. -/
def getSecurityhubFindings (paginate : Dict Str (List FilterCondition) → List (FindingsPage Json))
    (productName generatorId complianceStatus : Option Str) (maxFindings : Int) : Str :=
  let filters := buildSecurityhubFilters productName generatorId complianceStatus
  let raw := collectSecurityhubFindings (paginate filters) maxFindings
  buildSecurityhubSummary rt flib (parseAsffRecords rt flib raw.1) filters raw.2

end SecurityHub

end AuditSwarm
