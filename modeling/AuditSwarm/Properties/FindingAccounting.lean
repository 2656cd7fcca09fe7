import AuditSwarm.Findings.SummaryLines

/-!
# Accounting for Prowler records

A record of a Prowler file is one finding or one error, and the summary counts each finding once.
-/

namespace AuditSwarm

open Python Findings

namespace Prowler

variable {rt : Runtime} {flib : FindingsLibrary}

/-! ## Records -/

def failure {α : Type} : Except Str α → Option Str
  | .ok _ => none
  | .error e => some e

theorem length_outcomes {α : Type} (outcomes : List (Except Str α)) :
    (outcomes.filterMap Except.toOption).length + (outcomes.filterMap failure).length =
      outcomes.length := by
  induction outcomes with
  | nil => rfl
  | cons o outcomes ih =>
      cases o with
      | ok f =>
          simp only [List.filterMap_cons, Except.toOption, failure, List.length_cons]
          omega
      | error e =>
          simp only [List.filterMap_cons, Except.toOption, failure, List.length_cons]
          omega

/-- The loop over the records keeps the outcome of each, in their order. -/
theorem parseRecordsFrom_eq (index : Nat) (data : List Json) :
    parseRecordsFrom rt flib index data =
      ((data.mapIdx fun i => parseRecord rt flib (index + i)).filterMap Except.toOption,
        (data.mapIdx fun i => parseRecord rt flib (index + i)).filterMap failure) := by
  induction data generalizing index with
  | nil => rfl
  | cons rec data ih =>
      have hnext : (fun i => parseRecord rt flib (index + (i + 1))) =
          fun i => parseRecord rt flib (index + 1 + i) := by
        funext i
        rw [show index + (i + 1) = index + 1 + i by omega]
      rw [parseRecordsFrom, ih, List.mapIdx_cons, hnext]
      cases h : parseRecord rt flib index rec with
      | ok f => simp only [List.filterMap_cons, Except.toOption, failure]
      | error e => simp only [List.filterMap_cons, Except.toOption, failure]

/-! ## The summary -/

theorem text_of_headerCounts {line : Line} {counts : Dict Str Nat}
    (h : line.headerCounts = some counts) :
    ∃ check, line.text rt = check ++ countsText counts := by
  cases line with
  | header checkId title counts' =>
      cases h
      refine ⟨lit "- " ++ (checkId ++ (lit " (" ++ (title ++ lit "): "))), ?_⟩
      simp only [Line.text, List.append_assoc]
  | _ => cases h

theorem text_of_omittedFindings {line : Line} (h : line.omittedFindings ≠ 0) :
    ∃ rest, line.text rt = lit "... " ++ (decimal line.omittedFindings ++ rest) := by
  cases line with
  | omitted n => exact ⟨_, rfl⟩
  | _ => exact absurd rfl h

/-- What a file with the given records is accounted for by: every record is a finding or an error,
in the order of the file; the header lines of the summary's text count the findings, in all and by
status; and a finding that has no detail line is reported as omitted, in all and by check. -/
structure Accounted (rt : Runtime) (outcomes : List (Except Str NormalizedFinding))
    (result : ProwlerParseResult) : Prop where
  findings : result.findings = outcomes.filterMap Except.toOption
  errors : result.errors = outcomes.filterMap failure
  records : result.findings.length + result.errors.length = outcomes.length
  text : buildProwlerSummary rt result =
    join (lit "\n") ((summaryLines rt result).map (Line.text rt))
  counted : ∀ line ∈ summaryLines rt result, ∀ counts, line.headerCounts = some counts →
    ∃ check, line.text rt = check ++ countsText counts
  reported : ∀ line ∈ summaryLines rt result, line.omittedFindings ≠ 0 →
    ∃ rest, line.text rt = lit "... " ++ (decimal line.omittedFindings ++ rest)
  headers : (((summaryLines rt result).filterMap Line.headerCounts).map fun counts =>
    (counts.map Prod.snd).sum).sum = result.findings.length
  statuses : ∀ status, (((summaryLines rt result).filterMap Line.headerCounts).map fun counts =>
    (counts.get? status).getD 0).sum = result.findings.countP (·.status = status)
  details : ((summaryLines rt result).filterMap Line.detailed).length +
    ((summaryLines rt result).map Line.omittedFindings).sum = result.findings.length
  unlisted : ((summaryLines rt result).map Line.unlistedFindings).sum =
    ((summaryLines rt result).map Line.omittedFindings).sum

theorem accounted (outcomes : List (Except Str NormalizedFinding)) {result : ProwlerParseResult}
    (hfindings : result.findings = outcomes.filterMap Except.toOption)
    (herrors : result.errors = outcomes.filterMap failure) : Accounted rt outcomes result := by
  have hgroups := groups_perm rt result.findings
  constructor
  · exact hfindings
  · exact herrors
  · rw [hfindings, herrors, length_outcomes]
  · rfl
  · exact fun line _ counts hcounts => text_of_headerCounts hcounts
  · exact fun line _ homitted => text_of_omittedFindings homitted
  · rw [headerCounts_summaryLines, List.map_map]
    simp only [Function.comp_def, sum_statusCounts, List.length_map]
    rw [← List.length_flatMap, hgroups.length_eq]
  · intro status
    rw [headerCounts_summaryLines, List.map_map, ← hgroups.countP_eq, List.countP_flatMap]
    simp only [Function.comp_def, get?_statusCounts, List.count, List.countP_map, beq_eq_decide]
  · rw [detailed_summaryLines, omittedFindings_summaryLines, omittedCount_eq,
      ← List.length_append, (listed_append_omitted_perm rt result.findings).length_eq]
  · rw [omittedFindings_summaryLines, sum_summaryLines]
    · simp only [unlistedFindings_lines]
      rfl
    · intro line hline
      cases line with
      | unlisted n => cases hline
      | _ => rfl

/-- Every Prowler file that is a JSON array with elements is parsed, and its records are accounted
for. -/
theorem parseProwlerFindings_accounted (rt : Runtime) (flib : FindingsLibrary) (data : List Json)
    (hne : data ≠ []) :
    ∃ result, parseProwlerFindings rt flib (.arr data) = .ok result ∧
      Accounted rt (data.mapIdx (parseRecord rt flib)) result := by
  obtain ⟨rec, records, rfl⟩ := List.exists_cons_of_ne_nil hne
  refine ⟨_, rfl, accounted _ ?_ ?_⟩
  · rw [parseRecordsFrom_eq]
    simp only [Nat.zero_add]
  · rw [parseRecordsFrom_eq]
    simp only [Nat.zero_add]

namespace Sample

/-- A record in each of the two formats, a record without a check, and a record that is no
object. -/
def data : List Json :=
  [.obj [(lit "CheckID", .str (lit "iam_root_mfa")), (lit "Status", .str (lit "FAIL"))],
    .obj [(lit "status_code", .str (lit "PASS")),
      (lit "metadata", .obj [(lit "event_code", .str (lit "iam_root_mfa"))])],
    .obj [(lit "Status", .str (lit "FAIL"))], .int 7]

end Sample

theorem parseProwlerFindings_accounted_sample :
    ∃ result, parseProwlerFindings (.ascii Runtime.transparentDigest) .ascii (.arr Sample.data) =
        .ok result ∧
      Accounted (.ascii Runtime.transparentDigest)
        (Sample.data.mapIdx (parseRecord (.ascii Runtime.transparentDigest) .ascii)) result :=
  parseProwlerFindings_accounted _ _ Sample.data (List.cons_ne_nil _ _)

end Prowler

end AuditSwarm
