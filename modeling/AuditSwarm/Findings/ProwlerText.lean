import AuditSwarm.Findings.Blocks
import AuditSwarm.Findings.Fields

/-!
# The text of a Prowler summary

Every line of the summary of a parsed file is one line of text without a run of three angle
brackets.
-/

namespace AuditSwarm

open Python Findings

namespace Prowler

variable {rt : Runtime} {flib : FindingsLibrary}

/-! ## Findings -/

/-- A finding of cleaned fields. -/
structure Clean (f : NormalizedFinding) : Prop where
  checkId : Inert f.checkId
  title : Inert f.title
  status : Inert f.status
  severity : Inert f.severity
  region : ∀ s ∈ f.region, Inert s
  resourceUid : ∀ s ∈ f.resourceUid, Inert s
  statusDetail : Inert f.statusDetail
  compliance : ∀ s ∈ f.compliance, Inert s

theorem inert_flattenCompliance (value : Option Json) :
    ∀ s ∈ flattenCompliance rt flib value, Inert s := by
  intro s hs
  unfold flattenCompliance at hs
  split at hs
  · obtain ⟨kv, -, rfl⟩ := List.mem_map.mp hs
    exact inert_cleanText _ _
  · cases hs

theorem clean_normalizeOcsfRecord (hrt : PlainRendering rt flib) {rec : Dict Str Json}
    {f : NormalizedFinding} (h : normalizeOcsfRecord rt flib rec = .ok f) : Clean f := by
  unfold normalizeOcsfRecord at h
  dsimp only at h
  split at h
  · split at h
    · obtain rfl := Except.ok.inj h
      constructor
      · exact inert_cleanField _ _
      · exact inert_cleanField _ _
      · exact (hrt.upper _).inert (inert_cleanField _ _)
      · exact (hrt.lower _).inert (inert_cleanField _ _)
      · exact inert_cleanOptional _ _
      · exact inert_cleanOptional _ _
      · exact inert_cleanField _ _
      · exact inert_flattenCompliance _
    · cases h
  · cases h

theorem clean_normalizeLegacyRecord (hrt : PlainRendering rt flib) {rec : Dict Str Json}
    {f : NormalizedFinding} (h : normalizeLegacyRecord rt flib rec = .ok f) : Clean f := by
  unfold normalizeLegacyRecord at h
  split at h
  · split at h
    · obtain rfl := Except.ok.inj h
      constructor
      · exact inert_cleanField _ _
      · exact inert_cleanField _ _
      · exact (hrt.upper _).inert (inert_cleanField _ _)
      · exact (hrt.lower _).inert (inert_cleanField _ _)
      · exact inert_cleanOptional _ _
      · exact inert_cleanOptional _ _
      · exact inert_cleanField _ _
      · exact inert_flattenCompliance _
    · cases h
  · cases h

/-- The outcome of a record is a finding of cleaned fields, or an error of one line. -/
theorem parseRecord_clean (hrt : PlainRendering rt flib) (index : Nat) (rec : Json) :
    (∀ f, parseRecord rt flib index rec = .ok f → Clean f) ∧
      ∀ e, parseRecord rt flib index rec = .error e → Inert e := by
  have hother : Inert (lit "record #" ++ decimal (index + 1) ++ lit ": not a JSON object") := by
    rw [List.append_assoc]
    exact inert_plain_append (by decide)
      (inert_plain_append (plain_decimal _) (inert_of_plain (by decide)))
  cases rec with
  | obj rec =>
      rw [parseRecord]
      constructor
      · intro f h
        cases hparsed : (if isOcsfRecord rec then normalizeOcsfRecord rt flib rec
            else normalizeLegacyRecord rt flib rec) with
        | error e =>
            rw [hparsed] at h
            cases h
        | ok g =>
            rw [hparsed] at h
            obtain rfl := Except.ok.inj h
            split at hparsed
            · exact clean_normalizeOcsfRecord hrt hparsed
            · exact clean_normalizeLegacyRecord hrt hparsed
      · intro e h
        cases hparsed : (if isOcsfRecord rec then normalizeOcsfRecord rt flib rec
            else normalizeLegacyRecord rt flib rec) with
        | error cause =>
            rw [hparsed] at h
            obtain rfl := Except.error.inj h
            dsimp only
            rw [List.append_assoc, List.append_assoc]
            exact inert_plain_append (by decide) (inert_plain_append (plain_decimal _)
              (inert_plain_append (by decide) (inert_cleanText _ _)))
        | ok g =>
            rw [hparsed] at h
            cases h
  | _ =>
      rw [parseRecord]
      · exact ⟨fun f h => (by cases h), fun e h => Except.error.inj h ▸ hother⟩
      · intro kvs h
        cases h

theorem parseRecordsFrom_clean (hrt : PlainRendering rt flib) (index : Nat) (data : List Json) :
    (∀ f ∈ (parseRecordsFrom rt flib index data).1, Clean f) ∧
      ∀ e ∈ (parseRecordsFrom rt flib index data).2, Inert e := by
  induction data generalizing index with
  | nil => exact ⟨fun f hf => (by cases hf), fun e he => (by cases he)⟩
  | cons rec data ih =>
      obtain ⟨hfindings, herrors⟩ := ih (index + 1)
      obtain ⟨hok, herror⟩ := parseRecord_clean hrt index rec
      rw [parseRecordsFrom]
      cases h : parseRecord rt flib index rec with
      | ok f => exact ⟨List.forall_mem_cons.mpr ⟨hok f h, hfindings⟩, herrors⟩
      | error e => exact ⟨hfindings, List.forall_mem_cons.mpr ⟨herror e h, herrors⟩⟩

/-- A parsed file of cleaned fields. -/
structure CleanResult (result : ProwlerParseResult) : Prop where
  format : Plain result.format
  findings : ∀ f ∈ result.findings, Clean f
  errors : ∀ e ∈ result.errors, Inert e
  toolVersion : ∀ s ∈ result.toolVersion, Inert s
  generatedAt : ∀ s ∈ result.generatedAt, Inert s

theorem plain_formatOf (data : List Json) : Plain (formatOf data) := by
  induction data with
  | nil => decide
  | cons rec data ih =>
      cases rec with
      | obj rec =>
          rw [formatOf]
          split
          · decide
          · decide
      | _ => exact ih

theorem inert_toolVersion (data : List Json) : ∀ s ∈ toolVersion rt flib data, Inert s := by
  induction data with
  | nil =>
      intro s hs
      cases hs
  | cons rec data ih =>
      cases rec with
      | obj rec =>
          intro s hs
          rw [toolVersion] at hs
          split at hs
          · split at hs
            · obtain rfl := Option.some.inj hs
              exact inert_cleanField _ _
            · exact ih s hs
          · exact ih s hs
      | _ => exact ih

theorem inert_generatedAt (data : List Json) : ∀ s ∈ generatedAt rt flib data, Inert s := by
  intro s hs
  unfold generatedAt at hs
  split at hs
  · cases hs
  · obtain rfl := Option.some.inj hs
    exact inert_cleanField _ _

theorem cleanResult_parse (hrt : PlainRendering rt flib) {data : Json}
    {result : ProwlerParseResult} (h : parseProwlerFindings rt flib data = .ok result) :
    CleanResult result := by
  unfold parseProwlerFindings at h
  split at h
  · cases h
  · rename_i data _
    obtain rfl := Except.ok.inj h
    obtain ⟨hfindings, herrors⟩ := parseRecordsFrom_clean hrt 0 data
    constructor
    · exact plain_formatOf data
    · exact hfindings
    · exact herrors
    · exact inert_toolVersion data
    · exact inert_generatedAt data
  · cases h

/-! ## Lines -/

def Line.Clean : Line → Prop
  | .source format version latest => Plain format ∧ Inert version ∧ Inert latest
  | .summary _ counts _ => CleanCounts counts
  | .header checkId title counts => Inert checkId ∧ Inert title ∧ CleanCounts counts
  | .detail f => Prowler.Clean f
  | .error text => Inert text
  | _ => True

theorem continues_compliance (hrt : PlainRendering rt flib) {f : NormalizedFinding}
    (h : Clean f) :
    Continues (lit "\"" ++ if f.compliance = [] then []
      else lit "; compliance=" ++ listText rt f.compliance) := by
  apply continues_append (by decide) (by decide)
  split
  · exact inert_nil
  · exact inert_plain_append (by decide) (inert_listText hrt h.compliance)

theorem inert_detail (hrt : PlainRendering rt flib) {f : NormalizedFinding} (h : Clean f) :
    Inert ((Line.detail f).text rt) := by
  have hend : Inert (f.statusDetail ++ (lit "\"" ++ if f.compliance = [] then []
      else lit "; compliance=" ++ listText rt f.compliance)) :=
    inert_append h.statusDetail (continues_compliance hrt h)
  have hresource : Inert (orDefault f.resourceUid (lit "unknown resource")) :=
    inert_orDefault h.resourceUid (inert_of_plain (by decide))
  have hregion : Inert (orDefault f.region (lit "unknown region")) :=
    inert_orDefault h.region (inert_of_plain (by decide))
  rw [Line.text]
  apply inert_plain_append (by decide)
  apply inert_append_plain_append h.status (by decide) (by decide)
  apply inert_append_plain_append h.severity (by decide) (by decide)
  apply inert_append_plain_append hregion (by decide) (by decide)
  apply inert_append hresource
  exact continues_extraResources f.extraResources (by decide) (by decide) hend

theorem Line.inert_text (hrt : PlainRendering rt flib) {line : Line} (h : line.Clean) :
    Inert (line.text rt) := by
  cases line with
  | source format version latest =>
      obtain ⟨hformat, hversion, hlatest⟩ := h
      rw [Line.text]
      apply inert_plain_append (by decide)
      apply inert_plain_append hformat
      apply inert_plain_append (by decide)
      apply inert_append_plain_append hversion (by decide) (by decide)
      exact inert_append_plain hlatest (by decide)
  | honesty => exact inert_of_plain plain_honestyNote
  | blank => exact inert_nil
  | summary parsed counts errors =>
      rw [Line.text]
      apply inert_plain_append (by decide)
      apply inert_plain_append (plain_decimal parsed)
      apply inert_plain_append (by decide)
      exact inert_append (inert_countsText h) (continues_skipped errors)
  | byCheck =>
      rw [Line.text]
      exact inert_of_plain (by decide +kernel)
  | header checkId title counts =>
      obtain ⟨hcheckId, htitle, hcounts⟩ := h
      rw [Line.text]
      apply inert_plain_append (by decide)
      apply inert_append_plain_append hcheckId (by decide) (by decide)
      exact inert_append_plain_append htitle (by decide) (by decide) (inert_countsText hcounts)
  | detail f => exact inert_detail hrt h
  | unlisted n =>
      rw [Line.text]
      apply inert_plain_append (by decide)
      exact inert_plain_append (plain_decimal n) (inert_of_plain (by decide +kernel))
  | omitted n =>
      rw [Line.text]
      apply inert_plain_append (by decide)
      apply inert_plain_append (plain_decimal n)
      apply inert_plain_append (by decide +kernel)
      exact inert_plain_append (plain_decimal maxDetailLines) (inert_of_plain (by decide +kernel))
  | unparseable =>
      rw [Line.text]
      exact inert_of_plain (by decide +kernel)
  | error text =>
      rw [Line.text]
      exact inert_plain_append (by decide) h

theorem clean_of_mem_group {findings : List NormalizedFinding} (h : ∀ f ∈ findings, Clean f)
    {b : CheckBlock} (hb : b ∈ blocks rt findings) :
    b.group ≠ [] ∧ (∀ f ∈ b.group, Clean f) ∧ Inert b.checkId := by
  have hcheck : (b.checkId, b.group) ∈ checks rt findings := by
    rw [← blocksFrom_map 0 (checks rt findings)]
    exact List.mem_map_of_mem hb
  obtain ⟨hgroup, hne⟩ := (mem_checks_iff rt).mp hcheck
  have hmem : ∀ f ∈ b.group, f ∈ findings ∧ f.checkId = b.checkId := by
    intro f hf
    rw [hgroup, (sortedGroup_perm rt _).mem_iff, List.mem_filter] at hf
    exact ⟨hf.1, of_decide_eq_true hf.2⟩
  obtain ⟨f, hf⟩ := List.exists_mem_of_ne_nil _ hne
  refine ⟨hne, fun g hg => h g (hmem g hg).1, ?_⟩
  rw [← (hmem f hf).2]
  exact (h f (hmem f hf).1).checkId

theorem clean_blockLines {findings : List NormalizedFinding} (h : ∀ f ∈ findings, Clean f)
    {b : CheckBlock} (hb : b ∈ blocks rt findings) : ∀ line ∈ b.lines, line.Clean := by
  obtain ⟨hne, hgroup, hcheckId⟩ := clean_of_mem_group h hb
  intro line hline
  simp only [CheckBlock.lines, List.mem_append, List.mem_singleton, List.mem_map] at hline
  rcases hline with (rfl | ⟨f, hf, rfl⟩) | hline
  · refine ⟨hcheckId, ?_, ?_⟩
    · cases hhead : b.group.head? with
      | none => exact inert_nil
      | some f => exact (hgroup f (List.mem_of_mem_head? hhead)).title
    · apply cleanCounts_statusCounts
      intro s hs
      obtain ⟨f, hf, rfl⟩ := List.mem_map.mp hs
      exact (hgroup f hf).status
  · exact hgroup f (List.mem_of_mem_take hf)
  · split at hline
    · rw [List.mem_singleton.mp hline]
      trivial
    · cases hline

theorem clean_summaryLines {result : ProwlerParseResult} (h : CleanResult result) :
    ∀ line ∈ summaryLines rt result, line.Clean := by
  intro line hline
  unfold summaryLines at hline
  simp only [List.mem_append, List.mem_cons, List.not_mem_nil, or_false,
    List.mem_flatMap] at hline
  rcases hline with (((rfl | rfl | rfl | rfl | rfl | rfl) | ⟨b, hb, hline⟩) | hline) | hline
  · refine ⟨h.format, ?_, ?_⟩
    · exact inert_orDefault h.toolVersion (inert_of_plain (by decide))
    · exact inert_orDefault h.generatedAt (inert_of_plain (by decide))
  · trivial
  · trivial
  · apply cleanCounts_statusCounts
    intro s hs
    obtain ⟨f, hf, rfl⟩ := List.mem_map.mp hs
    exact (h.findings f hf).status
  · trivial
  · trivial
  · exact clean_blockLines h.findings hb line hline
  · split at hline
    · cases hline
    · rw [List.mem_singleton.mp hline]
      trivial
  · split at hline
    · cases hline
    · simp only [List.mem_append, List.mem_cons, List.not_mem_nil, or_false,
        List.mem_map] at hline
      rcases hline with (rfl | rfl) | ⟨text, htext, rfl⟩
      · trivial
      · trivial
      · exact h.errors text (List.mem_of_mem_take htext)

end Prowler

end AuditSwarm
