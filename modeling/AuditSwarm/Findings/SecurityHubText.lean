import AuditSwarm.Findings.Fields
import AuditSwarm.Model.SecurityHub

/-!
# The text of a Security Hub summary

Every line of the summary of a read is one line of text without a run of three angle brackets.
-/

namespace AuditSwarm

open Python Findings

namespace SecurityHub

variable {rt : Runtime} {flib : FindingsLibrary}

/-! ## Findings -/

/-- A finding of cleaned fields. -/
structure Clean (f : NormalizedSecurityHubFinding) : Prop where
  findingId : Inert f.findingId
  title : Inert f.title
  complianceStatus : Inert f.complianceStatus
  severityLabel : Inert f.severityLabel
  recordState : Inert f.recordState
  workflowStatus : Inert f.workflowStatus
  generatorId : Inert f.generatorId
  productName : Inert f.productName
  region : ∀ s ∈ f.region, Inert s
  resourceUid : ∀ s ∈ f.resourceUid, Inert s
  description : Inert f.description
  relatedRequirements : ∀ s ∈ f.relatedRequirements, Inert s

theorem inert_shortUpper (hrt : PlainRendering rt flib) (value : Json) :
    Inert (shortUpper rt flib value) :=
  (hrt.upper _).inert (inert_cleanField _ _)

theorem clean_normalizeAsffRecord (hrt : PlainRendering rt flib) {rec : Dict Str Json}
    {f : NormalizedSecurityHubFinding} (h : normalizeAsffRecord rt flib rec = .ok f) :
    Clean f := by
  unfold normalizeAsffRecord at h
  dsimp only at h
  split at h
  · split at h
    · obtain rfl := Except.ok.inj h
      constructor
      · exact inert_cleanField _ _
      · exact inert_cleanField _ _
      · exact inert_shortUpper hrt _
      · exact inert_shortUpper hrt _
      · exact inert_shortUpper hrt _
      · exact inert_shortUpper hrt _
      · exact inert_cleanField _ _
      · exact inert_cleanField _ _
      · exact inert_cleanOptional _ _
      · exact inert_cleanOptional _ _
      · exact inert_cleanField _ _
      · intro s hs
        obtain ⟨r, -, rfl⟩ := List.mem_map.mp hs
        exact inert_cleanField _ _
    · cases h
  · cases h

/-- The outcome of a record is a finding of cleaned fields, or an error of one line. -/
theorem parseRecord_clean (hrt : PlainRendering rt flib) (index : Nat) (rec : Json) :
    (∀ f, parseRecord rt flib index rec = .ok f → Clean f) ∧
      ∀ e, parseRecord rt flib index rec = .error e → Inert e := by
  have hother : Inert (lit "finding #" ++ decimal (index + 1) ++ lit ": not a JSON object") := by
    rw [List.append_assoc]
    exact inert_plain_append (by decide)
      (inert_plain_append (plain_decimal _) (inert_of_plain (by decide)))
  cases rec with
  | obj rec =>
      rw [parseRecord]
      cases hparsed : normalizeAsffRecord rt flib rec with
      | ok g =>
          constructor
          · intro f h
            obtain rfl := Except.ok.inj h
            exact clean_normalizeAsffRecord hrt hparsed
          · intro e h
            cases h
      | error cause =>
          constructor
          · intro f h
            cases h
          · intro e h
            obtain rfl := Except.error.inj h
            dsimp only
            rw [List.append_assoc, List.append_assoc]
            exact inert_plain_append (by decide) (inert_plain_append (plain_decimal _)
              (inert_plain_append (by decide) (inert_cleanText _ _)))
  | _ =>
      rw [parseRecord]
      · exact ⟨fun f h => (by cases h), fun e h => Except.error.inj h ▸ hother⟩
      · intro kvs h
        cases h

/-- The records of a read, cleaned. -/
structure CleanResult (result : SecurityHubParseResult) : Prop where
  findings : ∀ f ∈ result.findings, Clean f
  errors : ∀ e ∈ result.errors, Inert e

theorem cleanResult_parseFrom (hrt : PlainRendering rt flib) (index : Nat) (records : List Json) :
    CleanResult (parseAsffRecordsFrom rt flib index records) := by
  induction records generalizing index with
  | nil =>
      constructor
      · intro f hf
        cases hf
      · intro e he
        cases he
  | cons rec records ih =>
      obtain ⟨hfindings, herrors⟩ := ih (index + 1)
      obtain ⟨hok, herror⟩ := parseRecord_clean hrt index rec
      rw [parseAsffRecordsFrom]
      cases h : parseRecord rt flib index rec with
      | ok f => exact ⟨List.forall_mem_cons.mpr ⟨hok f h, hfindings⟩, herrors⟩
      | error e => exact ⟨hfindings, List.forall_mem_cons.mpr ⟨herror e h, herrors⟩⟩

/-! ## Lines -/

def Line.Clean : Line → Prop
  | .source filterDesc => Inert filterDesc
  | .summary _ _ counts _ => CleanCounts counts
  | .detail f => SecurityHub.Clean f
  | .generator generatorId counts => Inert generatorId ∧ CleanCounts counts
  | .error text => Inert text
  | _ => True

theorem inert_detail (hrt : PlainRendering rt flib) {f : NormalizedSecurityHubFinding}
    (h : Clean f) : Inert ((Line.detail f).text rt) := by
  have hid : Inert (lit " id=" ++ f.findingId) := inert_plain_append (by decide) h.findingId
  have hrelated : Inert ((if f.relatedRequirements = [] then []
      else lit "; related_requirements=" ++ listText rt f.relatedRequirements) ++
        (lit " id=" ++ f.findingId)) := by
    split
    · exact hid
    · rw [List.append_assoc]
      apply inert_plain_append (by decide)
      exact inert_append_plain_append (inert_listText hrt h.relatedRequirements) (by decide)
        (by decide) h.findingId
  have hresource : Inert (orDefault f.resourceUid (lit "unknown resource")) :=
    inert_orDefault h.resourceUid (inert_of_plain (by decide))
  have hregion : Inert (orDefault f.region (lit "unknown region")) :=
    inert_orDefault h.region (inert_of_plain (by decide))
  have hstate : Inert (f.recordState ++ (lit " workflow_status=" ++ (f.workflowStatus ++
      (lit " description=\"" ++ (f.description ++ (lit "\"" ++
        ((if f.relatedRequirements = [] then []
          else lit "; related_requirements=" ++ listText rt f.relatedRequirements) ++
          (lit " id=" ++ f.findingId)))))))) := by
    apply inert_append_plain_append h.recordState (by decide) (by decide)
    apply inert_append_plain_append h.workflowStatus (by decide) (by decide)
    exact inert_append_plain_append h.description (by decide) (by decide) hrelated
  rw [Line.text]
  apply inert_plain_append (by decide)
  apply inert_append_plain_append h.complianceStatus (by decide) (by decide)
  apply inert_append_plain_append h.generatorId (by decide) (by decide)
  apply inert_append_plain_append h.title (by decide) (by decide)
  apply inert_append_plain_append h.severityLabel (by decide) (by decide)
  apply inert_append_plain_append h.productName (by decide) (by decide)
  apply inert_append_plain_append hregion (by decide) (by decide)
  apply inert_append hresource
  exact continues_extraResources f.extraResources (by decide) (by decide) hstate

theorem Line.inert_text (hrt : PlainRendering rt flib) {line : Line} (h : line.Clean) :
    Inert (line.text rt) := by
  cases line with
  | source filterDesc =>
      rw [Line.text]
      apply inert_plain_append (by decide)
      exact inert_append_plain h (by decide)
  | honesty => exact inert_of_plain plain_honestyNote
  | blank => exact inert_nil
  | summary read truncated counts errors =>
      have hcounts : Inert (lit ", " ++ (countsText counts ++ if errors = 0 then [] else
          lit ", " ++ (decimal errors ++ lit " unparseable record(s) skipped"))) :=
        inert_plain_append (by decide)
          (inert_append (inert_countsText h) (continues_skipped errors))
      rw [Line.text]
      apply inert_plain_append (by decide)
      apply inert_plain_append (plain_decimal read)
      apply inert_plain_append (by decide)
      split
      · exact inert_plain_append (by decide) hcounts
      · exact hcounts
  | findings =>
      rw [Line.text]
      exact inert_of_plain (by decide)
  | detail f => exact inert_detail hrt h
  | omitted n =>
      rw [Line.text]
      apply inert_plain_append (by decide)
      apply inert_plain_append (plain_decimal n)
      apply inert_plain_append (by decide +kernel)
      exact inert_plain_append (plain_decimal maxDetailLines) (inert_of_plain (by decide +kernel))
  | generator generatorId counts =>
      obtain ⟨hgenerator, hcounts⟩ := h
      rw [Line.text]
      apply inert_plain_append (by decide)
      exact inert_append_plain_append hgenerator (by decide) (by decide) (inert_countsText hcounts)
  | unparseable =>
      rw [Line.text]
      exact inert_of_plain (by decide +kernel)
  | error text =>
      rw [Line.text]
      exact inert_plain_append (by decide) h

theorem clean_generatorCounts {findings : List NormalizedSecurityHubFinding}
    (h : ∀ f ∈ findings, Clean f) :
    ∀ g ∈ generatorCounts findings, (Line.generator g.1 g.2).Clean := by
  intro g hg
  obtain ⟨group, hgroup, rfl⟩ := List.mem_map.mp hg
  have hmem := (List.perm_insertionSort _ _).mem_iff.mp hgroup
  obtain ⟨hfilter, hne⟩ := (mem_groupBy_iff _).mp hmem
  have hfindings : ∀ f ∈ group.2, f ∈ findings ∧ f.generatorId = group.1 := by
    intro f hf
    rw [hfilter, List.mem_filter] at hf
    exact ⟨hf.1, of_decide_eq_true hf.2⟩
  obtain ⟨f, hf⟩ := List.exists_mem_of_ne_nil _ hne
  constructor
  · rw [← (hfindings f hf).2]
    exact (h f (hfindings f hf).1).generatorId
  · apply cleanCounts_statusCounts
    intro s hs
    obtain ⟨f, hf, rfl⟩ := List.mem_map.mp hs
    exact (h f (hfindings f hf).1).complianceStatus

theorem clean_summaryLines {result : SecurityHubParseResult} (h : CleanResult result)
    (filters : Dict Str (List FilterCondition)) (truncated : Bool) :
    ∀ line ∈ summaryLines rt flib result filters truncated, line.Clean := by
  have hordered : ∀ f ∈ ordered rt result.findings, Clean f := fun f hf =>
    h.findings f ((List.perm_insertionSort _ _).mem_iff.mp hf)
  intro line hline
  unfold summaryLines at hline
  simp only [List.mem_append, List.mem_cons, List.not_mem_nil, or_false] at hline
  rcases hline with (((rfl | rfl | rfl | rfl | rfl | rfl) | hline) | hline) | hline
  · exact inert_cleanText _ _
  · trivial
  · trivial
  · apply cleanCounts_statusCounts
    intro s hs
    obtain ⟨f, hf, rfl⟩ := List.mem_map.mp hs
    exact (h.findings f hf).complianceStatus
  · trivial
  · trivial
  · obtain ⟨f, hf, rfl⟩ := List.mem_map.mp hline
    exact hordered f (List.mem_of_mem_take hf)
  · split at hline
    · cases hline
    · rcases List.mem_cons.mp hline with rfl | hline
      · trivial
      · obtain ⟨g, hg, rfl⟩ := List.mem_map.mp hline
        exact clean_generatorCounts (fun f hf => hordered f (List.mem_of_mem_drop hf)) g hg
  · split at hline
    · cases hline
    · simp only [List.mem_append, List.mem_cons, List.not_mem_nil, or_false,
        List.mem_map] at hline
      rcases hline with (rfl | rfl) | ⟨text, htext, rfl⟩
      · trivial
      · trivial
      · exact h.errors text (List.mem_of_mem_take htext)

end SecurityHub

end AuditSwarm
