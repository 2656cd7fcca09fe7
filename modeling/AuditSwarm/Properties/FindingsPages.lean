import AuditSwarm.Model.SecurityHub

/-!
# Security Hub pagination

The read returns the first findings of all pages up to its limit.  It says truncated when one was
left out, and also when a page, even an empty one, came after the limit was reached.
-/

namespace AuditSwarm

open Python

namespace SecurityHub

section
variable {α : Type} {limit : Nat} {findings : List α} {page : FindingsPage α}
  {pages : List (FindingsPage α)}

def allFindings (pages : List (FindingsPage α)) : List α := pages.flatMap FindingsPage.read

@[simp] theorem allFindings_nil : allFindings ([] : List (FindingsPage α)) = [] := rfl

@[simp] theorem allFindings_cons :
    allFindings (page :: pages) = page.read ++ allFindings pages := rfl

/-- A page comes when the pages before it, and `start` findings before them, reach the limit. -/
def PageAfterLimit (limit start : Nat) (pages : List (FindingsPage α)) : Prop :=
  ∃ before page after, pages = before ++ page :: after ∧
    limit ≤ start + (allFindings before).length

theorem not_pageAfterLimit_nil (start : Nat) :
    ¬ PageAfterLimit limit start ([] : List (FindingsPage α)) := by
  intro h
  obtain ⟨before, page, after, hpages, -⟩ := h
  exact List.append_ne_nil_of_right_ne_nil before (List.cons_ne_nil page after) hpages.symm

theorem pageAfterLimit_cons_iff {start : Nat} :
    PageAfterLimit limit start (page :: pages) ↔
      limit ≤ start ∨ PageAfterLimit limit (start + page.read.length) pages := by
  constructor
  · intro h
    obtain ⟨before, q, after, hpages, hlimit⟩ := h
    cases before with
    | nil => exact .inl hlimit
    | cons p before =>
        obtain ⟨rfl, rfl⟩ := List.cons.inj hpages
        rw [allFindings_cons, List.length_append] at hlimit
        exact .inr ⟨before, q, after, rfl, by omega⟩
  · intro h
    rcases h with hlimit | ⟨before, q, after, rfl, hlimit⟩
    · exact ⟨[], page, pages, rfl, hlimit⟩
    · refine ⟨page :: before, q, after, rfl, ?_⟩
      rw [allFindings_cons, List.length_append]
      omega

/-- What the loop returns when it has not gone over the limit. -/
theorem collectFrom_spec (pages : List (FindingsPage α)) (h : findings.length ≤ limit) :
    (collectFrom limit findings pages).1 = (findings ++ allFindings pages).take limit ∧
      ((collectFrom limit findings pages).2 = true ↔
        limit < findings.length + (allFindings pages).length ∨
          PageAfterLimit limit findings.length pages) := by
  induction pages generalizing findings with
  | nil =>
      refine ⟨?_, iff_of_false (by simp [collectFrom]) ?_⟩
      · rw [allFindings_nil, List.append_nil, List.take_of_length_le h]
        rfl
      · intro hafter
        rcases hafter with hover | hafter
        · rw [allFindings_nil, List.length_nil] at hover
          omega
        · exact not_pageAfterLimit_nil _ hafter
  | cons page pages ih =>
      rw [pageAfterLimit_cons_iff, allFindings_cons, List.length_append, collectFrom]
      by_cases hfull : (limit : Int) - findings.length ≤ 0
      · have hlength : findings.length = limit := by omega
        rw [if_pos hfull]
        refine ⟨?_, iff_of_true rfl (.inr (.inl (by omega)))⟩
        rw [← hlength, List.take_left]
      · rw [if_neg hfull]
        by_cases hover : (limit : Int) - findings.length < page.read.length
        · have htake : ((limit : Int) - findings.length).toNat = limit - findings.length := by omega
          rw [if_pos hover]
          refine ⟨?_, iff_of_true (by simp [hover]) (.inl (by omega))⟩
          have hfits : limit - findings.length ≤ page.read.length := by omega
          rw [htake, List.take_append, List.take_of_length_le h,
            List.take_append_of_le_length hfits]
        · rw [if_neg hover]
          have hfits : (findings ++ page.read).length ≤ limit := by
            rw [List.length_append]
            omega
          obtain ⟨hfirst, htruncated⟩ := ih hfits
          refine ⟨?_, ?_⟩
          · rw [hfirst, List.append_assoc]
          · rw [htruncated, List.length_append]
            constructor
            · intro hcases
              rcases hcases with hmore | hafter
              · exact .inl (by omega)
              · exact .inr (.inr hafter)
            · intro hcases
              rcases hcases with hmore | hnow | hafter
              · exact .inl (by omega)
              · omega
              · exact .inr hafter

end

theorem collectSecurityhubFindings_spec {α : Type} (pages : List (FindingsPage α)) (limit : Nat) :
    (collectSecurityhubFindings pages limit).1 = (allFindings pages).take limit ∧
      ((collectSecurityhubFindings pages limit).2 = true ↔
        limit < (allFindings pages).length ∨ PageAfterLimit limit 0 pages) := by
  have hnone : ([] : List α).length ≤ limit := Nat.zero_le limit
  have hspec := collectFrom_spec pages hnone
  simp only [List.nil_append, List.length_nil, Nat.zero_add] at hspec
  exact hspec

/-- The read returns the first findings up to the limit, and says truncated when one of the
others was left out or a page came after the limit was reached. -/
theorem collectSecurityhubFindings_pages {α : Type} (pages : List (FindingsPage α)) (limit : Nat) :
    (collectSecurityhubFindings pages limit).1 = (allFindings pages).take limit ∧
      ((collectSecurityhubFindings pages limit).2 = true ↔
        limit < (allFindings pages).length ∨
          ∃ before page after, pages = before ++ page :: after ∧
            limit ≤ (allFindings before).length) := by
  have hspec := collectSecurityhubFindings_spec pages limit
  simp only [PageAfterLimit, Nat.zero_add] at hspec
  exact hspec

/-! ## The filtered read -/

/-- A finding, whose value of an field is `field`, meets the conditions of a filter. -/
def Meets (filters : Dict Str (List FilterCondition)) (field : Str → Str) : Prop :=
  ∀ filter ∈ filters, ∀ condition ∈ filter.2,
    field filter.1 = condition.value ↔ condition.comparison = lit "EQUALS"

theorem mem_narrowing {name value : Str} (h : value ≠ []) :
    (name, [⟨value, lit "EQUALS"⟩]) ∈ narrowing name (some value) := by
  rw [narrowing, Option.getD_some, if_neg h]
  exact List.mem_singleton_self _

theorem Meets.narrowed {filters : Dict Str (List FilterCondition)} {field : Str → Str}
    {name value : Str} (h : Meets filters field) (hvalue : value ≠ [])
    (hsub : narrowing name (some value) ⊆ filters) : field name = value :=
  (h _ (hsub (mem_narrowing hvalue)) _ (List.mem_singleton_self _)).mpr rfl

/-- What the filters of the read ask for: active findings that are not suppressed, and the values
it is narrowed to. -/
theorem meets_buildSecurityhubFilters {productName generatorId complianceStatus : Option Str}
    {field : Str → Str}
    (h : Meets (buildSecurityhubFilters productName generatorId complianceStatus) field) :
    field (lit "RecordState") = lit "ACTIVE" ∧
      field (lit "WorkflowStatus") ≠ lit "SUPPRESSED" ∧
      (∀ value ≠ [], productName = some value → field (lit "ProductName") = value) ∧
      (∀ value ≠ [], generatorId = some value → field (lit "GeneratorId") = value) ∧
      ∀ value ≠ [], complianceStatus = some value →
        field (lit "ComplianceStatus") = value := by
  refine ⟨?_, ?_, ?_, ?_, ?_⟩
  · exact (h (lit "RecordState", [⟨lit "ACTIVE", lit "EQUALS"⟩]) (by
      simp [buildSecurityhubFilters]) _ (List.mem_singleton_self _)).mpr rfl
  · intro hsuppressed
    have hcondition := h (lit "WorkflowStatus", [⟨lit "SUPPRESSED", lit "NOT_EQUALS"⟩]) (by
      simp [buildSecurityhubFilters]) _ (List.mem_singleton_self _)
    exact absurd (hcondition.mp hsuppressed) (by decide)
  · rintro value hvalue rfl
    refine h.narrowed hvalue fun filter hfilter => ?_
    simp only [buildSecurityhubFilters, List.mem_append, hfilter, true_or, or_true]
  · rintro value hvalue rfl
    refine h.narrowed hvalue fun filter hfilter => ?_
    simp only [buildSecurityhubFilters, List.mem_append, hfilter, true_or, or_true]
  · rintro value hvalue rfl
    refine h.narrowed hvalue fun filter hfilter => ?_
    simp only [buildSecurityhubFilters, List.mem_append, hfilter, or_true]

/-- The registered summary is that of the first findings, up to the limit, that the service yields
under the filters of the read; where the service keeps to these, none of them is inactive or
suppressed. -/
theorem getSecurityhubFindings_filtered (rt : Runtime) (flib : FindingsLibrary)
    (paginate : Dict Str (List FilterCondition) → List (FindingsPage Json))
    (field : Json → Str → Str) (productName generatorId complianceStatus : Option Str)
    (hservice : ∀ finding ∈ allFindings (paginate
        (buildSecurityhubFilters productName generatorId complianceStatus)),
      Meets (buildSecurityhubFilters productName generatorId complianceStatus)
        (field finding)) (limit : Nat) :
    ∃ (read : List Json) (truncated : Bool),
      getSecurityhubFindings rt flib paginate productName generatorId complianceStatus limit =
        buildSecurityhubSummary rt flib (parseAsffRecords rt flib read)
          (buildSecurityhubFilters productName generatorId complianceStatus) truncated ∧
      read = (allFindings (paginate
        (buildSecurityhubFilters productName generatorId complianceStatus))).take limit ∧
      ∀ finding ∈ read, field finding (lit "RecordState") = lit "ACTIVE" ∧
        field finding (lit "WorkflowStatus") ≠ lit "SUPPRESSED" := by
  have hpages := (collectSecurityhubFindings_spec (paginate
    (buildSecurityhubFilters productName generatorId complianceStatus)) limit).1
  refine ⟨_, _, rfl, hpages, ?_⟩
  intro finding hfinding
  rw [hpages] at hfinding
  have hmeets := meets_buildSecurityhubFilters (hservice finding (List.mem_of_mem_take hfinding))
  exact ⟨hmeets.1, hmeets.2.1⟩

/-- An empty page after a full one: nothing is left out, and the read says truncated. -/
theorem collectSecurityhubFindings_emptyPage :
    ¬ ∀ (pages : List (FindingsPage Json)) (limit : Nat),
      (collectSecurityhubFindings pages limit).1 = (allFindings pages).take limit ∧
        ((collectSecurityhubFindings pages limit).2 = true ↔
          limit < (allFindings pages).length) := by
  intro h
  have hflag := (h [⟨some [.obj []], some (lit "next")⟩, ⟨some [], none⟩] 1).2
  exact absurd (hflag.mp rfl) (by decide)

end SecurityHub

end AuditSwarm
