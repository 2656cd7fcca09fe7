import AuditSwarm.Findings.Blocks

/-!
# The lines of a Prowler summary

What the header lines, the detail lines and the lines about omitted findings say.
-/

namespace AuditSwarm

open Python Findings

namespace Prowler

variable {rt : Runtime}

/-! ## Lines -/

def Line.headerCounts : Line → Option (Dict Str Nat)
  | .header _ _ counts => some counts
  | _ => none

def Line.detailed : Line → Option NormalizedFinding
  | .detail f => some f
  | _ => none

/-- How many findings a line says are omitted from the listing. -/
def Line.omittedFindings : Line → Nat
  | .omitted n => n
  | _ => 0

/-- How many findings of its check a line says are not listed. -/
def Line.unlistedFindings : Line → Nat
  | .unlisted n => n
  | _ => 0

def Line.ofCheck : Line → Bool
  | .header _ _ _ | .detail _ | .unlisted _ => true
  | _ => false

/-- The blocks of the checks stand between lines that are not of a check, of which those after
report the omitted findings. -/
theorem summaryLines_blocks (rt : Runtime) (result : ProwlerParseResult) :
    ∃ before after,
      summaryLines rt result = before ++ (blocks rt result.findings).flatMap (·.lines) ++ after ∧
      (∀ line ∈ before ++ after, line.ofCheck = false) ∧
      ((before ++ after).map Line.omittedFindings).sum =
        omittedCount (blocks rt result.findings) := by
  have herrors : ∀ errors : List Str,
      ((errors.map Line.error).map Line.omittedFindings).sum = 0 := by
    intro errors
    induction errors with
    | nil => rfl
    | cons e errors ih =>
        rw [List.map_cons, List.map_cons, List.sum_cons, ih]
        rfl
  refine ⟨_, _, List.append_assoc _ _ _, ?_, ?_⟩
  · intro line hline
    simp only [List.mem_append, List.mem_cons, List.not_mem_nil, or_false] at hline
    rcases hline with (rfl | rfl | rfl | rfl | rfl | rfl) | hline | hline
    all_goals try rfl
    · split at hline
      · cases hline
      · rw [List.mem_singleton.mp hline]
        rfl
    · split at hline
      · cases hline
      · simp only [List.mem_append, List.mem_cons, List.not_mem_nil, or_false,
          List.mem_map] at hline
        rcases hline with (rfl | rfl) | ⟨text, -, rfl⟩ <;> rfl
  · rw [List.map_append, List.map_append, List.sum_append, List.sum_append]
    have hend : ((if result.errors = [] then []
        else [.blank, .unparseable] ++ (result.errors.take maxDetailLines).map Line.error).map
          Line.omittedFindings).sum = 0 := by
      split
      · rfl
      · rw [List.map_append, List.sum_append, herrors]
        rfl
    rw [hend]
    split
    · rename_i hzero
      rw [hzero]
      rfl
    · simp only [List.map_cons, List.map_nil, Line.omittedFindings, List.sum_cons, List.sum_nil,
        Nat.add_zero, Nat.zero_add]

/-! ## Blocks -/

theorem headerCounts_lines (b : CheckBlock) :
    b.lines.filterMap Line.headerCounts = [statusCounts (b.group.map (·.status))] := by
  have hdetails : ∀ fs : List NormalizedFinding,
      (fs.map Line.detail).filterMap Line.headerCounts = [] := by
    intro fs
    simp [List.filterMap_map, Function.comp_def, Line.headerCounts]
  rw [CheckBlock.lines, List.filterMap_append, List.filterMap_append, hdetails]
  split <;> rfl

theorem detailed_lines (b : CheckBlock) :
    b.lines.filterMap Line.detailed = b.group.take b.shown := by
  have hdetails : ∀ fs : List NormalizedFinding,
      (fs.map Line.detail).filterMap Line.detailed = fs := by
    intro fs
    simp [List.filterMap_map, Function.comp_def, Line.detailed]
  rw [CheckBlock.lines, List.filterMap_append, List.filterMap_append, hdetails]
  split
  · exact List.append_nil _
  · exact List.append_nil _

theorem omittedFindings_lines (b : CheckBlock) :
    (b.lines.map Line.omittedFindings).sum = 0 := by
  have hdetails : ∀ fs : List NormalizedFinding,
      ((fs.map Line.detail).map Line.omittedFindings).sum = 0 := by
    intro fs
    simp [Function.comp_def, Line.omittedFindings]
  rw [CheckBlock.lines, List.map_append, List.map_append, List.sum_append, List.sum_append,
    hdetails]
  split <;> rfl

theorem unlistedFindings_lines (b : CheckBlock) :
    (b.lines.map Line.unlistedFindings).sum = b.group.length - b.shown := by
  have hdetails : ∀ fs : List NormalizedFinding,
      ((fs.map Line.detail).map Line.unlistedFindings).sum = 0 := by
    intro fs
    simp [Function.comp_def, Line.unlistedFindings]
  rw [CheckBlock.lines, List.map_append, List.map_append, List.sum_append, List.sum_append,
    hdetails]
  by_cases h : b.shown < b.group.length
  · rw [if_pos h]
    exact Nat.zero_add _
  · rw [if_neg h]
    exact (Nat.sub_eq_zero_of_le (Nat.le_of_not_lt h)).symm

/-! ## The summary -/

theorem filterMap_ofCheck {β : Type} {read : Line → Option β} {lines : List Line}
    (hread : ∀ line, line.ofCheck = false → read line = none)
    (h : ∀ line ∈ lines, line.ofCheck = false) : lines.filterMap read = [] :=
  List.filterMap_eq_nil_iff.mpr fun line hline => hread line (h line hline)

/-- A reading that sees only lines of checks reads the blocks. -/
theorem filterMap_summaryLines {β : Type} {read : Line → Option β}
    (hread : ∀ line, line.ofCheck = false → read line = none) (result : ProwlerParseResult) :
    (summaryLines rt result).filterMap read =
      (blocks rt result.findings).flatMap fun b => b.lines.filterMap read := by
  obtain ⟨before, after, hlines, hother, -⟩ := summaryLines_blocks rt result
  have hbefore : before.filterMap read = [] :=
    filterMap_ofCheck hread fun line hline => hother line (List.mem_append_left after hline)
  have hafter : after.filterMap read = [] :=
    filterMap_ofCheck hread fun line hline => hother line (List.mem_append_right before hline)
  rw [hlines, List.filterMap_append, List.filterMap_append, hbefore, hafter, List.nil_append,
    List.append_nil, List.filterMap_flatMap]

/-- A number that only lines of checks have is summed over the blocks. -/
theorem sum_summaryLines {number : Line → Nat}
    (hnumber : ∀ line, line.ofCheck = false → number line = 0) (result : ProwlerParseResult) :
    ((summaryLines rt result).map number).sum =
      ((blocks rt result.findings).map fun b => (b.lines.map number).sum).sum := by
  have hzero : ∀ lines : List Line, (∀ line ∈ lines, line.ofCheck = false) →
      (lines.map number).sum = 0 := by
    intro lines h
    rw [List.sum_eq_zero_iff]
    intro n hn
    obtain ⟨line, hline, rfl⟩ := List.mem_map.mp hn
    exact hnumber line (h line hline)
  obtain ⟨before, after, hlines, hother, -⟩ := summaryLines_blocks rt result
  rw [hlines, List.map_append, List.map_append, List.sum_append, List.sum_append,
    hzero before fun line hline => hother line (List.mem_append_left after hline),
    hzero after fun line hline => hother line (List.mem_append_right before hline),
    Groups.sum_map_flatMap, Nat.zero_add, Nat.add_zero]

/-- The findings of the blocks are the findings of the summary. -/
theorem groups_perm (rt : Runtime) (findings : List NormalizedFinding) :
    ((blocks rt findings).flatMap (·.group)).Perm findings := by
  have hgroups : ∀ bs : List CheckBlock,
      bs.flatMap (·.group) = (bs.map fun b => (b.checkId, b.group)).flatMap Prod.snd := by
    intro bs
    rw [List.flatMap_map]
  rw [hgroups, blocks, blocksFrom_map]
  exact checks_perm rt findings

theorem headerCounts_summaryLines (result : ProwlerParseResult) :
    (summaryLines rt result).filterMap Line.headerCounts =
      (blocks rt result.findings).map fun b => statusCounts (b.group.map (·.status)) := by
  rw [filterMap_summaryLines]
  · simp only [headerCounts_lines]
    exact List.map_eq_flatMap.symm
  · intro line hline
    cases line with
    | header checkId title counts => cases hline
    | _ => rfl

theorem omittedFindings_summaryLines (result : ProwlerParseResult) :
    ((summaryLines rt result).map Line.omittedFindings).sum =
      omittedCount (blocks rt result.findings) := by
  obtain ⟨before, after, hlines, -, hsum⟩ := summaryLines_blocks rt result
  have hblocks : (((blocks rt result.findings).flatMap (·.lines)).map
      Line.omittedFindings).sum = 0 := by
    simp [Groups.sum_map_flatMap, omittedFindings_lines]
  rw [List.map_append, List.sum_append] at hsum
  rw [hlines, List.map_append, List.map_append, List.sum_append, List.sum_append, hblocks,
    Nat.add_zero, hsum]

theorem detailed_summaryLines (result : ProwlerParseResult) :
    (summaryLines rt result).filterMap Line.detailed = listed rt result.findings := by
  rw [filterMap_summaryLines]
  · simp only [detailed_lines]
    rfl
  · intro line hline
    cases line with
    | detail f => cases hline
    | _ => rfl

end Prowler

end AuditSwarm
