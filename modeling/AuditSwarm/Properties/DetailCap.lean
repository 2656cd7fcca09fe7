import AuditSwarm.Findings.SummaryLines
import AuditSwarm.Model.SecurityHub

/-!
# What the detail limit cuts off

The findings without a detail line, and whether one of them fails while a finding that does not
fail has a line.
-/

namespace AuditSwarm

open Python Findings

namespace Findings

section
variable {α : Type} [DecidableEq α] {failing : α → Prop} {findings listed omitted : List α}

/-- No failing finding is without a detail line while one that does not fail has a line. -/
def NoFailureHidden (failing : α → Prop) (findings listed : List α) : Prop :=
  (∃ f ∈ findings.diff listed, failing f) → ∀ g ∈ listed, failing g

theorem append_diff_left (listed omitted : List α) : (listed ++ omitted).diff listed = omitted := by
  induction listed with
  | nil => rfl
  | cons f listed ih => rw [List.cons_append, List.diff_cons, List.erase_cons_head, ih]

theorem noFailureHidden_iff (h : (listed ++ omitted).Perm findings) :
    NoFailureHidden failing findings listed ↔
      ((∃ f ∈ omitted, failing f) → ¬ ∃ g ∈ listed, ¬ failing g) := by
  have homitted : ∀ f, f ∈ findings.diff listed ↔ f ∈ omitted := by
    intro f
    have hperm := h.diff_right listed
    rw [append_diff_left] at hperm
    exact hperm.mem_iff.symm
  simp only [NoFailureHidden, homitted, not_exists, not_and, not_not]

omit [DecidableEq α] in
theorem first_of_key {β : Type} [LinearOrder β] [DecidablePred failing] (key : α → Bool ×ₗ β)
    (hkey : ∀ f, (ofLex (key f)).1 = decide (¬ failing f))
    (h : findings.Pairwise fun f g => key f ≤ key g) : Groups.First failing findings := by
  apply h.imp
  intro f g hle hg
  by_contra hf
  have hlast : (ofLex (key f)).1 = true := by rw [hkey, decide_eq_true hf]
  have hfirst : (ofLex (key g)).1 = false := by rw [hkey, decide_eq_false (not_not.mpr hg)]
  rcases Prod.Lex.le_iff.mp hle with hlt | ⟨heq, -⟩
  · rw [hlast, hfirst] at hlt
    exact absurd hlt (by decide)
  · rw [hlast, hfirst] at heq
    cases heq

end

end Findings

/-! ## Security Hub -/

namespace SecurityHub

variable {rt : Runtime} {flib : FindingsLibrary}

def Line.detailed : Line → Option NormalizedSecurityHubFinding
  | .detail f => some f
  | _ => none

theorem detailed_summaryLines (result : SecurityHubParseResult)
    (filters : Dict Str (List FilterCondition)) (truncated : Bool) :
    (summaryLines rt flib result filters truncated).filterMap Line.detailed =
      listed rt result.findings := by
  have hdetails : ∀ fs : List NormalizedSecurityHubFinding,
      (fs.map Line.detail).filterMap Line.detailed = fs := by
    intro fs
    simp [List.filterMap_map, Function.comp_def, Line.detailed]
  have hgenerators : ∀ gs : Dict Str (Dict Str Nat),
      (gs.map fun g => Line.generator g.1 g.2).filterMap Line.detailed = [] := by
    intro gs
    simp [List.filterMap_map, Function.comp_def, Line.detailed]
  have herrors : ∀ errors : List Str, (errors.map Line.error).filterMap Line.detailed = [] := by
    intro errors
    simp [List.filterMap_map, Function.comp_def, Line.detailed]
  have hrest : (if rest rt result.findings = [] then []
      else Line.omitted (rest rt result.findings).length ::
        (generatorCounts (rest rt result.findings)).map
          fun g => Line.generator g.1 g.2).filterMap Line.detailed = [] := by
    split
    · rfl
    · rw [List.filterMap_cons, hgenerators]
      rfl
  have hend : (if result.errors = [] then []
      else [Line.blank, .unparseable] ++
        (result.errors.take maxDetailLines).map Line.error).filterMap Line.detailed = [] := by
    split
    · rfl
    · rw [List.filterMap_append, herrors]
      rfl
  unfold summaryLines
  dsimp only
  rw [List.filterMap_append, List.filterMap_append, List.filterMap_append, hdetails, hrest, hend,
    List.append_nil, List.append_nil]
  rfl

theorem ordered_pairwise (findings : List NormalizedSecurityHubFinding) :
    (ordered rt findings).Pairwise fun f g => orderKey rt f ≤ orderKey rt g := by
  have : IsTrans NormalizedSecurityHubFinding fun f g => orderKey rt f ≤ orderKey rt g :=
    ⟨fun _ _ _ => le_trans⟩
  have : Std.Total fun f g => orderKey rt f ≤ orderKey rt g := ⟨fun _ _ => le_total _ _⟩
  exact List.pairwise_insertionSort _ findings

/-- The findings that are listed come before the others, and the failing before all. -/
theorem noFailureHidden (result : SecurityHubParseResult) :
    NoFailureHidden (·.complianceStatus = lit "FAILED") result.findings
      (listed rt result.findings) := by
  have hperm : (listed rt result.findings ++ rest rt result.findings).Perm result.findings := by
    rw [listed, rest, List.take_append_drop]
    exact List.perm_insertionSort _ _
  have hfirst : Groups.First (·.complianceStatus = lit "FAILED") (ordered rt result.findings) :=
    first_of_key (orderKey rt) (fun _ => rfl) (ordered_pairwise result.findings)
  rw [noFailureHidden_iff hperm]
  intro homitted hlisted
  have hmany := (Groups.exists_mem_drop_iff hfirst _).mp homitted
  have hfew := ((Groups.exists_mem_take_iff hfirst _).mp hlisted).1
  omega

end SecurityHub

/-! ## Prowler -/

namespace Prowler

section
variable (rt : Runtime) (findings : List NormalizedFinding)

def keyOf (checkId : Str) : CheckKey :=
  checkKey rt (checkId, findings.filter (·.checkId = checkId))

/-- The number of findings of the checks that come before a check. -/
def before (checkId : Str) : Nat :=
  findings.countP fun f => keyOf rt findings f.checkId < keyOf rt findings checkId

def failures (checkId : Str) : Nat :=
  findings.countP fun f => f.checkId = checkId ∧ f.status = lit "FAIL"

/-- No check has a failure after the detail limit while another one has a finding before the limit
that does not fail. -/
def CapSpares : Prop :=
  ∀ f ∈ findings, ∀ g ∈ findings, f.status = lit "FAIL" → g.status ≠ lit "FAIL" →
    before rt findings f.checkId + failures findings f.checkId ≤ maxDetailLines ∨
      maxDetailLines ≤ before rt findings g.checkId + failures findings g.checkId

end

variable {rt : Runtime} {findings : List NormalizedFinding}

theorem checkId_of_mem_checks {c : Str × List NormalizedFinding} (h : c ∈ checks rt findings)
    {f : NormalizedFinding} (hf : f ∈ c.2) : f ∈ findings ∧ f.checkId = c.1 := by
  obtain ⟨hgroup, -⟩ := (mem_checks_iff rt).mp h
  rw [hgroup, (sortedGroup_perm rt _).mem_iff, List.mem_filter] at hf
  exact ⟨hf.1, of_decide_eq_true hf.2⟩

theorem checks_pairwise (rt : Runtime) (findings : List NormalizedFinding) :
    (checks rt findings).Pairwise fun a b =>
      keyOf rt findings a.1 < keyOf rt findings b.1 := by
  have hsorted : (sortedGroups rt findings).Pairwise fun a b =>
      checkKey rt a ≤ checkKey rt b := by
    have : IsTrans (Str × List NormalizedFinding) fun a b => checkKey rt a ≤ checkKey rt b :=
      ⟨fun _ _ _ => le_trans⟩
    have : Std.Total fun a b => checkKey rt a ≤ checkKey rt b := ⟨fun _ _ => le_total _ _⟩
    exact List.pairwise_insertionSort _ _
  have hperm : (sortedGroups rt findings).Perm (groupBy NormalizedFinding.checkId findings) :=
    List.perm_insertionSort _ _
  have hnodup : (sortedGroups rt findings).Pairwise fun a b => a.1 ≠ b.1 := by
    have h := nodup_keys_groupBy NormalizedFinding.checkId findings
    rw [← (hperm.map Prod.fst).nodup_iff, List.Nodup, List.pairwise_map] at h
    exact h
  have hkey : ∀ a ∈ sortedGroups rt findings, checkKey rt a = keyOf rt findings a.1 := by
    intro a ha
    obtain ⟨hgroup, -⟩ := (mem_groupBy_iff _).mp (hperm.mem_iff.mp ha)
    rw [keyOf, ← hgroup]
  rw [checks_eq, List.pairwise_map]
  refine (hsorted.and hnodup).imp_of_mem ?_
  intro a b ha hb h
  dsimp only
  rw [← hkey a ha, ← hkey b hb]
  refine lt_of_le_of_ne h.1 fun heq => h.2 ?_
  exact congrArg (fun k => (ofLex k).2) heq

theorem first_of_mem_checks {c : Str × List NormalizedFinding} (h : c ∈ checks rt findings) :
    Groups.First (·.status = lit "FAIL") c.2 := by
  obtain ⟨hgroup, -⟩ := (mem_checks_iff rt).mp h
  rw [hgroup]
  have : IsTrans NormalizedFinding fun f g => findingKey rt f ≤ findingKey rt g :=
    ⟨fun _ _ _ => le_trans⟩
  have : Std.Total fun f g => findingKey rt f ≤ findingKey rt g := ⟨fun _ _ => le_total _ _⟩
  exact first_of_key (findingKey rt) (fun _ => rfl) (List.pairwise_insertionSort _ _)

section
variable {pre post : List (Str × List NormalizedFinding)} {c : Str × List NormalizedFinding}

theorem mem_of_split (h : checks rt findings = pre ++ c :: post) : c ∈ checks rt findings := by
  rw [h]
  exact List.mem_append_right pre List.mem_cons_self

/-- The findings of the checks before a check are counted by their keys. -/
theorem total_eq_before (h : checks rt findings = pre ++ c :: post) :
    Groups.total pre = before rt findings c.1 := by
  have hsorted := checks_pairwise rt findings
  rw [h, List.pairwise_append, List.pairwise_cons] at hsorted
  obtain ⟨-, ⟨hafter, -⟩, hpre⟩ := hsorted
  have hid : ∀ d ∈ pre ++ c :: post, ∀ f ∈ d.2, f.checkId = d.1 := by
    intro d hd f hf
    rw [← h] at hd
    exact (checkId_of_mem_checks hd hf).2
  have hbefore : (pre.flatMap Prod.snd).countP
      (fun f => keyOf rt findings f.checkId < keyOf rt findings c.1) = Groups.total pre := by
    apply List.countP_eq_length.mpr
    intro f hf
    obtain ⟨d, hd, hf⟩ := List.mem_flatMap.mp hf
    rw [hid d (List.mem_append_left _ hd) f hf]
    exact decide_eq_true (hpre d hd c List.mem_cons_self)
  have hrest : ((c :: post).flatMap Prod.snd).countP
      (fun f => keyOf rt findings f.checkId < keyOf rt findings c.1) = 0 := by
    apply List.countP_eq_zero.mpr
    intro f hf
    obtain ⟨d, hd, hf⟩ := List.mem_flatMap.mp hf
    rw [hid d (List.mem_append_right _ hd) f hf, decide_eq_true_eq]
    rcases List.mem_cons.mp hd with rfl | hd
    · exact lt_irrefl _
    · exact lt_asymm (hafter d hd)
  have hcount := (checks_perm rt findings).countP_eq
    fun f => keyOf rt findings f.checkId < keyOf rt findings c.1
  rw [h, List.flatMap_append, List.countP_append, hbefore, hrest, Nat.add_zero] at hcount
  exact hcount

end

theorem countP_fail {c : Str × List NormalizedFinding} (h : c ∈ checks rt findings) :
    c.2.countP (·.status = lit "FAIL") = failures findings c.1 := by
  obtain ⟨hgroup, -⟩ := (mem_checks_iff rt).mp h
  rw [hgroup, (sortedGroup_perm rt _).countP_eq, List.countP_filter, failures]
  congr 1
  funext f
  simp only [Bool.decide_and, Bool.and_comm]

theorem exists_check (rt : Runtime) {f : NormalizedFinding} (hf : f ∈ findings) :
    ∃ pre c post, checks rt findings = pre ++ c :: post ∧ c.1 = f.checkId ∧ f ∈ c.2 := by
  obtain ⟨c, hc, hmem⟩ := List.mem_flatMap.mp ((checks_perm rt findings).mem_iff.mpr hf)
  obtain ⟨pre, post, h⟩ := List.append_of_mem hc
  exact ⟨pre, c, post, h, (checkId_of_mem_checks hc hmem).2.symm, hmem⟩

/-- A failure has no detail line when its check has failures after the limit. -/
theorem exists_omitted_iff :
    (∃ f ∈ omitted rt findings, f.status = lit "FAIL") ↔
      ∃ f ∈ findings, f.status = lit "FAIL" ∧
        maxDetailLines < before rt findings f.checkId + failures findings f.checkId := by
  rw [omitted_eq]
  constructor
  · intro h
    obtain ⟨f, hf, hfail⟩ := h
    obtain ⟨pre, c, post, hsplit, hdrop⟩ := Groups.mem_drop_flatMap.mp hf
    have hc := mem_of_split hsplit
    obtain ⟨hmem, hid⟩ := checkId_of_mem_checks hc (List.mem_of_mem_drop hdrop)
    have hlt := (Groups.exists_mem_drop_iff (first_of_mem_checks hc) _).mp ⟨f, hdrop, hfail⟩
    rw [countP_fail hc, total_eq_before hsplit, ← hid] at hlt
    exact ⟨f, hmem, hfail, by omega⟩
  · intro h
    obtain ⟨f, hf, hfail, hlt⟩ := h
    obtain ⟨pre, c, post, hsplit, hid, hmem⟩ := exists_check rt hf
    have hc := mem_of_split hsplit
    have hpos : 0 < failures findings c.1 := by
      rw [← countP_fail hc]
      exact List.countP_pos_iff.mpr ⟨f, hmem, decide_eq_true hfail⟩
    rw [← hid] at hlt
    have hcut : maxDetailLines - Groups.total pre < c.2.countP (·.status = lit "FAIL") := by
      rw [countP_fail hc, total_eq_before hsplit]
      omega
    obtain ⟨g, hg, hgfail⟩ := (Groups.exists_mem_drop_iff (first_of_mem_checks hc) _).mpr hcut
    exact ⟨g, Groups.mem_drop_flatMap.mpr ⟨pre, c, post, hsplit, hg⟩, hgfail⟩

/-- A finding that does not fail has a detail line when its check has fewer failures than the
limit leaves. -/
theorem exists_listed_iff :
    (∃ g ∈ listed rt findings, g.status ≠ lit "FAIL") ↔
      ∃ g ∈ findings, g.status ≠ lit "FAIL" ∧
        before rt findings g.checkId + failures findings g.checkId < maxDetailLines := by
  rw [listed_eq]
  constructor
  · intro h
    obtain ⟨g, hg, hpass⟩ := h
    obtain ⟨pre, c, post, hsplit, htake⟩ := Groups.mem_take_flatMap.mp hg
    have hc := mem_of_split hsplit
    obtain ⟨hmem, hid⟩ := checkId_of_mem_checks hc (List.mem_of_mem_take htake)
    have hlt := ((Groups.exists_mem_take_iff (first_of_mem_checks hc) _).mp
      ⟨g, htake, hpass⟩).1
    rw [countP_fail hc, total_eq_before hsplit, ← hid] at hlt
    exact ⟨g, hmem, hpass, by omega⟩
  · intro h
    obtain ⟨g, hg, hpass, hlt⟩ := h
    obtain ⟨pre, c, post, hsplit, hid, hmem⟩ := exists_check rt hg
    have hc := mem_of_split hsplit
    rw [← hid] at hlt
    have hcut : c.2.countP (·.status = lit "FAIL") < maxDetailLines - Groups.total pre := by
      rw [countP_fail hc, total_eq_before hsplit]
      omega
    obtain ⟨f, hf, hfpass⟩ :=
      (Groups.exists_mem_take_iff (first_of_mem_checks hc) _).mpr ⟨hcut, g, hmem, hpass⟩
    exact ⟨f, Groups.mem_take_flatMap.mpr ⟨pre, c, post, hsplit, hf⟩, hfpass⟩

theorem noFailureHidden_listed_iff (findings : List NormalizedFinding) :
    NoFailureHidden (·.status = lit "FAIL") findings (listed rt findings) ↔
      CapSpares rt findings := by
  rw [noFailureHidden_iff (listed_append_omitted_perm rt findings), exists_omitted_iff,
    exists_listed_iff]
  constructor
  · intro h f hf g hg hfail hpass
    by_contra hneither
    rw [not_or, Nat.not_le, Nat.not_le] at hneither
    exact h ⟨f, hf, hfail, hneither.1⟩ ⟨g, hg, hpass, hneither.2⟩
  · intro h homitted hlisted
    obtain ⟨f, hf, hfail, hmany⟩ := homitted
    obtain ⟨g, hg, hpass, hfew⟩ := hlisted
    rcases h f hf g hg hfail hpass with hle | hle
    · omega
    · omega

/-! ### A failure behind passes -/

theorem parseRecordsFrom_replicate {flib : FindingsLibrary} {rec : Json} {f : NormalizedFinding}
    (h : ∀ index, parseRecord rt flib index rec = .ok f) (n index : Nat) (data : List Json) :
    parseRecordsFrom rt flib index (List.replicate n rec ++ data) =
      (List.replicate n f ++ (parseRecordsFrom rt flib (index + n) data).1,
        (parseRecordsFrom rt flib (index + n) data).2) := by
  induction n generalizing index with
  | zero => rfl
  | succ n ih =>
      rw [List.replicate_succ, List.cons_append, parseRecordsFrom, h, ih,
        show index + 1 + n = index + (n + 1) by omega]
      rfl

theorem smallestKey_replicate {f g : NormalizedFinding} (h : findingKey rt f ≤ findingKey rt g)
    (n : Nat) : smallestKey rt (f :: List.replicate n g) = findingKey rt f := by
  rw [smallestKey]
  induction n with
  | zero => rfl
  | succ n ih => rw [List.replicate_succ, List.foldl_cons, min_eq_left h, ih]

namespace Sample

def record (checkId status : Str) : Json :=
  .obj [(lit "CheckID", .str checkId), (lit "Status", .str status),
    (lit "Severity", .str (lit "high"))]

def finding (checkId status : Str) : NormalizedFinding where
  checkId := checkId
  title := checkId
  status := status
  severity := lit "high"
  region := none
  resourceUid := none
  statusDetail := []

/-- A check with one failure and 300 passes, and another one with a failure. -/
def capped : List Json :=
  record (lit "check_a") (lit "FAIL") ::
    (List.replicate 300 (record (lit "check_a") (lit "PASS")) ++
      [record (lit "check_b") (lit "FAIL")])

def cappedFindings (n : Nat) : List NormalizedFinding :=
  finding (lit "check_a") (lit "FAIL") ::
    (List.replicate n (finding (lit "check_a") (lit "PASS")) ++
      [finding (lit "check_b") (lit "FAIL")])

def runtime : Runtime := .ascii Runtime.transparentDigest

theorem parseRecord_record (index : Nat) {checkId status : Str}
    (h : (parseRecord runtime .ascii 0 (record checkId status)).toOption =
      some (finding checkId status)) :
    parseRecord runtime .ascii index (record checkId status) = .ok (finding checkId status) := by
  have hindex : ∀ index, (parseRecord runtime .ascii index (record checkId status)).toOption =
      (normalizeLegacyRecord runtime .ascii
        [(lit "CheckID", .str checkId), (lit "Status", .str status),
          (lit "Severity", .str (lit "high"))]).toOption := by
    intro index
    have hlegacy : isOcsfRecord [(lit "CheckID", .str checkId), (lit "Status", .str status),
        (lit "Severity", .str (lit "high"))] = false := rfl
    rw [record, parseRecord, hlegacy, if_neg (by decide)]
    cases normalizeLegacyRecord runtime .ascii [(lit "CheckID", .str checkId),
        (lit "Status", .str status), (lit "Severity", .str (lit "high"))] with
    | ok f => rfl
    | error e => rfl
  have hsome := (hindex index).trans ((hindex 0).symm.trans h)
  cases hparse : parseRecord runtime .ascii index (record checkId status) with
  | ok f =>
      rw [hparse] at hsome
      exact congrArg Except.ok (Option.some.inj hsome)
  | error e =>
      rw [hparse] at hsome
      cases hsome

theorem parse_capped : ∃ result, parseProwlerFindings runtime .ascii (.arr capped) = .ok result ∧
    result.findings = cappedFindings 300 := by
  have hfail : ∀ index, parseRecord runtime .ascii index (record (lit "check_a") (lit "FAIL")) =
      .ok (finding (lit "check_a") (lit "FAIL")) :=
    fun index => parseRecord_record index (by decide +kernel)
  have hpass : ∀ index, parseRecord runtime .ascii index (record (lit "check_a") (lit "PASS")) =
      .ok (finding (lit "check_a") (lit "PASS")) :=
    fun index => parseRecord_record index (by decide +kernel)
  have hother : ∀ index, parseRecord runtime .ascii index (record (lit "check_b") (lit "FAIL")) =
      .ok (finding (lit "check_b") (lit "FAIL")) :=
    fun index => parseRecord_record index (by decide +kernel)
  have hlast : ∀ index, (parseRecordsFrom runtime .ascii index
      [record (lit "check_b") (lit "FAIL")]).1 = [finding (lit "check_b") (lit "FAIL")] := by
    intro index
    rw [parseRecordsFrom, hother]
    rfl
  refine ⟨_, rfl, ?_⟩
  change (parseRecordsFrom runtime .ascii 0 capped).1 = cappedFindings 300
  rw [capped, parseRecordsFrom, hfail, parseRecordsFrom_replicate hpass]
  dsimp only
  rw [hlast]
  rfl

theorem not_capSpares (n : Nat) (hn : maxDetailLines ≤ n) :
    ¬ CapSpares runtime (cappedFindings n) := by
  have hfilterA : (cappedFindings n).filter (·.checkId = lit "check_a") =
      finding (lit "check_a") (lit "FAIL") ::
        List.replicate n (finding (lit "check_a") (lit "PASS")) := by
    have hne : lit "check_b" ≠ lit "check_a" := by decide
    simp [cappedFindings, finding, hne]
  have hfilterB : (cappedFindings n).filter (·.checkId = lit "check_b") =
      [finding (lit "check_b") (lit "FAIL")] := by
    have hne : lit "check_a" ≠ lit "check_b" := by decide
    simp [cappedFindings, finding, hne]
  have hlt : keyOf runtime (cappedFindings n) (lit "check_a") <
      keyOf runtime (cappedFindings n) (lit "check_b") := by
    have hle : findingKey runtime (finding (lit "check_a") (lit "FAIL")) ≤
        findingKey runtime (finding (lit "check_a") (lit "PASS")) := by decide +kernel
    rw [keyOf, keyOf, hfilterA, hfilterB, checkKey, checkKey]
    dsimp only
    rw [smallestKey_replicate hle]
    decide +kernel
  have hpass : lit "PASS" ≠ lit "FAIL" := by decide
  have hids : lit "check_b" ≠ lit "check_a" := by decide
  have hbefore : ∀ k : Str → CheckKey, k (lit "check_a") < k (lit "check_b") →
      (cappedFindings n).countP (fun f => k f.checkId < k (lit "check_a")) = 0 ∧
        (cappedFindings n).countP (fun f => k f.checkId < k (lit "check_b")) = n + 1 := by
    intro k hk
    constructor
    · simp [cappedFindings, finding, List.countP_replicate, lt_asymm hk]
    · simp [cappedFindings, finding, List.countP_replicate, hk]
  have hfailures : failures (cappedFindings n) (lit "check_a") = 1 := by
    simp [failures, cappedFindings, finding, List.countP_replicate, hpass, hids]
  obtain ⟨hfirst, hsecond⟩ := hbefore (keyOf runtime (cappedFindings n)) hlt
  intro h
  have hmemB : finding (lit "check_b") (lit "FAIL") ∈ cappedFindings n := by
    simp [cappedFindings]
  have hmemA : finding (lit "check_a") (lit "PASS") ∈ cappedFindings n := by
    have hpos : n ≠ 0 := by
      have hlimit : maxDetailLines = 300 := rfl
      omega
    simp [cappedFindings, hpos]
  rcases h _ hmemB _ hmemA rfl hpass with hle | hle
  · have hb : n + 1 + failures (cappedFindings n) (lit "check_b") ≤ maxDetailLines := by
      rw [← hsecond]
      exact hle
    omega
  · have ha : maxDetailLines ≤ 0 + 1 := by
      rw [← hfirst, ← hfailures]
      exact hle
    exact absurd ha (by decide)

end Sample

/-- The failure of the second check has no detail line, and 299 passes of the first one have. -/
theorem capped_hides_failure :
    ∃ result, parseProwlerFindings Sample.runtime .ascii (.arr Sample.capped) = .ok result ∧
      ¬ NoFailureHidden (·.status = lit "FAIL") result.findings
        ((summaryLines Sample.runtime result).filterMap Line.detailed) := by
  obtain ⟨result, hparse, hfindings⟩ := Sample.parse_capped
  refine ⟨result, hparse, ?_⟩
  rw [detailed_summaryLines, noFailureHidden_listed_iff, hfindings]
  exact Sample.not_capSpares 300 (by decide)

end Prowler

namespace Findings

/-- The detail limit hides no failure behind a pass in a Prowler summary exactly when the failures
of each check that fails fit in the limit, or the findings that do not fail come after it.  It
never does in a Security Hub summary. -/
theorem detailCap_iff (rt : Runtime) (flib : FindingsLibrary) :
    (∀ result : ProwlerParseResult,
      NoFailureHidden (·.status = lit "FAIL") result.findings
          ((Prowler.summaryLines rt result).filterMap Prowler.Line.detailed) ↔
        Prowler.CapSpares rt result.findings) ∧
    ∀ (result : SecurityHubParseResult) (filters : Dict Str (List SecurityHub.FilterCondition))
      (truncated : Bool),
      NoFailureHidden (·.complianceStatus = lit "FAILED") result.findings
        ((SecurityHub.summaryLines rt flib result filters truncated).filterMap
          SecurityHub.Line.detailed) := by
  constructor
  · intro result
    rw [Prowler.detailed_summaryLines, Prowler.noFailureHidden_listed_iff]
  · intro result filters truncated
    rw [SecurityHub.detailed_summaryLines]
    exact SecurityHub.noFailureHidden result

end Findings

end AuditSwarm
