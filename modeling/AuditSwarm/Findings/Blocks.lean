import AuditSwarm.Findings.Grouping
import AuditSwarm.Model.Prowler

/-!
# The checks of a Prowler summary

The checks are a partition of the findings, and the detail limit cuts their list off at one place.
-/

namespace AuditSwarm

open Python Findings

namespace Prowler

variable (rt : Runtime)

/-! ## Checks -/

/-- The groups before they are sorted, in the order of the summary. -/
def sortedGroups (findings : List NormalizedFinding) : List (Str × List NormalizedFinding) :=
  (groupBy NormalizedFinding.checkId findings).insertionSort
    fun a b => checkKey rt a ≤ checkKey rt b

/-- The findings of a check, in the order of the summary. -/
def sortedGroup (group : List NormalizedFinding) : List NormalizedFinding :=
  group.insertionSort fun f g => findingKey rt f ≤ findingKey rt g

theorem checks_eq (findings : List NormalizedFinding) :
    checks rt findings = (sortedGroups rt findings).map fun c => (c.1, sortedGroup rt c.2) := rfl

theorem sortedGroup_perm (group : List NormalizedFinding) : (sortedGroup rt group).Perm group :=
  List.perm_insertionSort _ group

theorem mem_checks_iff {findings : List NormalizedFinding} {c : Str}
    {group : List NormalizedFinding} :
    (c, group) ∈ checks rt findings ↔
      group = sortedGroup rt (findings.filter (·.checkId = c)) ∧ group ≠ [] := by
  have hnil : ∀ g, sortedGroup rt g = [] ↔ g = [] := by
    intro g
    rw [← List.length_eq_zero_iff, (sortedGroup_perm rt g).length_eq, List.length_eq_zero_iff]
  rw [checks_eq, List.mem_map]
  constructor
  · intro h
    obtain ⟨⟨c', g⟩, hmem, heq⟩ := h
    obtain ⟨rfl, rfl⟩ := Prod.mk.inj heq
    have hgroup := (List.perm_insertionSort _ _).mem_iff.mp hmem
    obtain ⟨rfl, hne⟩ := (mem_groupBy_iff _).mp hgroup
    refine ⟨rfl, ?_⟩
    intro hempty
    exact hne ((hnil _).mp hempty)
  · intro h
    obtain ⟨rfl, hne⟩ := h
    refine ⟨(c, findings.filter (·.checkId = c)), ?_, rfl⟩
    apply (List.perm_insertionSort _ _).mem_iff.mpr
    refine (mem_groupBy_iff _).mpr ⟨rfl, ?_⟩
    intro hempty
    exact hne ((hnil _).mpr hempty)

theorem checks_perm (findings : List NormalizedFinding) :
    ((checks rt findings).flatMap Prod.snd).Perm findings := by
  have hsorted : ∀ groups : List (Str × List NormalizedFinding),
      ((groups.map fun c => (c.1, sortedGroup rt c.2)).flatMap Prod.snd).Perm
        (groups.flatMap Prod.snd) := by
    intro groups
    induction groups with
    | nil => exact .refl []
    | cons g groups ih =>
        rw [List.map_cons, List.flatMap_cons, List.flatMap_cons]
        exact (sortedGroup_perm rt g.2).append ih
  rw [checks_eq]
  refine (hsorted _).trans ?_
  exact ((List.perm_insertionSort _ _).flatMap_right _).trans (groupBy_perm _ findings)

/-! ## Blocks -/

def listed (findings : List NormalizedFinding) : List NormalizedFinding :=
  (blocks rt findings).flatMap fun b => b.group.take b.shown

def omitted (findings : List NormalizedFinding) : List NormalizedFinding :=
  (blocks rt findings).flatMap fun b => b.group.drop b.shown

theorem blocksFrom_map (printed : Nat) (cs : List (Str × List NormalizedFinding)) :
    (blocksFrom printed cs).map (fun b => (b.checkId, b.group)) = cs := by
  induction cs generalizing printed with
  | nil => rfl
  | cons c cs ih => rw [blocksFrom, List.map_cons, ih]

/-- The detail limit cuts the list of all findings off at one place. -/
theorem blocksFrom_cut (cut : Nat → List NormalizedFinding → List NormalizedFinding)
    (hnil : ∀ n, cut n [] = [])
    (happend : ∀ n xs ys, cut n (xs ++ ys) = cut n xs ++ cut (n - xs.length) ys)
    (hmin : ∀ n xs, cut (min xs.length n) xs = cut n xs)
    (printed : Nat) (cs : List (Str × List NormalizedFinding)) :
    (blocksFrom printed cs).flatMap (fun b => cut b.shown b.group) =
      cut (maxDetailLines - printed) (cs.flatMap Prod.snd) := by
  induction cs generalizing printed with
  | nil => rw [blocksFrom, List.flatMap_nil, List.flatMap_nil, hnil]
  | cons c cs ih =>
      have hleft : maxDetailLines - (printed + min c.2.length (maxDetailLines - printed)) =
          maxDetailLines - printed - c.2.length := by omega
      rw [blocksFrom, List.flatMap_cons, List.flatMap_cons, ih, happend, hleft]
      dsimp only
      rw [hmin]

theorem listed_eq (findings : List NormalizedFinding) :
    listed rt findings = ((checks rt findings).flatMap Prod.snd).take maxDetailLines := by
  apply blocksFrom_cut List.take (fun _ => List.take_nil) fun _ _ _ => List.take_append
  intro n xs
  rw [Nat.min_comm, ← List.take_eq_take_min]

theorem omitted_eq (findings : List NormalizedFinding) :
    omitted rt findings = ((checks rt findings).flatMap Prod.snd).drop maxDetailLines := by
  apply blocksFrom_cut List.drop (fun _ => List.drop_nil) fun _ _ _ => List.drop_append
  intro n xs
  by_cases h : xs.length ≤ n
  · rw [Nat.min_eq_left h, List.drop_length, List.drop_eq_nil_of_le h]
  · rw [Nat.min_eq_right (by omega)]

/-- Every finding has a detail line or is counted as omitted. -/
theorem listed_append_omitted_perm (findings : List NormalizedFinding) :
    (listed rt findings ++ omitted rt findings).Perm findings := by
  rw [listed_eq, omitted_eq, List.take_append_drop]
  exact checks_perm rt findings

theorem omittedCount_eq (findings : List NormalizedFinding) :
    omittedCount (blocks rt findings) = (omitted rt findings).length := by
  rw [omittedCount, omitted, List.length_flatMap]
  simp only [List.length_drop]

end Prowler

end AuditSwarm
