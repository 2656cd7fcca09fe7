import AuditSwarm.Lib.Groups
import AuditSwarm.Model.Findings

/-!
# Counts and groups of findings

The counts of a list of statuses add up to its length, and the groups of a list of findings are a
partition of it.
-/

namespace AuditSwarm

open Python

namespace Findings

/-! ## Counts -/

theorem statusCounts_append_singleton (statuses : List Str) (s : Str) :
    statusCounts (statuses ++ [s]) =
      (statusCounts statuses).set s (((statusCounts statuses).get? s).getD 0 + 1) := by
  rw [statusCounts, List.foldl_append]
  rfl

theorem sum_statusCounts (statuses : List Str) :
    ((statusCounts statuses).map Prod.snd).sum = statuses.length := by
  induction statuses using List.reverseRecOn with
  | nil => rfl
  | append_singleton statuses s ih =>
      rw [statusCounts_append_singleton, Dict.sum_set_add, ih, List.length_append]
      rfl

/-- The count of a status is the number of times it is there. -/
theorem get?_statusCounts (statuses : List Str) (s : Str) :
    ((statusCounts statuses).get? s).getD 0 = statuses.count s := by
  induction statuses using List.reverseRecOn with
  | nil => rfl
  | append_singleton statuses t ih =>
      rw [statusCounts_append_singleton, Dict.get?_set, List.count_append, List.count_singleton]
      by_cases h : t = s
      · subst h
        simp [ih]
      · simp [h, ih]

/-! ## Groups -/

section
variable {α : Type} (key : α → Str)

theorem groupBy_append_singleton (xs : List α) (x : α) :
    groupBy key (xs ++ [x]) =
      (groupBy key xs).set (key x) (((groupBy key xs).get? (key x)).getD [] ++ [x]) := by
  rw [groupBy, List.foldl_append]
  rfl

/-- Nothing is dropped by grouping, and nothing is put in twice. -/
theorem groupBy_perm (xs : List α) : ((groupBy key xs).flatMap Prod.snd).Perm xs := by
  induction xs using List.reverseRecOn with
  | nil => exact .refl []
  | append_singleton xs x ih =>
      rw [groupBy_append_singleton]
      exact (Dict.flatMap_set_append_perm _ _ _).trans (ih.append_right [x])

theorem nodup_keys_groupBy (xs : List α) : ((groupBy key xs).map Prod.fst).Nodup := by
  induction xs using List.reverseRecOn with
  | nil => exact List.nodup_nil
  | append_singleton xs x ih =>
      rw [groupBy_append_singleton]
      exact Dict.nodup_keys_set ih _ _

/-- The group of a key: the elements with the key, if there are any. -/
theorem get?_groupBy (xs : List α) (k : Str) :
    (groupBy key xs).get? k =
      if xs.filter (key · = k) = [] then none else some (xs.filter (key · = k)) := by
  induction xs using List.reverseRecOn with
  | nil => rfl
  | append_singleton xs x ih =>
      rw [groupBy_append_singleton, Dict.get?_set, List.filter_append]
      by_cases h : key x = k
      · subst h
        have hlast : [x].filter (key · = key x) = [x] := by simp
        rw [if_pos rfl, hlast, if_neg (by simp), ih]
        split
        · rename_i hnil
          rw [hnil, Option.getD_none]
        · rw [Option.getD_some]
      · have hlast : [x].filter (key · = k) = [] := by simp [h]
        rw [if_neg h, hlast, List.append_nil, ih]

theorem mem_groupBy_iff {xs : List α} {k : Str} {group : List α} :
    (k, group) ∈ groupBy key xs ↔ group = xs.filter (key · = k) ∧ group ≠ [] := by
  rw [Dict.mem_iff_get? (nodup_keys_groupBy key xs), get?_groupBy]
  by_cases h : xs.filter (key · = k) = []
  · rw [if_pos h]
    constructor
    · intro hsome
      cases hsome
    · intro hgroup
      rw [hgroup.1] at hgroup
      exact absurd h hgroup.2
  · rw [if_neg h]
    constructor
    · intro hsome
      obtain rfl := Option.some.inj hsome
      exact ⟨rfl, h⟩
    · intro hgroup
      rw [hgroup.1]

end

end Findings

end AuditSwarm
