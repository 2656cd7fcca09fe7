import Mathlib.Data.List.Infix

/-!
# Replacing matches from left to right

`replaceAll` puts a replacement for every match of a pattern, from left to right and without
overlaps.  A pattern is a function that says, of a list it matches at the start of, what follows the
match.
-/

namespace Replace

variable {α : Type}

/-- A match takes at least one element, and what follows it is the end of the list. -/
def Shrinks (matchAt : List α → Option (List α)) : Prop :=
  ∀ x s rest, matchAt (x :: s) = some rest → rest <:+ s

/-- `replaceAll` with the number of elements that belong to a match still to be passed over. -/
def replaceFrom (matchAt : List α → Option (List α)) (repl : List α) : Nat → List α → List α
  | _, [] => []
  | 0, x :: s =>
      match matchAt (x :: s) with
      | some rest => repl ++ replaceFrom matchAt repl (s.length - rest.length) s
      | none => x :: replaceFrom matchAt repl 0 s
  | k + 1, _ :: s => replaceFrom matchAt repl k s

def replaceAll (matchAt : List α → Option (List α)) (repl s : List α) : List α :=
  replaceFrom matchAt repl 0 s

section
variable {matchAt : List α → Option (List α)} {repl s rest : List α} {x : α}

theorem replaceFrom_append (t s : List α) :
    replaceFrom matchAt repl t.length (t ++ s) = replaceAll matchAt repl s := by
  induction t with
  | nil => rfl
  | cons x t ih =>
      rw [List.length_cons, List.cons_append, replaceFrom]
      exact ih

@[simp] theorem replaceAll_nil : replaceAll matchAt repl [] = [] := rfl

theorem replaceAll_of_some (hshrinks : Shrinks matchAt) (h : matchAt (x :: s) = some rest) :
    replaceAll matchAt repl (x :: s) = repl ++ replaceAll matchAt repl rest := by
  obtain ⟨t, rfl⟩ := hshrinks x s rest h
  have hlength : (t ++ rest).length - rest.length = t.length := by simp
  rw [replaceAll, replaceFrom, h]
  dsimp only
  rw [hlength, replaceFrom_append]

theorem replaceAll_of_none (h : matchAt (x :: s) = none) :
    replaceAll matchAt repl (x :: s) = x :: replaceAll matchAt repl s := by
  rw [replaceAll, replaceFrom, h]
  rfl

theorem replaceAll_eq_self (h : ∀ t, t <:+ s → matchAt t = none) :
    replaceAll matchAt repl s = s := by
  induction s with
  | nil => rfl
  | cons x s ih =>
      rw [replaceAll_of_none (h _ (List.suffix_refl _)),
        ih fun t ht => h t (ht.trans (List.suffix_cons x s))]

end

/-! ## A single mark as the replacement -/

section
variable {matchAt : List α → Option (List α)} {mark : α}

/-- Each end of the result is the result of an end of the list. -/
theorem exists_of_suffix_replaceAll (hshrinks : Shrinks matchAt) {s t : List α}
    (h : t <:+ replaceAll matchAt [mark] s) :
    ∃ u, u <:+ s ∧ t = replaceAll matchAt [mark] u := by
  induction hn : s.length using Nat.strong_induction_on generalizing s with
  | _ n ih =>
    subst hn
    cases s with
    | nil =>
        rw [replaceAll_nil, List.suffix_nil] at h
        exact ⟨[], List.suffix_refl _, h⟩
    | cons x s =>
        cases hmatch : matchAt (x :: s) with
        | some rest =>
            have hrest := hshrinks x s rest hmatch
            rw [replaceAll_of_some hshrinks hmatch, List.singleton_append] at h
            rcases List.suffix_cons_iff.mp h with rfl | h
            · refine ⟨x :: s, List.suffix_refl _, ?_⟩
              rw [replaceAll_of_some hshrinks hmatch, List.singleton_append]
            · have hlt : rest.length < (x :: s).length := by
                have hle := hrest.length_le
                rw [List.length_cons]
                omega
              obtain ⟨u, hu, ht⟩ := ih _ hlt h rfl
              exact ⟨u, hu.trans (hrest.trans (List.suffix_cons x s)), ht⟩
        | none =>
            rw [replaceAll_of_none hmatch] at h
            rcases List.suffix_cons_iff.mp h with rfl | h
            · refine ⟨x :: s, List.suffix_refl _, ?_⟩
              rw [replaceAll_of_none hmatch]
            · have hlt : s.length < (x :: s).length := by
                rw [List.length_cons]
                omega
              obtain ⟨u, hu, ht⟩ := ih _ hlt h rfl
              exact ⟨u, hu.trans (List.suffix_cons x s), ht⟩

/-- Elements that are not the mark stand in the result as in the list, which does not match where
they start. -/
theorem eq_append_of_replaceAll (hshrinks : Shrinks matchAt) {s xs rest : List α}
    (h : replaceAll matchAt [mark] s = xs ++ rest) (hmark : mark ∉ xs) :
    ∃ s', s = xs ++ s' ∧ rest = replaceAll matchAt [mark] s' ∧ (xs ≠ [] → matchAt s = none) := by
  induction xs generalizing s with
  | nil => exact ⟨s, rfl, h.symm, fun hne => absurd rfl hne⟩
  | cons y xs ih =>
      rw [List.mem_cons, not_or] at hmark
      cases s with
      | nil => cases h
      | cons x s =>
          cases hmatch : matchAt (x :: s) with
          | some r =>
              rw [replaceAll_of_some hshrinks hmatch] at h
              exact absurd (List.cons.inj h).1 hmark.1
          | none =>
              rw [replaceAll_of_none hmatch] at h
              obtain ⟨rfl, htail⟩ := List.cons.inj h
              obtain ⟨s', rfl, hrest, -⟩ := ih htail hmark.2
              exact ⟨s', rfl, hrest, fun _ => rfl⟩

/-- Apart from the mark, the result has no element that the list does not have. -/
theorem mem_of_mem_replaceAll (hshrinks : Shrinks matchAt) {s : List α} {x : α}
    (h : x ∈ replaceAll matchAt [mark] s) (hne : x ≠ mark) : x ∈ s := by
  obtain ⟨t, u, hsplit⟩ := List.append_of_mem h
  have hsuffix : x :: u <:+ replaceAll matchAt [mark] s := ⟨t, hsplit.symm⟩
  obtain ⟨v, hv, heq⟩ := exists_of_suffix_replaceAll hshrinks hsuffix
  have hmark : mark ∉ [x] := by
    intro hmem
    exact hne (List.mem_singleton.mp hmem).symm
  obtain ⟨s', rfl, -⟩ := eq_append_of_replaceAll hshrinks heq.symm hmark
  exact hv.subset List.mem_cons_self

end

end Replace
