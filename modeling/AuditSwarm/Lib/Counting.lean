import Mathlib

/-!
# Counting the satisfying elements of a list

What one replacement does to a count, a count bounded by two others, and a count over what is left
when a front is dropped.
-/

namespace List

variable {α : Type}

theorem countP_set_le {p : α → Bool} {l : List α} {i : Nat} {a b : α} (hget : l[i]? = some a)
    (h : p b = true → p a = true) : (l.set i b).countP p ≤ l.countP p := by
  have hlt : i < l.length := (getElem?_eq_some_iff.mp hget).choose
  have ha : l[i] = a := (getElem?_eq_some_iff.mp hget).choose_spec
  rw [countP_set hlt, ha]
  by_cases hb : p b = true
  · have hpos : 0 < l.countP p := countP_pos_iff.mpr ⟨a, mem_of_getElem? hget, h hb⟩
    rw [if_pos hb, if_pos (h hb)]
    omega
  · rw [if_neg hb]
    omega

theorem countP_set_le_succ {p : α → Bool} {l : List α} {i : Nat} {b : α} :
    (l.set i b).countP p ≤ l.countP p + 1 := by
  by_cases hlt : i < l.length
  · rw [countP_set hlt]
    by_cases hb : p b = true
    · rw [if_pos hb]
      omega
    · rw [if_neg hb]
      omega
  · rw [set_eq_of_length_le (by omega)]
    omega

theorem countP_le_add {p q q' : α → Bool} {l : List α}
    (h : ∀ a ∈ l, p a = true → q a = true ∨ q' a = true) :
    l.countP p ≤ l.countP q + l.countP q' := by
  induction l with
  | nil => simp
  | cons a l ih =>
      have hrest := ih fun b hb => h b (mem_cons_of_mem a hb)
      have ha := h a mem_cons_self
      rw [countP_cons, countP_cons, countP_cons]
      by_cases hp : p a = true
      · rcases ha hp with hq | hq
        · rw [if_pos hp, if_pos hq]
          omega
        · rw [if_pos hp, if_pos hq]
          omega
      · rw [if_neg hp]
        omega

theorem countP_dropWhile {p f : α → Bool} {l : List α} (h : ∀ a, f a = true → p a = false) :
    (l.dropWhile f).countP p = l.countP p := by
  induction l with
  | nil => rfl
  | cons a l ih =>
      rw [dropWhile_cons]
      by_cases hf : f a = true
      · rw [if_pos hf, ih, countP_cons_of_neg]
        rw [h a hf]
        exact Bool.false_ne_true
      · rw [if_neg hf]

end List
