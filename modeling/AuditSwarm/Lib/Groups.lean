import AuditSwarm.Lib.Dict

/-!
# Groups of a list

Collecting the elements of a list, or their number, under keys, and cutting a list of groups off
after a number of elements.
-/

namespace Dict

variable {κ α : Type} [DecidableEq κ]

theorem sum_set_add (d : Dict κ Nat) (k : κ) (n : Nat) :
    ((d.set k ((d.get? k).getD 0 + n)).map Prod.snd).sum = (d.map Prod.snd).sum + n := by
  induction d with
  | nil => simp [set, get?]
  | cons kv d ih =>
      by_cases h : kv.1 = k
      · simp only [set, get?, if_pos h, Option.getD_some, List.map_cons, List.sum_cons]
        omega
      · simp only [set, get?, if_neg h, List.map_cons, List.sum_cons, ih]
        omega

/-- Adding to the group under a key adds to the elements. -/
theorem flatMap_set_append_perm (d : Dict κ (List α)) (k : κ) (ys : List α) :
    ((d.set k ((d.get? k).getD [] ++ ys)).flatMap Prod.snd).Perm (d.flatMap Prod.snd ++ ys) := by
  induction d with
  | nil => simp [set, get?]
  | cons kv d ih =>
      by_cases h : kv.1 = k
      · simp only [set, get?, if_pos h, Option.getD_some, List.flatMap_cons, List.append_assoc]
        exact List.perm_append_comm.append_left kv.2
      · simp only [set, get?, if_neg h, List.flatMap_cons, List.append_assoc]
        exact ih.append_left kv.2

end Dict

namespace Groups

variable {κ α : Type} {groups : List (κ × List α)} {x : α}

theorem sum_map_flatMap {β : Type} (f : β → Nat) (g : α → List β) (xs : List α) :
    ((xs.flatMap g).map f).sum = (xs.map fun x => ((g x).map f).sum).sum := by
  induction xs with
  | nil => rfl
  | cons x xs ih =>
      rw [List.flatMap_cons, List.map_append, List.sum_append, ih, List.map_cons, List.sum_cons]

/-- Groups with distinct labels, in each of which every element occurs once and has the label. -/
theorem nodup_of_labels (label : α → κ) (hlabels : (groups.map Prod.fst).Nodup)
    (h : ∀ g ∈ groups, g.2.Nodup) (hlabel : ∀ g ∈ groups, ∀ x ∈ g.2, label x = g.1) :
    (groups.flatMap Prod.snd).Nodup := by
  apply List.nodup_flatMap.mpr
  refine ⟨h, ?_⟩
  have hpairs : groups.Pairwise fun g g' => g.1 ≠ g'.1 := List.pairwise_map.mp hlabels
  refine hpairs.imp_of_mem ?_
  intro g g' hg hg' hne x hx hx'
  exact hne ((hlabel g hg x hx).symm.trans (hlabel g' hg' x hx'))

theorem sublist_flatten {as bs : List (List α)} (h : List.Forall₂ List.Sublist as bs) :
    as.flatten.Sublist bs.flatten := by
  induction h with
  | nil => exact List.Sublist.refl _
  | cons hab _ ih => exact hab.append ih

def total (groups : List (κ × List α)) : Nat := (groups.flatMap Prod.snd).length

@[simp] theorem total_cons (g : κ × List α) :
    total (g :: groups) = g.2.length + total groups := by
  simp [total]

theorem mem_cut_flatMap (cut : Nat → List α → List α) (hnil : ∀ n, cut n [] = [])
    (happend : ∀ n xs ys, cut n (xs ++ ys) = cut n xs ++ cut (n - xs.length) ys) {n : Nat} :
    x ∈ cut n (groups.flatMap Prod.snd) ↔
      ∃ pre g post, groups = pre ++ g :: post ∧ x ∈ cut (n - total pre) g.2 := by
  induction groups generalizing n with
  | nil => simp [hnil]
  | cons g groups ih =>
      rw [List.flatMap_cons, happend, List.mem_append, ih]
      constructor
      · intro h
        rcases h with h | ⟨pre, g', post, rfl, h⟩
        · exact ⟨[], g, groups, rfl, h⟩
        · refine ⟨g :: pre, g', post, rfl, ?_⟩
          rwa [total_cons, Nat.sub_add_eq]
      · intro h
        obtain ⟨pre, g', post, heq, h⟩ := h
        cases pre with
        | nil =>
            obtain ⟨rfl, rfl⟩ := List.cons.inj heq
            exact .inl h
        | cons p pre =>
            obtain ⟨rfl, rfl⟩ := List.cons.inj heq
            refine .inr ⟨pre, g', post, rfl, ?_⟩
            rwa [total_cons, Nat.sub_add_eq] at h

theorem mem_drop_flatMap {n : Nat} :
    x ∈ (groups.flatMap Prod.snd).drop n ↔
      ∃ pre g post, groups = pre ++ g :: post ∧ x ∈ g.2.drop (n - total pre) :=
  mem_cut_flatMap List.drop (fun _ => List.drop_nil) fun _ _ _ => List.drop_append

theorem mem_take_flatMap {n : Nat} :
    x ∈ (groups.flatMap Prod.snd).take n ↔
      ∃ pre g post, groups = pre ++ g :: post ∧ x ∈ g.2.take (n - total pre) :=
  mem_cut_flatMap List.take (fun _ => List.take_nil) fun _ _ _ => List.take_append

/-! ## Lists with some elements first -/

section
variable {p : α → Prop} [DecidablePred p] {l : List α}

/-- The elements with a property come before those without it. -/
def First (p : α → Prop) (l : List α) : Prop := l.Pairwise fun x y => p y → p x

theorem countP_eq_zero_of_first {y : α} (h : First p (y :: l)) (hy : ¬ p y) :
    l.countP p = 0 := by
  apply List.countP_eq_zero.mpr
  intro z hz hp
  exact hy ((List.pairwise_cons.mp h).1 z hz (of_decide_eq_true hp))

/-- Some of those with the property are cut off when there are more than the cut leaves. -/
theorem exists_mem_drop_iff (h : First p l) (n : Nat) :
    (∃ x ∈ l.drop n, p x) ↔ n < l.countP p := by
  induction l generalizing n with
  | nil => simp
  | cons y l ih =>
      have hrest : First p l := (List.pairwise_cons.mp h).2
      cases n with
      | zero =>
          rw [List.drop_zero, List.countP_pos_iff]
          simp only [decide_eq_true_eq]
      | succ n =>
          rw [List.drop_succ_cons, ih hrest, List.countP_cons]
          by_cases hy : p y
          · rw [if_pos (by simpa using hy)]
            omega
          · rw [if_neg (by simpa using hy), countP_eq_zero_of_first h hy]
            omega

/-- Some of those without it are left when there are fewer than the cut leaves of the others. -/
theorem exists_mem_take_iff (h : First p l) (n : Nat) :
    (∃ x ∈ l.take n, ¬ p x) ↔ l.countP p < n ∧ ∃ x ∈ l, ¬ p x := by
  induction l generalizing n with
  | nil => simp
  | cons y l ih =>
      have hrest : First p l := (List.pairwise_cons.mp h).2
      cases n with
      | zero => simp
      | succ n =>
          rw [List.take_succ_cons, List.countP_cons]
          by_cases hy : p y
          · rw [if_pos (by simpa using hy)]
            simp only [List.exists_mem_cons_iff, hy, not_true, false_or, ih hrest,
              Nat.add_lt_add_iff_right]
          · rw [if_neg (by simpa using hy), countP_eq_zero_of_first h hy]
            simp only [List.exists_mem_cons_iff, hy, not_false_iff, true_or, and_true,
              Nat.zero_add, Nat.zero_lt_succ]

end

end Groups
