import AuditSwarm.Lib.Run

/-!
# Episodes of a run

A run that is in states of some kind now, and did not start in one, last came into them by one
step, and has stayed there since.  What that step establishes and every step that stays keeps
holds now.
-/

namespace LabelledRun

variable {σ lab ρ : Type} (step : σ → lab → ρ × σ)

/-- The step on `l` takes the run, after the labels `before`, into `P`, and the labels `later`
keep it there. -/
structure Entered (P : σ → Prop) (s : σ) (before : List lab) (l : lab) (later : List lab) :
    Prop where
  outside : ¬ P (final step s before)
  inside : ∀ more, more <+: later → P (final step s (before ++ l :: more))

variable {step} {P : σ → Prop} {s : σ} {labels before later : List lab} {l : lab}

theorem final_concat (s : σ) (labels : List lab) (l : lab) :
    final step s (labels ++ [l]) = (step (final step s labels) l).2 :=
  final_append step s labels [l]

/-- A run that is in `P` and did not start there came into it. -/
theorem exists_entered (h0 : ¬ P s) (h : P (final step s labels)) :
    ∃ before l later, labels = before ++ l :: later ∧ Entered step P s before l later := by
  induction labels using List.reverseRecOn with
  | nil => exact absurd h h0
  | append_singleton labels l ih =>
      by_cases hbefore : P (final step s labels)
      · rcases ih hbefore with ⟨before, l', later, rfl, hentered⟩
        refine ⟨before, l', later ++ [l], by rw [List.append_assoc, List.cons_append],
          hentered.outside, fun more hmore => ?_⟩
        rcases List.prefix_concat_iff.mp hmore with rfl | hmore
        · rw [← List.cons_append, ← List.append_assoc]
          exact h
        · exact hentered.inside more hmore
      · refine ⟨labels, l, [], rfl, hbefore, fun more hmore => ?_⟩
        rw [List.prefix_nil.mp hmore]
        exact h

theorem Entered.entered (h : Entered step P s before l later) :
    P (step (final step s before) l).2 := by
  rw [← final_concat]
  exact h.inside [] List.nil_prefix

/-- The rule for episodes: what coming into `P` establishes and every step within `P` keeps holds
as long as the run stays in `P`. -/
theorem Entered.invariant {I : σ → Prop} {T : Transition σ lab ρ → Prop}
    (h : Entered step P s before l later)
    (hT : ∀ t ∈ trace step s (before ++ l :: later), T t)
    (henter : I (step (final step s before) l).2)
    (hstay : ∀ t l', T (transition step t l') → P t → P (step t l').2 → I t → I (step t l').2) :
    I (final step s (before ++ l :: later)) := by
  induction later using List.reverseRecOn with
  | nil =>
      rw [final_concat]
      exact henter
  | append_singleton later l' ih =>
      have hsplit : before ++ l :: (later ++ [l']) = (before ++ l :: later) ++ [l'] := by
        rw [List.append_assoc, List.cons_append]
      have hpast : Entered step P s before l later :=
        ⟨h.outside, fun more hmore => h.inside more (hmore.trans (List.prefix_append _ _))⟩
      have hnow := h.inside (later ++ [l']) (List.prefix_refl _)
      rw [hsplit] at hT hnow ⊢
      rw [trace_append] at hT
      rw [final_concat] at hnow ⊢
      refine hstay _ _ ?_ (h.inside later (List.prefix_append _ _)) hnow ?_
      · exact hT _ (List.mem_append_right _ List.mem_cons_self)
      · exact ih hpast fun t ht => hT t (List.mem_append_left _ ht)

end LabelledRun
