import Mathlib

/-!
# Runs of a deterministic labelled step

A system takes one step for each label it is given; the step yields a result and the next
state.  `trace` lists the steps of a run, `final` is the state it ends in.  The rules below
turn a fact about one step into a fact about every point of every run.
-/

/-- One step of a run: the state before, the label, its result and the state after. -/
structure Transition (σ lab ρ : Type) where
  before : σ
  label : lab
  result : ρ
  after : σ

namespace LabelledRun

variable {σ lab ρ : Type} (step : σ → lab → ρ × σ)

def transition (s : σ) (l : lab) : Transition σ lab ρ :=
  ⟨s, l, (step s l).1, (step s l).2⟩

def trace (s : σ) : List lab → List (Transition σ lab ρ)
  | [] => []
  | l :: ls => transition step s l :: trace (step s l).2 ls

def final (s : σ) : List lab → σ
  | [] => s
  | l :: ls => final (step s l).2 ls

@[simp] theorem trace_nil (s : σ) : trace step s [] = [] := rfl

@[simp] theorem final_nil (s : σ) : final step s [] = s := rfl

theorem final_append (s : σ) (ls ms : List lab) :
    final step s (ls ++ ms) = final step (final step s ls) ms := by
  induction ls generalizing s with
  | nil => rfl
  | cons l ls ih => exact ih _

theorem trace_append (s : σ) (ls ms : List lab) :
    trace step s (ls ++ ms) = trace step s ls ++ trace step (final step s ls) ms := by
  induction ls generalizing s with
  | nil => rfl
  | cons l ls ih => exact congrArg (transition step s l :: ·) (ih _)

/-- The invariant rule: what holds at the start and is kept by every step of the run holds at
its end.  `P` is what the run is assumed to satisfy at each step. -/
theorem invariant {I : σ → Prop} {P : Transition σ lab ρ → Prop}
    (hstep : ∀ s l, P (transition step s l) → I s → I (step s l).2)
    {s : σ} {ls : List lab} (hP : ∀ t ∈ trace step s ls, P t) (h0 : I s) :
    I (final step s ls) := by
  induction ls generalizing s with
  | nil => exact h0
  | cons l ls ih =>
      refine ih (fun t ht => hP t (List.mem_cons_of_mem _ ht)) ?_
      exact hstep s l (hP _ List.mem_cons_self) h0

theorem invariant' {I : σ → Prop} (hstep : ∀ s l, I s → I (step s l).2)
    {s : σ} (ls : List lab) (h0 : I s) : I (final step s ls) :=
  invariant step (P := fun _ => True) (fun s l _ => hstep s l) (fun _ _ => trivial) h0

/-- Every step of a run starts in a state in which the invariant holds. -/
theorem invariant_before {I : σ → Prop} {P : Transition σ lab ρ → Prop}
    (hstep : ∀ s l, P (transition step s l) → I s → I (step s l).2)
    {s : σ} {ls : List lab} (hP : ∀ t ∈ trace step s ls, P t) (h0 : I s) :
    ∀ t ∈ trace step s ls, I t.before := by
  induction ls generalizing s with
  | nil => simp
  | cons l ls ih =>
      intro t ht
      obtain rfl | ht := List.mem_cons.mp ht
      · exact h0
      · refine ih (fun u hu => hP u (List.mem_cons_of_mem _ hu)) ?_ t ht
        exact hstep s l (hP _ List.mem_cons_self) h0

/-- The history rule: a property of the steps taken so far and the state they lead to that is
kept by one more step holds of every run.  The history is listed oldest first. -/
theorem history {H : List (Transition σ lab ρ) → σ → Prop} {s : σ}
    (h0 : H [] s)
    (hstep : ∀ past t l, H past t → H (past ++ [transition step t l]) (step t l).2)
    (ls : List lab) : H (trace step s ls) (final step s ls) := by
  induction ls using List.reverseRecOn with
  | nil => exact h0
  | append_singleton ls l ih =>
      rw [trace_append, final_append]
      exact hstep _ _ l ih

end LabelledRun
