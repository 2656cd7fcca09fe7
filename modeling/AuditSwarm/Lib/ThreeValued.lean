import Mathlib.Data.Set.NAry
import Mathlib.Order.SetNotation

/-!
# Three-valued truth

A truth value that may be unknown is an `Option Bool`.  Its completions are the truth values it may
turn out to be; a connective is exact when its completions are those of its arguments, taken
independently of each other.
-/

namespace ThreeValued

/-- The truth values a value may turn out to be: itself when it is known, both otherwise. -/
def completions (x : Option Bool) : Set Bool := {b | ∀ v, x = some v → b = v}

@[simp] theorem mem_completions_none (b : Bool) : b ∈ completions none := by
  intro v h
  cases h

@[simp] theorem mem_completions_some {b v : Bool} : b ∈ completions (some v) ↔ b = v := by
  constructor
  · intro h
    exact h v rfl
  · intro h w hw
    rw [h, Option.some.inj hw]

/-- A value is known to be `v` when that is all it may turn out to be. -/
theorem eq_some_iff {x : Option Bool} {v : Bool} :
    x = some v ↔ ∀ b ∈ completions x, b = v := by
  cases x with
  | none =>
      refine iff_of_false (by simp) ?_
      intro h
      have hne := h (!v) (mem_completions_none _)
      cases v <;> cases hne
  | some w =>
      constructor
      · intro h b hb
        rw [mem_completions_some.mp hb, Option.some.inj h]
      · intro h
        rw [h w (mem_completions_some.mpr rfl)]

def disj (x y : Option Bool) : Option Bool :=
  if x = some true ∨ y = some true then some true
  else if x = none ∨ y = none then none
  else some false

def conj (x y : Option Bool) : Option Bool :=
  if x = some false ∨ y = some false then some false
  else if x = none ∨ y = none then none
  else some true

def neg (x : Option Bool) : Option Bool := x.map not

section
variable (x y : Option Bool)

theorem completions_disj :
    completions (disj x y) = Set.image2 or (completions x) (completions y) := by
  ext b
  rcases x with _ | _ | _ <;> rcases y with _ | _ | _ <;> cases b <;>
    simp [disj, Set.mem_image2]

theorem completions_conj :
    completions (conj x y) = Set.image2 and (completions x) (completions y) := by
  ext b
  rcases x with _ | _ | _ <;> rcases y with _ | _ | _ <;> cases b <;>
    simp [conj, Set.mem_image2]

theorem completions_neg : completions (neg x) = Set.image not (completions x) := by
  ext b
  rcases x with _ | _ | _ <;> cases b <;> simp [neg]

end

@[simp] theorem disj_some (a b : Bool) : disj (some a) (some b) = some (a || b) := by
  cases a <;> cases b <;> rfl

@[simp] theorem conj_some (a b : Bool) : conj (some a) (some b) = some (a && b) := by
  cases a <;> cases b <;> rfl

@[simp] theorem neg_some (a : Bool) : neg (some a) = some (!a) := rfl

end ThreeValued
