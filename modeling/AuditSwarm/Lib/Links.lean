import Mathlib

/-!
# Links

A partial map from names to names, followed until a name that leads nowhere.
-/

namespace Links

variable {κ : Type} (next : κ → Option κ)

/-- The name at the end of at most so many names. -/
def endOf : Nat → κ → Option κ
  | 0, _ => none
  | n + 1, k =>
      match next k with
      | none => some k
      | some t => endOf n t

/-- Following links from one name comes past another. -/
def Passes : κ → κ → Prop := Relation.ReflTransGen fun a b => next a = some b

/-- Following links from one name ends at another. -/
structure Ends (k last : κ) : Prop where
  passes : Passes next k last
  last : next last = none

variable {next} {k m last : κ}

theorem passes_refl (k : κ) : Passes next k k := .refl

theorem Passes.trans {a b c : κ} (h : Passes next a b) (h' : Passes next b c) : Passes next a c :=
  Relation.ReflTransGen.trans h h'

/-- A name that leads nowhere only comes past itself. -/
theorem Passes.eq_of_next_eq_none (h : Passes next k m) (hnone : next k = none) : m = k := by
  rcases Relation.ReflTransGen.cases_head h with heq | ⟨t, ht, -⟩
  · exact heq.symm
  · rw [hnone] at ht
    cases ht

/-- Of two names on the way, one comes past the other. -/
theorem Passes.total {a b : κ} (ha : Passes next k a) (hb : Passes next k b) :
    Passes next a b ∨ Passes next b a := by
  refine Relation.ReflTransGen.total_of_right_unique ?_ ha hb
  intro x y z hy hz
  rw [hy] at hz
  exact Option.some.inj hz

/-- The way from a name on the way ends at the same name. -/
theorem Ends.of_passes (h : Ends next k last) (hm : Passes next k m) : Ends next m last := by
  rcases hm.total h.passes with hforward | hback
  · exact ⟨hforward, h.last⟩
  · rw [hback.eq_of_next_eq_none h.last]
    exact ⟨.refl, h.last⟩

/-! ## The end of finitely many links -/

theorem ends_of_endOf {n : Nat} (h : endOf next n k = some last) : Ends next k last := by
  induction n generalizing k with
  | zero => cases h
  | succ n ih =>
      unfold endOf at h
      cases hnext : next k with
      | none =>
          rw [hnext] at h
          cases h
          exact ⟨.refl, hnext⟩
      | some t =>
          rw [hnext] at h
          have hrest := ih h
          exact ⟨.head hnext hrest.passes, hrest.last⟩

/-- A way that comes back comes back from everywhere on it. -/
theorem Passes.back {t b : κ} (hnext : next k = some t) (hback : Passes next t k)
    (h : Passes next k b) : Passes next b k := by
  induction h with
  | refl => exact .refl
  | tail _ hstep ih =>
      rename_i b c _
      rcases Relation.ReflTransGen.cases_head ih with heq | ⟨c', hc', hrest⟩
      · rw [heq, hnext, Option.some.injEq] at hstep
        rwa [← hstep]
      · rw [hstep, Option.some.injEq] at hc'
        rwa [hc']

/-- A way that ends never comes back. -/
theorem Ends.not_passes {t : κ} (h : Ends next k last) (hnext : next k = some t) :
    ¬ Passes next t k := by
  intro hback
  have heq := (Passes.back hnext hback h.passes).eq_of_next_eq_none h.last
  rw [← heq] at h
  rw [h.last] at hnext
  cases hnext

/-- The names on a way that ends are different ones, and following them finds its end. -/
theorem Ends.exists_way (h : Ends next k last) :
    ∃ way : List κ, way.Nodup ∧ (∀ m ∈ way, Passes next k m ∧ next m ≠ none) ∧
      ∀ n, way.length < n → endOf next n k = some last := by
  rcases h with ⟨hpasses, hlast⟩
  induction hpasses using Relation.ReflTransGen.head_induction_on with
  | refl =>
      refine ⟨[], List.nodup_nil, by simp, fun n hn => ?_⟩
      cases n with
      | zero => exact absurd hn (Nat.not_lt_zero _)
      | succ n =>
          unfold endOf
          rw [hlast]
  | head hnext hrest ih =>
      rename_i a t
      rcases ih with ⟨way, hnodup, hway, hend⟩
      have hends : Ends next a last := ⟨.head hnext hrest, hlast⟩
      refine ⟨a :: way, ?_, ?_, ?_⟩
      · rw [List.nodup_cons]
        exact ⟨fun ha => hends.not_passes hnext (hway a ha).1, hnodup⟩
      · intro m hm
        rcases List.mem_cons.mp hm with rfl | hm
        · exact ⟨.refl, by rw [hnext]; exact Option.some_ne_none t⟩
        · exact ⟨.head hnext (hway m hm).1, (hway m hm).2⟩
      · intro n hn
        rw [List.length_cons] at hn
        cases n with
        | zero => exact absurd hn (Nat.not_lt_zero _)
        | succ n =>
            unfold endOf
            rw [hnext]
            exact hend n (by omega)

/-- With a list of all links, following more names than it has finds every end. -/
theorem endOf_eq_some_iff {links : List κ} (hlinks : ∀ m, next m ≠ none → m ∈ links) :
    endOf next (links.length + 1) k = some last ↔ Ends next k last := by
  constructor
  · exact ends_of_endOf
  · intro h
    rcases h.exists_way with ⟨way, hnodup, hway, hend⟩
    have hsubset : way ⊆ links := fun m hm => hlinks m (hway m hm).2
    have hlength := (hnodup.subperm hsubset).length_le
    exact hend _ (by omega)

/-! ## Cutting links -/

/-- Some links have been cut. -/
structure Cut (cut : κ → Prop) (next next' : κ → Option κ) : Prop where
  off : ∀ k, cut k → next' k = none
  other : ∀ k, ¬ cut k → next' k = next k

section Cut

variable {cut : κ → Prop} {next' : κ → Option κ} (h : Cut cut next next')

include h

theorem Cut.next_of_next' {t : κ} (ht : next' k = some t) : ¬ cut k ∧ next k = some t := by
  by_cases hcut : cut k
  · rw [h.off k hcut] at ht
    cases ht
  · rw [h.other k hcut] at ht
    exact ⟨hcut, ht⟩

theorem Cut.passes (hpasses : Passes next' k m) : Passes next k m := by
  induction hpasses with
  | refl => exact .refl
  | tail _ hstep ih => exact .tail ih (h.next_of_next' hstep).2

/-- A way on which something is cut ends where it is cut. -/
theorem Cut.exists_ends (hpasses : Passes next k m) (hm : cut m) :
    ∃ last, Ends next' k last ∧ cut last := by
  induction hpasses using Relation.ReflTransGen.head_induction_on with
  | refl => exact ⟨m, ⟨.refl, h.off m hm⟩, hm⟩
  | head hnext hrest ih =>
      rename_i a t
      by_cases hcut : cut a
      · exact ⟨a, ⟨.refl, h.off a hcut⟩, hcut⟩
      · rcases ih with ⟨last, hends, hlast⟩
        rw [← h.other a hcut] at hnext
        exact ⟨last, ⟨.head hnext hends.passes, hends.last⟩, hlast⟩

/-- A way on which nothing is cut is as it was. -/
theorem Cut.ends_iff (huncut : ∀ m, Passes next k m → ¬ cut m) :
    Ends next' k last ↔ Ends next k last := by
  constructor
  · intro hends
    have hpasses := h.passes hends.passes
    refine ⟨hpasses, ?_⟩
    rw [← h.other last (huncut last hpasses)]
    exact hends.last
  · intro hends
    have hpasses : ∀ m, Passes next k m → Passes next' k m := by
      intro m hm
      induction hm with
      | refl => exact .refl
      | tail hway hstep ih =>
          refine .tail ih ?_
          rwa [h.other _ (huncut _ hway)]
    refine ⟨hpasses last hends.passes, ?_⟩
    rw [h.other last (huncut last hends.passes)]
    exact hends.last

end Cut

end Links
