import Mathlib

/-!
# A reentrant lock

A lock is free, or held by one thread as many times as that thread has taken it.
-/

/-- Who holds the lock, and how many times besides the first. -/
structure RLock (τ : Type) where
  holder : Option (τ × Nat)

namespace RLock

variable {τ : Type} [DecidableEq τ]

def free : RLock τ := ⟨none⟩

/-- Taking the lock: a thread waits while another one holds it. -/
def acquire (l : RLock τ) (t : τ) : Option (RLock τ) :=
  match l.holder with
  | none => some ⟨some (t, 0)⟩
  | some (o, n) => if o = t then some ⟨some (t, n + 1)⟩ else none

def release (l : RLock τ) : RLock τ :=
  match l.holder with
  | none => l
  | some (_, 0) => free
  | some (o, n + 1) => ⟨some (o, n)⟩

def depth (l : RLock τ) (t : τ) : Nat :=
  match l.holder with
  | none => 0
  | some (o, n) => if o = t then n + 1 else 0

@[simp] theorem depth_free (t : τ) : (free : RLock τ).depth t = 0 := rfl

theorem holder_of_depth_pos {l : RLock τ} {t : τ} (h : 0 < l.depth t) :
    ∃ n, l.holder = some (t, n) := by
  unfold depth at h
  cases hheld : l.holder with
  | none =>
      rw [hheld] at h
      exact absurd h (Nat.lt_irrefl 0)
  | some held =>
      rw [hheld] at h
      dsimp only at h
      by_cases ho : held.1 = t
      · exact ⟨held.2, by rw [← ho]⟩
      · rw [if_neg ho] at h
        exact absurd h (Nat.lt_irrefl 0)

theorem eq_of_depth_pos {l : RLock τ} {t u : τ} (ht : 0 < l.depth t) (hu : 0 < l.depth u) :
    t = u := by
  rcases holder_of_depth_pos ht with ⟨n, hn⟩
  rcases holder_of_depth_pos hu with ⟨m, hm⟩
  have heq := Option.some.inj (hn.symm.trans hm)
  exact congrArg Prod.fst heq

theorem depth_acquire {l l' : RLock τ} {t : τ} (h : l.acquire t = some l') (u : τ) :
    l'.depth u = if t = u then l.depth u + 1 else l.depth u := by
  unfold acquire at h
  unfold depth
  cases hheld : l.holder with
  | none =>
      rw [hheld] at h
      cases h
      rfl
  | some held =>
      rw [hheld] at h
      dsimp only at h
      by_cases ho : held.1 = t
      · rw [if_pos ho] at h
        cases h
        dsimp only
        by_cases hu : t = u
        · rw [if_pos hu, if_pos hu, if_pos (ho.trans hu)]
        · rw [if_neg hu, if_neg hu, if_neg fun hou => hu (ho.symm.trans hou)]
      · rw [if_neg ho] at h
        cases h

theorem depth_release {l : RLock τ} {t : τ} (ht : 0 < l.depth t) (u : τ) :
    l.release.depth u = if t = u then l.depth u - 1 else l.depth u := by
  rcases holder_of_depth_pos ht with ⟨n, hn⟩
  unfold release depth
  rw [hn]
  cases n with
  | zero =>
      by_cases hu : t = u
      · simp only [free, if_pos hu]
      · simp only [free, if_neg hu]
  | succ n =>
      by_cases hu : t = u
      · simp only [if_pos hu]
        rfl
      · simp only [if_neg hu]

/-- A thread can take the lock unless another one holds it. -/
theorem exists_acquire {l : RLock τ} {t : τ} (h : ∀ u, u ≠ t → l.depth u = 0) :
    ∃ l', l.acquire t = some l' := by
  unfold acquire
  cases hheld : l.holder with
  | none => exact ⟨_, rfl⟩
  | some held =>
      by_cases ho : held.1 = t
      · exact ⟨_, if_pos ho⟩
      · have hzero := h held.1 ho
        unfold depth at hzero
        rw [hheld] at hzero
        dsimp only at hzero
        rw [if_pos rfl] at hzero
        omega

end RLock
