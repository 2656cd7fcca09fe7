import Mathlib

/-!
# Procedures that may raise

A `Proc` runs over a state and either returns a value or raises.  As in an imperative
language, the state reached when it raises is kept: nothing is rolled back.  The second part
describes one common shape of procedure, *check, mutate, seal, finish*, and says exactly when such
a procedure is atomic.
-/

/-! ## Pure checks -/

namespace Except

variable {ε α β : Type}

def ensure (c : Prop) [Decidable c] (e : ε) : Except ε Unit := if c then .ok () else .error e

def raiseSome : Option ε → Except ε Unit
  | none => .ok ()
  | some e => .error e

def orRaise (x : Option α) (e : ε) : Except ε α :=
  match x with
  | some a => .ok a
  | none => .error e

theorem bind_eq_ok_iff {x : Except ε α} {f : α → Except ε β} {b : β} :
    (x >>= f) = .ok b ↔ ∃ a, x = .ok a ∧ f a = .ok b := by
  cases x <;> simp [bind, Except.bind]

theorem bind_eq_error_iff {x : Except ε α} {f : α → Except ε β} {e : ε} :
    (x >>= f) = .error e ↔ x = .error e ∨ ∃ a, x = .ok a ∧ f a = .error e := by
  cases x <;> simp [bind, Except.bind]

theorem map_eq_ok_iff {x : Except ε α} {f : α → β} {b : β} :
    x.map f = .ok b ↔ ∃ a, x = .ok a ∧ f a = b := by
  cases x <;> simp [Except.map]

theorem map_eq_error_iff {x : Except ε α} {f : α → β} {e : ε} :
    x.map f = .error e ↔ x = .error e := by
  cases x <;> simp [Except.map]

/-- Continuations that agree after a map agree after it in a sequence. -/
theorem map_bind_congr {γ : Type} {x : Except ε α} {f g : α → Except ε β} {k : β → γ}
    (h : ∀ a, (f a).map k = (g a).map k) : (x >>= f).map k = (x >>= g).map k := by
  cases x with
  | error e => rfl
  | ok a => exact h a

@[simp] theorem ok_bind (a : α) (f : α → Except ε β) : (Except.ok a >>= f) = f a := rfl

@[simp] theorem error_bind (e : ε) (f : α → Except ε β) :
    (Except.error e >>= f) = .error e := rfl

@[simp] theorem pure_eq_ok_iff {a b : α} : (pure a : Except ε α) = .ok b ↔ a = b := by
  simp [pure, Except.pure]

@[simp] theorem ensure_eq_ok_iff {c : Prop} [Decidable c] {e : ε} {u : Unit} :
    ensure c e = .ok u ↔ c := by
  unfold ensure
  split <;> simp [*]

@[simp] theorem raiseSome_eq_ok_iff {x : Option ε} {u : Unit} :
    raiseSome x = .ok u ↔ x = none := by
  cases x <;> simp [raiseSome]

@[simp] theorem orRaise_eq_ok_iff {x : Option α} {e : ε} {a : α} :
    orRaise x e = .ok a ↔ x = some a := by
  cases x <;> simp [orRaise]

/-! ### Checks over a list -/

theorem mapM_congr {x y : α → Except ε β} {as : List α} (h : ∀ a ∈ as, x a = y a) :
    as.mapM x = as.mapM y := by
  induction as with
  | nil => rfl
  | cons a as ih =>
      rw [List.mapM_cons, List.mapM_cons, h a List.mem_cons_self,
        ih fun b hb => h b (List.mem_cons_of_mem _ hb)]

theorem map_mapM {γ : Type} (k : β → γ) (x : α → Except ε β) (as : List α) :
    (as.mapM x).map (List.map k) = as.mapM fun a => (x a).map k := by
  induction as with
  | nil => rfl
  | cons a as ih =>
      rw [List.mapM_cons, List.mapM_cons, ← ih]
      cases x a with
      | error e => rfl
      | ok b =>
          cases as.mapM x with
          | error e => rfl
          | ok bs => rfl

/-- The results of a list of checks, one for each element. -/
theorem mapM_eq_ok_iff {x : α → Except ε β} {as : List α} {bs : List β} :
    as.mapM x = .ok bs ↔ List.Forall₂ (fun a b => x a = .ok b) as bs := by
  induction as generalizing bs with
  | nil =>
      rw [List.mapM_nil, pure_eq_ok_iff, List.forall₂_nil_left_iff]
      exact eq_comm
  | cons a as ih =>
      rw [List.mapM_cons, List.forall₂_cons_left_iff]
      simp only [bind_eq_ok_iff, pure_eq_ok_iff, ih]
      constructor
      · intro h
        obtain ⟨b, hb, bs', hbs, hcons⟩ := h
        exact ⟨b, bs', hb, hbs, hcons.symm⟩
      · intro h
        obtain ⟨b, bs', hb, hbs, hcons⟩ := h
        exact ⟨b, hb, bs', hbs, hcons.symm⟩

theorem exists_of_mapM_eq_ok {x : α → Except ε β} {as : List α} {bs : List β}
    (h : as.mapM x = .ok bs) : ∀ a ∈ as, ∃ b ∈ bs, x a = .ok b := by
  have hall := mapM_eq_ok_iff.mp h
  clear h
  induction hall with
  | nil => simp
  | cons hb _ ih =>
      intro a ha
      rcases List.mem_cons.mp ha with rfl | ha
      · exact ⟨_, List.mem_cons_self, hb⟩
      · obtain ⟨b, hbs, hx⟩ := ih a ha
        exact ⟨b, List.mem_cons_of_mem _ hbs, hx⟩

theorem mem_of_mapM_eq_ok {x : α → Except ε β} {as : List α} {bs : List β}
    (h : as.mapM x = .ok bs) : ∀ b ∈ bs, ∃ a ∈ as, x a = .ok b := by
  have hall := mapM_eq_ok_iff.mp h
  clear h
  induction hall with
  | nil => simp
  | cons hb _ ih =>
      intro b hmem
      rcases List.mem_cons.mp hmem with rfl | hmem
      · exact ⟨_, List.mem_cons_self, hb⟩
      · obtain ⟨a, ha, hx⟩ := ih b hmem
        exact ⟨a, List.mem_cons_of_mem _ ha, hx⟩

/-- The result at a position is that of the element there. -/
theorem getElem?_of_mapM_eq_ok {x : α → Except ε β} {as : List α} {bs : List β}
    (h : as.mapM x = .ok bs) {i : Nat} {a : α} (ha : as[i]? = some a) :
    ∃ b, bs[i]? = some b ∧ x a = .ok b := by
  have hall := mapM_eq_ok_iff.mp h
  clear h
  induction hall generalizing i with
  | nil => simp at ha
  | cons hb _ ih =>
      cases i with
      | zero =>
          rw [List.getElem?_cons_zero] at ha ⊢
          obtain rfl := Option.some.inj ha
          exact ⟨_, rfl, hb⟩
      | succ i =>
          rw [List.getElem?_cons_succ] at ha ⊢
          exact ih ha

theorem exists_mapM_eq_ok {x : α → Except ε β} {as : List α} (h : ∀ a ∈ as, ∃ b, x a = .ok b) :
    ∃ bs, as.mapM x = .ok bs := by
  induction as with
  | nil => exact ⟨[], rfl⟩
  | cons a as ih =>
      obtain ⟨b, hb⟩ := h a List.mem_cons_self
      obtain ⟨bs, hbs⟩ := ih fun a' ha' => h a' (List.mem_cons_of_mem _ ha')
      refine ⟨b :: bs, ?_⟩
      rw [List.mapM_cons, hb, ok_bind, hbs, ok_bind]
      rfl

end Except

/-! ## Procedures -/

/-- A computation over a state `σ` that returns an `α` or raises an `ε`. -/
abbrev Proc (σ ε α : Type) := ExceptT ε (StateM σ) α

namespace Proc

variable {σ ε α β : Type}

/-- Run a procedure: its result, and the state it leaves behind in either case. -/
def exec (x : Proc σ ε α) (s : σ) : Except ε α × σ := x.run.run s

/-- The procedure that runs a pure computation which may raise. -/
def ofExcept (e : Except ε α) : Proc σ ε α := fun s => (e, s)

@[simp] theorem exec_pure (a : α) (s : σ) : (pure a : Proc σ ε α).exec s = (.ok a, s) := rfl

@[simp] theorem exec_throw (e : ε) (s : σ) :
    (throw e : Proc σ ε α).exec s = (.error e, s) := rfl

@[simp] theorem exec_ofExcept (e : Except ε α) (s : σ) :
    (ofExcept e : Proc σ ε α).exec s = (e, s) := rfl

@[simp] theorem exec_get (s : σ) : (get : Proc σ ε σ).exec s = (.ok s, s) := rfl

@[simp] theorem exec_set (s t : σ) : (set t : Proc σ ε PUnit).exec s = (.ok ⟨⟩, t) := rfl

@[simp] theorem exec_modify (f : σ → σ) (s : σ) :
    (modify f : Proc σ ε PUnit).exec s = (.ok ⟨⟩, f s) := rfl

theorem exec_bind (x : Proc σ ε α) (f : α → Proc σ ε β) (s : σ) :
    (x >>= f).exec s =
      match x.exec s with
      | (.ok a, t) => (f a).exec t
      | (.error e, t) => (.error e, t) := by
  change (ExceptT.bind x f).run.run s = _
  simp only [ExceptT.bind, ExceptT.mk, ExceptT.run, StateT.run, exec, bind, StateT.bind]
  obtain ⟨r, t⟩ := x s
  cases r <;> rfl

theorem exec_bind_ok {x : Proc σ ε α} {f : α → Proc σ ε β} {s t : σ} {a : α}
    (h : x.exec s = (.ok a, t)) : (x >>= f).exec s = (f a).exec t := by
  rw [exec_bind, h]

theorem exec_bind_error {x : Proc σ ε α} {f : α → Proc σ ε β} {s t : σ} {e : ε}
    (h : x.exec s = (.error e, t)) : (x >>= f).exec s = (.error e, t) := by
  rw [exec_bind, h]

@[simp] theorem exec_ofExcept_bind (e : Except ε α) (f : α → Proc σ ε β) (s : σ) :
    (ofExcept e >>= f).exec s =
      match e with
      | .ok a => (f a).exec s
      | .error err => (.error err, s) := by
  rw [exec_bind, exec_ofExcept]
  cases e <;> rfl

@[simp] theorem exec_modify_bind (g : σ → σ) (f : PUnit → Proc σ ε β) (s : σ) :
    ((modify g : Proc σ ε PUnit) >>= f).exec s = (f ⟨⟩).exec (g s) := by
  rw [exec_bind, exec_modify]

@[simp] theorem exec_get_bind (f : σ → Proc σ ε β) (s : σ) :
    ((get : Proc σ ε σ) >>= f).exec s = (f s).exec s := by
  rw [exec_bind, exec_get]

@[simp] theorem exec_set_bind (t : σ) (f : PUnit → Proc σ ε β) (s : σ) :
    ((set t : Proc σ ε PUnit) >>= f).exec s = (f ⟨⟩).exec t := by
  rw [exec_bind, exec_set]

end Proc

/-! ## Check, mutate, seal, finish -/

/-- A procedure in four parts: pure checks that compute a plan, a mutation that cannot raise, a
seal computed over the mutated state that may raise, and a last mutation that records the seal. -/
structure SealedProc (σ ε κ η : Type) where
  check : σ → Except ε κ
  mutate : κ → σ → σ
  sealOf : κ → σ → Except ε η
  finish : κ → η → σ → σ

namespace SealedProc

variable {σ ε κ η β : Type}

def run (a : SealedProc σ ε κ η) (s : σ) : Except ε κ × σ :=
  match a.check s with
  | .error e => (.error e, s)
  | .ok k =>
      match a.sealOf k (a.mutate k s) with
      | .error e => (.error e, a.mutate k s)
      | .ok h => (.ok k, a.finish k h (a.mutate k s))

variable {a : SealedProc σ ε κ η} {s t : σ} {r : Except ε κ}

theorem run_of_check_error {e : ε} (h : a.check s = .error e) : a.run s = (.error e, s) := by
  rw [run, h]

theorem run_of_seal_error {k : κ} {e : ε} (hk : a.check s = .ok k)
    (he : a.sealOf k (a.mutate k s) = .error e) : a.run s = (.error e, a.mutate k s) := by
  simp only [run, hk, he]

theorem run_of_seal_ok {k : κ} {h : η} (hk : a.check s = .ok k)
    (hh : a.sealOf k (a.mutate k s) = .ok h) :
    a.run s = (.ok k, a.finish k h (a.mutate k s)) := by
  simp only [run, hk, hh]

/-- Everything a run can do: a check refuses and nothing changes, the seal fails after the
mutation, or all four parts go through. -/
theorem run_cases (h : a.run s = (r, t)) :
    (∃ e, a.check s = .error e ∧ r = .error e ∧ t = s) ∨
    (∃ k e, a.check s = .ok k ∧ a.sealOf k (a.mutate k s) = .error e ∧
      r = .error e ∧ t = a.mutate k s) ∨
    (∃ k w, a.check s = .ok k ∧ a.sealOf k (a.mutate k s) = .ok w ∧
      r = .ok k ∧ t = a.finish k w (a.mutate k s)) := by
  cases hk : a.check s with
  | error e =>
      rw [run_of_check_error hk, Prod.mk.injEq] at h
      exact .inl ⟨e, rfl, h.1.symm, h.2.symm⟩
  | ok k =>
      cases hs : a.sealOf k (a.mutate k s) with
      | error e =>
          rw [run_of_seal_error hk hs, Prod.mk.injEq] at h
          exact .inr (.inl ⟨k, e, rfl, hs, h.1.symm, h.2.symm⟩)
      | ok w =>
          rw [run_of_seal_ok hk hs, Prod.mk.injEq] at h
          exact .inr (.inr ⟨k, w, rfl, hs, h.1.symm, h.2.symm⟩)

def SealFails (a : SealedProc σ ε κ η) (s : σ) : Prop :=
  ∃ k e, a.check s = .ok k ∧ a.sealOf k (a.mutate k s) = .error e

/-- What an observer sees of a procedure that raises is unchanged exactly when the seal does not
fail after the checks, provided the mutation is always visible to the observer. -/
theorem atomic_iff (obs : σ → β) (hvis : ∀ k, a.check s = .ok k → obs (a.mutate k s) ≠ obs s) :
    (∀ e, (a.run s).1 = .error e → obs (a.run s).2 = obs s) ↔ ¬ a.SealFails s := by
  constructor
  · rintro h ⟨k, e, hk, he⟩
    have hrun := run_of_seal_error hk he
    exact hvis k hk (by simpa [hrun] using h e (by rw [hrun]))
  · intro h e he
    obtain ⟨e', -, -, ht⟩ | ⟨k, e', hk, hs, -, -⟩ | ⟨k, w, -, -, hr, -⟩ :=
      run_cases (a := a) (s := s) (r := (a.run s).1) (t := (a.run s).2) rfl
    · rw [ht]
    · exact absurd ⟨k, e', hk, hs⟩ h
    · rw [hr] at he
      cases he

end SealedProc
