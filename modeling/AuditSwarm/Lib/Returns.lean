import AuditSwarm.Lib.Proc

/-!
# Computations that return

When a computation that may raise returns a value: rules for sequences, branches and loops over a
list.
-/

namespace Except

variable {ε α β : Type}

def Returns (x : Except ε α) : Prop := ∃ a, x = .ok a

@[simp] theorem returns_ok (a : α) : Returns (.ok a : Except ε α) := ⟨a, rfl⟩

@[simp] theorem returns_pure (a : α) : Returns (pure a : Except ε α) := ⟨a, rfl⟩

@[simp] theorem not_returns_error (e : ε) : ¬ Returns (.error e : Except ε α) := by
  intro h
  obtain ⟨a, ha⟩ := h
  cases ha

/-- A sequence returns when its first part does and what follows it does. -/
theorem returns_bind_iff {x : Except ε α} {f : α → Except ε β} :
    Returns (x >>= f) ↔ ∃ a, x = .ok a ∧ Returns (f a) := by
  cases x with
  | error e => simp
  | ok a => simp

theorem Returns.bind_iff {x : Except ε α} {f : α → Except ε β} (hx : Returns x) :
    Returns (x >>= f) ↔ ∀ a, x = .ok a → Returns (f a) := by
  obtain ⟨a, rfl⟩ := hx
  simp

theorem returns_bind_of_total {x : Except ε α} {f : α → Except ε β} (hf : ∀ a, Returns (f a)) :
    Returns (x >>= f) ↔ Returns x := by
  rw [returns_bind_iff]
  constructor
  · intro h
    obtain ⟨a, ha, -⟩ := h
    exact ⟨a, ha⟩
  · intro h
    obtain ⟨a, ha⟩ := h
    exact ⟨a, ha, hf a⟩

@[simp] theorem returns_map_iff {x : Except ε α} {f : α → β} : Returns (x.map f) ↔ Returns x := by
  cases x with
  | error e => exact iff_of_false (not_returns_error e) (not_returns_error e)
  | ok a => exact iff_of_true ⟨f a, rfl⟩ ⟨a, rfl⟩

/-- A loop over a list returns when it does at each element. -/
theorem returns_mapM_iff {x : α → Except ε β} {as : List α} :
    Returns (as.mapM x) ↔ ∀ a ∈ as, Returns (x a) := by
  constructor
  · intro h a ha
    obtain ⟨bs, hbs⟩ := h
    obtain ⟨b, -, hb⟩ := exists_of_mapM_eq_ok hbs a ha
    exact ⟨b, hb⟩
  · exact fun h => exists_mapM_eq_ok h

theorem mapError_eq_ok_iff {ε' : Type} {x : Except ε α} {f : ε → ε'} {a : α} :
    x.mapError f = .ok a ↔ x = .ok a := by
  cases x with
  | error e => exact iff_of_false (fun h => by cases h) (fun h => by cases h)
  | ok b => simp only [Except.mapError, Except.ok.injEq]

theorem returns_filterAuxM_iff {p : α → Except ε Bool} {as acc : List α} :
    Returns (as.filterAuxM p acc) ↔ ∀ a ∈ as, Returns (p a) := by
  induction as generalizing acc with
  | nil => simp [List.filterAuxM]
  | cons a as ih =>
      rw [List.filterAuxM, returns_bind_iff, List.forall_mem_cons]
      simp only [ih]
      constructor
      · intro h
        obtain ⟨b, hb, hrest⟩ := h
        exact ⟨⟨b, hb⟩, hrest⟩
      · intro h
        obtain ⟨⟨b, hb⟩, hrest⟩ := h
        exact ⟨b, hb, hrest⟩

/-- Filtering a list returns when the test does at each element. -/
theorem returns_filterM_iff {p : α → Except ε Bool} {as : List α} :
    Returns (as.filterM p) ↔ ∀ a ∈ as, Returns (p a) := by
  rw [List.filterM, returns_bind_of_total fun _ => returns_pure _, returns_filterAuxM_iff]

/-! ## Exceptions of a kind -/

/-- The computation returns, or raises an exception of the given kind. -/
def RaisesOnly (p : ε → Prop) (x : Except ε α) : Prop := ∀ e, x = .error e → p e

variable {p : ε → Prop}

@[simp] theorem raisesOnly_ok (a : α) : RaisesOnly p (.ok a : Except ε α) := by
  intro e h
  cases h

@[simp] theorem raisesOnly_pure (a : α) : RaisesOnly p (pure a : Except ε α) := raisesOnly_ok a

@[simp] theorem raisesOnly_error_iff {e : ε} :
    RaisesOnly p (.error e : Except ε α) ↔ p e := by
  constructor
  · exact fun h => h e rfl
  · intro h e' heq
    rwa [← Except.error.inj heq]

/-- A sequence raises exceptions of a kind when each of its parts that is reached does. -/
theorem raisesOnly_bind_iff {x : Except ε α} {f : α → Except ε β} :
    RaisesOnly p (x >>= f) ↔ RaisesOnly p x ∧ ∀ a, x = .ok a → RaisesOnly p (f a) := by
  cases x with
  | error e => simp
  | ok a => simp

@[simp] theorem raisesOnly_orRaise_iff {x : Option α} {e : ε} :
    RaisesOnly p (orRaise x e) ↔ (x = none → p e) := by
  cases x with
  | none => simp [orRaise]
  | some a => simp [orRaise]

end Except
