import AuditSwarm.Lib.Proc

/-!
# Runs of procedures

What is known of the parts of a procedure when the whole returned or raised.
-/

namespace Proc

variable {σ ε α β : Type} {x : Proc σ ε α} {f : α → Proc σ ε β} {s u : σ} {a : α} {b : β} {e : ε}

theorem exec_bind_eq_ok_iff :
    (x >>= f).exec s = (.ok b, u) ↔
      ∃ a t, x.exec s = (.ok a, t) ∧ (f a).exec t = (.ok b, u) := by
  rw [exec_bind]
  rcases x.exec s with ⟨_ | a, t⟩
  · constructor
    · intro h
      cases h
    · rintro ⟨a, t, h, -⟩
      cases h
  · constructor
    · exact fun h => ⟨a, t, rfl, h⟩
    · rintro ⟨a', t', h, h'⟩
      cases h
      exact h'

/-- A sequence raised: its first part did, or the second after the first returned. -/
theorem exec_bind_eq_error_iff :
    (x >>= f).exec s = (.error e, u) ↔
      x.exec s = (.error e, u) ∨
        ∃ a t, x.exec s = (.ok a, t) ∧ (f a).exec t = (.error e, u) := by
  rw [exec_bind]
  rcases x.exec s with ⟨_ | a, t⟩
  · constructor
    · intro h
      cases h
      exact .inl rfl
    · rintro (h | ⟨a, t, h, -⟩)
      · cases h
        rfl
      · cases h
  · constructor
    · exact fun h => .inr ⟨a, t, rfl, h⟩
    · rintro (h | ⟨a', t', h, h'⟩)
      · cases h
      · cases h
        exact h'

theorem exec_ofExcept_eq_ok_iff {r : Except ε α} :
    (ofExcept r : Proc σ ε α).exec s = (.ok a, u) ↔ r = .ok a ∧ s = u := by
  rw [exec_ofExcept, Prod.mk.injEq]

theorem exec_ofExcept_eq_error_iff {r : Except ε α} :
    (ofExcept r : Proc σ ε α).exec s = (.error e, u) ↔ r = .error e ∧ s = u := by
  rw [exec_ofExcept, Prod.mk.injEq]

theorem exec_pure_eq_ok_iff {a' : α} :
    (pure a' : Proc σ ε α).exec s = (.ok a, u) ↔ a' = a ∧ s = u := by
  rw [exec_pure, Prod.mk.injEq, Except.ok.injEq]

theorem exists_exec_ok (h : (x.exec s).1.toOption.isSome = true) :
    ∃ a t, x.exec s = (.ok a, t) := by
  rcases hrun : x.exec s with ⟨_ | a, t⟩
  · rw [hrun] at h
    cases h
  · exact ⟨a, t, rfl⟩

end Proc
