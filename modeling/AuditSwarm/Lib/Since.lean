import Mathlib

/-!
# Since

The past-time operator of a list of events: something happened, and nothing has ended it since.
What happened may depend on the events before it.  One more event happens itself, or leaves what
was.
-/

variable {α β : Type}

/-- Some event satisfies `P`, given those before it, and none after it satisfies `Q`. -/
def Since (P : List α → α → Prop) (Q : α → Prop) (events : List α) : Prop :=
  ∃ past a later, events = past ++ a :: later ∧ P past a ∧ ∀ b ∈ later, ¬ Q b

theorem not_since_nil {P : List α → α → Prop} {Q : α → Prop} : ¬ Since P Q [] := by
  intro h
  rcases h with ⟨past, a, later, hsplit, -⟩
  exact List.append_ne_nil_of_right_ne_nil past (List.cons_ne_nil a later) hsplit.symm

theorem since_concat_iff {P : List α → α → Prop} {Q : α → Prop} {events : List α} {a : α} :
    Since P Q (events ++ [a]) ↔ P events a ∨ (Since P Q events ∧ ¬ Q a) := by
  constructor
  · intro h
    rcases h with ⟨past, b, later, hsplit, hP, hlater⟩
    rcases List.eq_nil_or_concat later with rfl | ⟨later, c, rfl⟩
    · rcases List.append_inj' hsplit rfl with ⟨rfl, hlast⟩
      rw [List.cons.inj hlast |>.1]
      exact .inl hP
    · have hassoc : events ++ [a] = (past ++ b :: later) ++ [c] := by simpa using hsplit
      rcases List.append_inj' hassoc rfl with ⟨hevents, hlast⟩
      rw [List.cons.inj hlast |>.1]
      refine .inr ⟨⟨past, b, later, hevents, hP, ?_⟩, hlater c (by simp)⟩
      exact fun d hd => hlater d (by simp [hd])
  · intro h
    rcases h with hP | ⟨⟨past, b, later, rfl, hP, hlater⟩, hQ⟩
    · exact ⟨events, a, [], rfl, hP, fun b hb => absurd hb List.not_mem_nil⟩
    · refine ⟨past, b, later ++ [a], by simp, hP, ?_⟩
      intro c hc
      rcases List.mem_append.mp hc with hc | hc
      · exact hlater c hc
      · rw [List.mem_singleton.mp hc]
        exact hQ

theorem since_filterMap_iff {g : α → Option β} {P Q : β → Prop} {events : List α} :
    Since (fun _ => P) Q (events.filterMap g) ↔
      Since (fun _ a => ∃ b, g a = some b ∧ P b) (fun a => ∃ b, g a = some b ∧ Q b) events := by
  induction events using List.reverseRecOn with
  | nil => exact iff_of_false not_since_nil not_since_nil
  | append_singleton events a ih =>
      rw [since_concat_iff, List.filterMap_append]
      cases hg : g a with
      | none =>
          rw [List.filterMap_cons_none hg, List.filterMap_nil, List.append_nil, ih]
          simp
      | some b =>
          rw [List.filterMap_cons_some hg, List.filterMap_nil, since_concat_iff, ih]
          simp
