import AuditSwarm.Model.Vault

/-!
# What the evidence digest covers

`_digest_input` puts a NUL between the payload and the canonical text of the metadata.  That text
contains no NUL, so two records that both have metadata are told apart; a payload without metadata
may itself end in a NUL and the text of metadata.
-/

namespace Python

namespace Json

/-! ## The canonical text contains no NUL -/

theorem nul_not_mem_escapeChar (c : CodePoint) : (0 : CodePoint) ∉ escapeChar c := by
  have hhex : ∀ n, n < 16 → hexDigit n ≠ 0 := by decide
  unfold escapeChar
  repeat' split
  any_goals decide
  · rw [List.mem_append, not_or]
    refine ⟨by decide, ?_⟩
    simp only [List.mem_cons, List.not_mem_nil, or_false, not_or]
    exact ⟨(hhex _ (by omega)).symm, (hhex _ (by omega)).symm⟩
  · rename_i hcontrol
    rw [List.mem_singleton]
    rintro rfl
    exact hcontrol (by decide)

theorem nul_not_mem_quote (s : Str) : (0 : CodePoint) ∉ quote s := by
  simp only [quote, escape, List.mem_cons, List.mem_append, List.mem_flatMap, List.not_mem_nil,
    or_false, not_or, not_exists, not_and]
  exact ⟨by decide, fun c _ => nul_not_mem_escapeChar c, by decide⟩

theorem nul_not_mem_decimalInt (n : Int) : (0 : CodePoint) ∉ decimalInt n := by
  have hdecimal : ∀ m : Nat, (0 : CodePoint) ∉ decimal m := by
    intro m hmem
    exact absurd (all_isDigit_decimal m 0 hmem) (by decide)
  cases n with
  | ofNat m => exact hdecimal m
  | negSucc m =>
      intro hmem
      rcases List.mem_cons.mp hmem with hminus | hmem
      · exact absurd hminus (by decide)
      · exact hdecimal _ hmem

theorem nul_not_mem_float (r : FloatRepr) : (0 : CodePoint) ∉ r.text := by
  intro hmem
  exact absurd (List.all_eq_true.mp r.numberChars 0 hmem) (by decide)

mutual

theorem nul_not_mem_write : ∀ j : Json, (0 : CodePoint) ∉ write j
  | .null => by decide
  | .bool true => by decide
  | .bool false => by decide
  | .int n => nul_not_mem_decimalInt n
  | .float r => nul_not_mem_float r
  | .str s => nul_not_mem_quote s
  | .arr [] => by decide
  | .arr (x :: xs) => by
      rw [write, List.mem_cons, List.mem_append, not_or, not_or]
      exact ⟨by decide, nul_not_mem_write x, nul_not_mem_writeElems xs⟩
  | .obj [] => by decide
  | .obj ((k, v) :: kvs) => by
      rw [write, List.mem_cons, List.mem_append, List.mem_cons, List.mem_append]
      simp only [not_or]
      exact ⟨by decide, nul_not_mem_quote k, by decide, nul_not_mem_write v,
        nul_not_mem_writeMembers kvs⟩

theorem nul_not_mem_writeElems : ∀ xs : List Json, (0 : CodePoint) ∉ writeElems xs
  | [] => by decide
  | x :: xs => by
      rw [writeElems, List.mem_cons, List.mem_append, not_or, not_or]
      exact ⟨by decide, nul_not_mem_write x, nul_not_mem_writeElems xs⟩

theorem nul_not_mem_writeMembers : ∀ kvs : List (Str × Json), (0 : CodePoint) ∉ writeMembers kvs
  | [] => by decide
  | (k, v) :: kvs => by
      rw [writeMembers, List.mem_cons, List.mem_append, List.mem_cons, List.mem_append]
      simp only [not_or]
      exact ⟨by decide, nul_not_mem_quote k, by decide, nul_not_mem_write v,
        nul_not_mem_writeMembers kvs⟩

end

end Json

end Python

namespace AuditSwarm

open Python

namespace Evidence

/-! ## Splitting at the last separator -/

theorem split_at_last {α : Type} {z : α} {p p' w w' : List α} (hw : z ∉ w) (hw' : z ∉ w')
    (h : p ++ z :: w = p' ++ z :: w') : p = p' ∧ w = w' := by
  rcases List.append_eq_append_iff.mp h with ⟨l, hp, hl⟩ | ⟨l, hp, hl⟩
  · cases l with
    | nil =>
        rw [List.nil_append, List.cons.injEq] at hl
        exact ⟨by simpa using hp.symm, hl.2⟩
    | cons c l =>
        rw [List.cons_append, List.cons.injEq] at hl
        exact absurd (hl.2 ▸ List.mem_append_right l List.mem_cons_self) hw
  · cases l with
    | nil =>
        rw [List.nil_append, List.cons.injEq] at hl
        exact ⟨by simpa using hp, hl.2.symm⟩
    | cons c l =>
        rw [List.cons_append, List.cons.injEq] at hl
        exact absurd (hl.2 ▸ List.mem_append_right l List.mem_cons_self) hw'

theorem digestInput_nil (payload : Str) : digestInput payload (.obj []) = payload := rfl

theorem digestInput_obj (payload : Str) {m : Dict Str Json} (h : m ≠ []) :
    digestInput payload (.obj m) =
      payload ++ separator :: Json.write (Json.sortKeys (.obj m)) := by
  unfold digestInput
  rw [if_pos]
  simpa [Json.truthy] using h

/-- Records that both have metadata are told apart by what is digested. -/
theorem digestInput_inj_of_metadata {payload payload' : Str} {m m' : Dict Str Json}
    (hm : m ≠ []) (hm' : m' ≠ [])
    (h : digestInput payload (.obj m) = digestInput payload' (.obj m')) :
    payload = payload' ∧ Json.Same (.obj m) (.obj m') := by
  rw [digestInput_obj payload hm, digestInput_obj payload' hm'] at h
  obtain ⟨hpayload, htext⟩ :=
    split_at_last (Json.nul_not_mem_write _) (Json.nul_not_mem_write _) h
  exact ⟨hpayload, Json.same_of_write htext⟩

/-- A payload without metadata that shows another payload and its metadata. -/
def Shows (payload : Str) (m : Dict Str Json) (payload' : Str) (m' : Dict Str Json) : Prop :=
  m = [] ∧ m' ≠ [] ∧ payload = payload' ++ separator :: Json.write (Json.sortKeys (.obj m'))

/-- What is digested tells two records apart exactly unless one of them shows, in a payload without
metadata, the payload and the metadata of the other. -/
theorem digestInput_injective_iff (payload payload' : Str) (m m' : Dict Str Json) :
    (digestInput payload (.obj m) = digestInput payload' (.obj m') →
      payload = payload' ∧ Json.Same (.obj m) (.obj m')) ↔
      ¬ Shows payload m payload' m' ∧ ¬ Shows payload' m' payload m := by
  by_cases hm : m = []
  · subst hm
    by_cases hm' : m' = []
    · subst hm'
      have hnone : ∀ p p' : Str, ¬ Shows p [] p' [] := fun p p' h => h.2.1 rfl
      exact iff_of_true (fun h => ⟨h, rfl⟩) ⟨hnone _ _, hnone _ _⟩
    · have hother : ¬ Shows payload' m' payload [] := fun h => h.2.1 rfl
      rw [digestInput_nil, digestInput_obj payload' hm', and_iff_left hother]
      constructor
      · intro h hshows
        have hlength := congrArg List.length ((h hshows.2.2).1.symm.trans hshows.2.2)
        rw [List.length_append, List.length_cons] at hlength
        omega
      · intro h heq
        exact absurd ⟨rfl, hm', heq⟩ h
  · by_cases hm' : m' = []
    · subst hm'
      have hother : ¬ Shows payload m payload' [] := fun h => h.2.1 rfl
      rw [digestInput_nil, digestInput_obj payload hm, and_iff_right hother]
      constructor
      · intro h hshows
        have hlength := congrArg List.length ((h hshows.2.2.symm).1.trans hshows.2.2)
        rw [List.length_append, List.length_cons] at hlength
        omega
      · intro h heq
        exact absurd ⟨rfl, hm, heq.symm⟩ h
    · exact iff_of_true (digestInput_inj_of_metadata hm hm')
        ⟨fun h => hm h.1, fun h => hm' h.1⟩

/-- A record with metadata and one that shows it in its payload are digested alike. -/
theorem digestInput_not_injective :
    ¬ ∀ (payload payload' : Str) (m m' : Dict Str Json),
      digestInput payload (.obj m) = digestInput payload' (.obj m') →
        payload = payload' ∧ Json.Same (.obj m) (.obj m') := by
  intro h
  have hsame := h (lit "MFA is off" ++ separator :: lit "\x7b\"tool\":\"iam\"\x7d")
    (lit "MFA is off") [] [(lit "tool", .str (lit "iam"))] rfl
  exact absurd hsame.1 (by decide)

end Evidence

end AuditSwarm
