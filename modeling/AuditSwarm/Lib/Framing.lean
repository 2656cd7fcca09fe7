import Mathlib.Data.List.Basic

/-!
# Length-prefixed framing

Byte strings written one after the other, each behind a code of its length, can be told apart.
-/

namespace Framing

variable {β : Type}

/-- A code of fixed width that tells the lengths below a bound apart. -/
structure LengthCode (code : Nat → List β) (width bound : Nat) : Prop where
  width_pos : 0 < width
  length_eq : ∀ n, (code n).length = width
  injective : ∀ m n, m < bound → n < bound → code m = code n → m = n

def frame (code : Nat → List β) (part : List β) : List β := code part.length ++ part

variable {code : Nat → List β} {width bound : Nat}

theorem frame_ne_nil (h : LengthCode code width bound) (part rest : List β) :
    frame code part ++ rest ≠ [] := by
  intro hnil
  have hlength := congrArg List.length hnil
  have hpos := h.width_pos
  simp only [frame, List.length_append, h.length_eq, List.length_nil] at hlength
  omega

theorem frame_append_inj (h : LengthCode code width bound) {p q s t : List β}
    (hp : p.length < bound) (hq : q.length < bound)
    (heq : frame code p ++ s = frame code q ++ t) : p = q ∧ s = t := by
  rw [frame, frame, List.append_assoc, List.append_assoc] at heq
  have hcodes : (code p.length).length = (code q.length).length := by
    rw [h.length_eq, h.length_eq]
  obtain ⟨hcode, hrest⟩ := List.append_inj heq hcodes
  exact List.append_inj hrest (h.injective _ _ hp hq hcode)

theorem frames_injective (h : LengthCode code width bound) {ps qs : List (List β)}
    (hps : ∀ p ∈ ps, p.length < bound) (hqs : ∀ q ∈ qs, q.length < bound)
    (heq : ps.flatMap (frame code) = qs.flatMap (frame code)) : ps = qs := by
  induction ps generalizing qs with
  | nil =>
      cases qs with
      | nil => rfl
      | cons q qs => exact absurd heq.symm (frame_ne_nil h q _)
  | cons p ps ih =>
      cases qs with
      | nil => exact absurd heq (frame_ne_nil h p _)
      | cons q qs =>
          rw [List.flatMap_cons, List.flatMap_cons] at heq
          obtain ⟨rfl, hrest⟩ := frame_append_inj h (hps p List.mem_cons_self)
            (hqs q List.mem_cons_self) heq
          rw [ih (fun r hr => hps r (List.mem_cons_of_mem p hr))
            (fun r hr => hqs r (List.mem_cons_of_mem p hr)) hrest]

end Framing
