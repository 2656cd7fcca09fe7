import AuditSwarm.Vault.Redaction

/-!
# Account IDs in a text

What `_ACCOUNT_ID_RE` finds: twelve digits, bare or in three groups, with no digit before or after
them.  Redaction replaces exactly these.
-/

namespace AuditSwarm

open Python

namespace Evidence

variable {lib : VaultLibrary}

/-! ## Tests -/

/-- A text of one character for each test, which passes it. -/
def Passes (tests : List (CodePoint → Bool)) (m : Str) : Prop :=
  List.Forall₂ (fun p c => p c = true) tests m

theorem afterTests_eq_some_iff {tests : List (CodePoint → Bool)} {t rest : Str} :
    afterTests tests t = some rest ↔ ∃ m, t = m ++ rest ∧ Passes tests m := by
  induction tests generalizing t with
  | nil =>
      rw [afterTests]
      constructor
      · intro h
        exact ⟨[], Option.some.inj h, .nil⟩
      · intro h
        obtain ⟨m, rfl, hm⟩ := h
        cases hm
        rfl
  | cons p tests ih =>
      cases t with
      | nil =>
          rw [afterTests]
          constructor
          · intro h
            cases h
          · intro h
            obtain ⟨m, hnil, hm⟩ := h
            cases hm
            cases hnil
      | cons c t =>
          rw [afterTests]
          by_cases hp : p c = true
          · rw [if_pos hp, ih]
            constructor
            · intro h
              obtain ⟨m, rfl, hm⟩ := h
              exact ⟨c :: m, rfl, .cons hp hm⟩
            · intro h
              obtain ⟨m, heq, hm⟩ := h
              cases hm with
              | cons hd hm =>
                  obtain ⟨rfl, rfl⟩ := List.cons.inj heq
                  exact ⟨_, rfl, hm⟩
          · rw [if_neg hp]
            constructor
            · intro h
              cases h
            · intro h
              obtain ⟨m, heq, hm⟩ := h
              cases hm with
              | cons hd hm =>
                  obtain ⟨rfl, rfl⟩ := List.cons.inj heq
                  exact absurd hd hp

/-! ## Account IDs -/

/-- An account ID: twelve digits, bare or in three groups. -/
def IsAccountId (lib : VaultLibrary) (m : Str) : Prop :=
  Passes (grouped lib.digit 12 []) m ∨ Passes (grouped lib.digit 4 [4, 4]) m

/-- A digit stands at the end of a text, or before the text when it is empty. -/
def endsInDigit (lib : VaultLibrary) (before : Bool) (t : Str) : Bool :=
  (t.getLast?.map lib.digit).getD before

def startsWithDigit (lib : VaultLibrary) (t : Str) : Bool := t.head?.any lib.digit

theorem length_of_passes {tests : List (CodePoint → Bool)} {m : Str} (h : Passes tests m) :
    m.length = tests.length := h.length_eq.symm

theorem matchesAt_iff {tests : List (CodePoint → Bool)} {t : Str} :
    matchesAt lib tests t = true ↔
      ∃ m rest, t = m ++ rest ∧ Passes tests m ∧ startsWithDigit lib rest = false := by
  unfold matchesAt
  cases h : afterTests tests t with
  | none =>
      simp only [Bool.false_eq_true, false_iff]
      intro hm
      obtain ⟨m, rest, ht, hpasses, -⟩ := hm
      have hsome := afterTests_eq_some_iff.mpr ⟨m, ht, hpasses⟩
      rw [h] at hsome
      cases hsome
  | some rest =>
      obtain ⟨m, rfl, hm⟩ := afterTests_eq_some_iff.mp h
      simp only [Bool.not_eq_true']
      constructor
      · intro hrest
        exact ⟨m, rest, rfl, hm, hrest⟩
      · intro hm'
        obtain ⟨m', rest', heq, hpasses, hrest⟩ := hm'
        have hlength : m.length = m'.length := by
          rw [length_of_passes hm, length_of_passes hpasses]
        obtain ⟨rfl, rfl⟩ := List.append_inj heq hlength
        exact hrest

/-- What an account ID at the start of a text is found to be. -/
theorem accountId_of_length {t : Str} {n : Nat} (h : accountIdLength lib t = some n) :
    ∃ m rest, t = m ++ rest ∧ m.length = n ∧ IsAccountId lib m ∧
      startsWithDigit lib rest = false := by
  unfold accountIdLength at h
  split at h
  · rename_i hbare
    obtain ⟨m, rest, ht, hm, hrest⟩ := matchesAt_iff.mp hbare
    obtain rfl := Option.some.inj h
    exact ⟨m, rest, ht, length_of_passes hm, .inl hm, hrest⟩
  · split at h
    · rename_i hgrouped
      obtain ⟨m, rest, ht, hm, hrest⟩ := matchesAt_iff.mp hgrouped
      obtain rfl := Option.some.inj h
      exact ⟨m, rest, ht, length_of_passes hm, .inr hm, hrest⟩
    · cases h

theorem accountIdLength_isSome {m rest : Str} (hm : IsAccountId lib m)
    (hrest : startsWithDigit lib rest = false) : accountIdLength lib (m ++ rest) ≠ none := by
  unfold accountIdLength
  split
  · simp
  · rename_i hbare
    split
    · simp
    · rename_i hgrouped
      rcases hm with hm | hm
      · exact absurd (matchesAt_iff.mpr ⟨m, rest, rfl, hm, hrest⟩) hbare
      · exact absurd (matchesAt_iff.mpr ⟨m, rest, rfl, hm, hrest⟩) hgrouped

theorem mem_of_passes {tests : List (CodePoint → Bool)} {m : Str} (h : Passes tests m)
    {c : CodePoint} (hc : c ∈ m) : ∃ p ∈ tests, p c = true := by
  induction h with
  | nil => cases hc
  | @cons p d tests m hp _ ih =>
      rcases List.mem_cons.mp hc with rfl | hc
      · exact ⟨p, List.mem_cons_self, hp⟩
      · obtain ⟨q, hq, hqc⟩ := ih hc
        exact ⟨q, List.mem_cons_of_mem p hq, hqc⟩

theorem char_of_isAccountId {m : Str} (h : IsAccountId lib m) {c : CodePoint} (hc : c ∈ m) :
    lib.digit c = true ∨ isHyphen c = true := by
  have htests : ∀ {first : Nat} {rest : List Nat}, Passes (grouped lib.digit first rest) m →
      lib.digit c = true ∨ isHyphen c = true := by
    intro first rest hm
    obtain ⟨p, hp, hpc⟩ := mem_of_passes hm hc
    rcases mem_grouped hp with rfl | rfl
    · exact .inl hpc
    · exact .inr hpc
  rcases h with hm | hm
  · exact htests hm
  · exact htests hm

theorem ends_of_isAccountId {m : Str} (h : IsAccountId lib m) :
    startsWithDigit lib m = true ∧ ∀ before, endsInDigit lib before m = true := by
  have hends : ∀ tests : List (CodePoint → Bool), Passes tests m →
      tests.head? = some lib.digit → tests.getLast? = some lib.digit →
      startsWithDigit lib m = true ∧ ∀ before, endsInDigit lib before m = true := by
    intro tests hm hhead hlast
    constructor
    · cases hm with
      | nil => cases hhead
      | @cons p c tests m hp _ =>
          obtain rfl := Option.some.inj hhead
          exact hp
    · intro before
      have hreverse : Passes tests.reverse m.reverse := List.rel_reverse hm
      rw [endsInDigit, ← List.head?_reverse]
      rw [← List.head?_reverse] at hlast
      cases hrev : m.reverse with
      | nil =>
          rw [hrev] at hreverse
          generalize tests.reverse = r at hreverse hlast
          cases hreverse
          cases hlast
      | cons c r =>
          rw [hrev] at hreverse
          generalize tests.reverse = q at hreverse hlast
          cases hreverse with
          | cons hp _ =>
              obtain rfl := Option.some.inj hlast
              exact hp
  rcases h with hm | hm
  · exact hends _ hm rfl rfl
  · exact hends _ hm rfl rfl

/-- An account ID stands in a text, and no digit stands before or after it. -/
def HasAccountId (lib : VaultLibrary) (before : Bool) (t : Str) : Prop :=
  ∃ a m b, t = a ++ (m ++ b) ∧ IsAccountId lib m ∧ endsInDigit lib before a = false ∧
    startsWithDigit lib b = false

end Evidence

end AuditSwarm
