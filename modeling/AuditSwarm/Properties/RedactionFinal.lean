import AuditSwarm.Vault.AccountIds

/-!
# One redaction is final

A redacted text has no account ID, redacting it again changes nothing, and outside the account IDs
the text is as it was.
-/

namespace AuditSwarm

open Python

namespace Evidence

variable {lib : VaultLibrary}

/-! ## What redaction does -/

def StartsWithAccountId (lib : VaultLibrary) (t : Str) : Prop :=
  ∃ m rest, t = m ++ rest ∧ IsAccountId lib m ∧ startsWithDigit lib rest = false

/-- A text with its account IDs replaced, from left to right: a character that no account ID starts
at is kept, and an account ID is written as the mark.  The flag tells whether a digit stands
before the text. -/
inductive Redaction (lib : VaultLibrary) : Bool → Str → Str → Prop
  | nil (before : Bool) : Redaction lib before [] []
  | keep {before : Bool} {c : CodePoint} {t out : Str}
      (h : ¬ (before = false ∧ StartsWithAccountId lib (c :: t))) :
      Redaction lib (lib.digit c) t out → Redaction lib before (c :: t) (c :: out)
  | redact {m t out : Str} (hm : IsAccountId lib m) (ht : startsWithDigit lib t = false) :
      Redaction lib true t out → Redaction lib false (m ++ t) (redacted ++ out)

theorem endsInDigit_cons (before : Bool) (c : CodePoint) (t : Str) :
    endsInDigit lib before (c :: t) = endsInDigit lib (lib.digit c) t := by
  rw [endsInDigit, endsInDigit, List.getLast?_cons]
  cases t.getLast? with
  | none => rfl
  | some d => rfl

theorem redactFrom_length_append (before : Bool) (m t : Str) :
    redactFrom lib before m.length (m ++ t) = redactFrom lib (endsInDigit lib before m) 0 t := by
  induction m generalizing before with
  | nil => rfl
  | cons c m ih =>
      rw [List.length_cons, List.cons_append, redactFrom, ih, endsInDigit_cons]

theorem accountIdLength_eq_none {t : Str} (h : ¬ StartsWithAccountId lib t) :
    accountIdLength lib t = none := by
  cases hlength : accountIdLength lib t with
  | none => rfl
  | some n =>
      obtain ⟨m, rest, ht, -, hm, hrest⟩ := accountId_of_length hlength
      exact absurd ⟨m, rest, ht, hm, hrest⟩ h

theorem redaction_redactFrom (n : Nat) (before : Bool) (t : Str) (hn : t.length ≤ n) :
    Redaction lib before t (redactFrom lib before 0 t) := by
  induction n generalizing before t with
  | zero =>
      obtain rfl := List.eq_nil_of_length_eq_zero (Nat.le_zero.mp hn)
      exact .nil before
  | succ n ih =>
      cases t with
      | nil => exact .nil before
      | cons c t =>
          rw [List.length_cons] at hn
          rw [redactFrom]
          cases before with
          | true =>
              refine .keep ?_ (ih _ t (by omega))
              intro h
              cases h.1
          | false =>
              cases hlength : accountIdLength lib (c :: t) with
              | none =>
                  refine .keep ?_ (ih _ t (by omega))
                  intro h
                  obtain ⟨m, rest, ht, hm, hrest⟩ := h.2
                  rw [ht] at hlength
                  exact accountIdLength_isSome hm hrest hlength
              | some k =>
                  obtain ⟨m, rest, ht, hk, hm, hrest⟩ := accountId_of_length hlength
                  cases m with
                  | nil =>
                      have hstart := (ends_of_isAccountId hm).1
                      cases hstart
                  | cons d m =>
                      obtain ⟨rfl, rfl⟩ := List.cons.inj ht
                      have hpassed : redactFrom lib (lib.digit c) (k - 1) (m ++ rest) =
                          redactFrom lib true 0 rest := by
                        have hpred : k - 1 = m.length := by
                          rw [← hk, List.length_cons, Nat.add_sub_cancel]
                        rw [hpred, redactFrom_length_append, ← endsInDigit_cons false,
                          (ends_of_isAccountId hm).2]
                      have hshorter : rest.length ≤ n := by
                        have htotal : (m ++ rest).length + 1 ≤ n + 1 := hn
                        rw [List.length_append] at htotal
                        omega
                      show Redaction lib false ((c :: m) ++ rest)
                        (redacted ++ redactFrom lib (lib.digit c) (k - 1) (m ++ rest))
                      rw [hpassed]
                      exact .redact hm hrest (ih true rest hshorter)

/-! ## No account ID is left -/

/-- An account ID stands at the start of a text or after its first character. -/
theorem hasAccountId_cons {before : Bool} {c : CodePoint} {t : Str}
    (h : HasAccountId lib before (c :: t)) :
    (before = false ∧ StartsWithAccountId lib (c :: t)) ∨ HasAccountId lib (lib.digit c) t := by
  obtain ⟨a, m, b, heq, hm, hbefore, hafter⟩ := h
  cases a with
  | nil => exact .inl ⟨hbefore, m, b, heq, hm, hafter⟩
  | cons d a =>
      obtain ⟨rfl, rfl⟩ := List.cons.inj heq
      rw [endsInDigit_cons] at hbefore
      exact .inr ⟨a, m, b, rfl, hm, hbefore, hafter⟩

theorem not_hasAccountId_nil (before : Bool) : ¬ HasAccountId lib before [] := by
  intro h
  obtain ⟨a, m, b, heq, hm, -, -⟩ := h
  have hstart := (ends_of_isAccountId hm).1
  have hnil : m = [] := (List.append_eq_nil_iff.mp (List.append_eq_nil_iff.mp heq.symm).2).1
  rw [hnil] at hstart
  cases hstart

theorem startsWithDigit_of_startsWithAccountId {t : Str} (h : StartsWithAccountId lib t) :
    startsWithDigit lib t = true := by
  obtain ⟨m, rest, rfl, hm, -⟩ := h
  have hstart := (ends_of_isAccountId hm).1
  cases m with
  | nil => cases hstart
  | cons c m => exact hstart

/-- After a text without digits an account ID is one of what follows. -/
theorem hasAccountId_of_append {before : Bool} {l t : Str} (hne : l ≠ [])
    (hl : ∀ c ∈ l, lib.digit c = false) (h : HasAccountId lib before (l ++ t)) :
    HasAccountId lib false t := by
  induction l generalizing before with
  | nil => exact absurd rfl hne
  | cons c l ih =>
      have hc := hl c List.mem_cons_self
      rw [List.cons_append] at h
      rcases hasAccountId_cons h with hstart | hrest
      · have hdigit := startsWithDigit_of_startsWithAccountId hstart.2
        rw [startsWithDigit, List.head?_cons, Option.any_some, hc] at hdigit
        cases hdigit
      · rw [hc] at hrest
        cases l with
        | nil => exact hrest
        | cons d l =>
            exact ih (List.cons_ne_nil d l) (fun e he => hl e (List.mem_cons_of_mem c he)) hrest

theorem digit_redacted : ∀ c ∈ redacted, lib.digit c = false := by
  intro c hc
  have hascii : redacted.all (fun d => d.val < 128 && !isDigit d) = true := by decide
  have h := List.all_eq_true.mp hascii c hc
  simp only [Bool.and_eq_true, decide_eq_true_eq, Bool.not_eq_true'] at h
  rw [lib.digit_ascii c h.1, h.2]

theorem ne_bracket_of_isAccountId {m : Str} (hm : IsAccountId lib m) {c : CodePoint}
    (hc : c ∈ m) : c ≠ 91 := by
  rintro rfl
  rcases char_of_isAccountId hm hc with h | h
  · have hbracket : lib.digit 91 = false := digit_redacted 91 (by decide)
    rw [hbracket] at h
    cases h
  · exact absurd h (by decide)

/-- What the output starts with was kept, up to its first mark. -/
theorem redaction_kept {before : Bool} {t l rest : Str} (hl : ∀ c ∈ l, c ≠ 91)
    (h : Redaction lib before t (l ++ rest)) :
    ∃ t', t = l ++ t' ∧ Redaction lib (endsInDigit lib before l) t' rest := by
  induction l generalizing before t with
  | nil => exact ⟨t, rfl, h⟩
  | cons c l ih =>
      have hrest : ∀ d ∈ l, d ≠ 91 := fun d hd => hl d (List.mem_cons_of_mem c hd)
      generalize hout : c :: l ++ rest = out at h
      cases h with
      | nil => cases hout
      | @keep _ d t out _ h =>
          obtain ⟨rfl, rfl⟩ := List.cons.inj hout
          obtain ⟨t', rfl, ht'⟩ := ih hrest h
          refine ⟨t', rfl, ?_⟩
          rw [endsInDigit_cons]
          exact ht'
      | redact hm ht h =>
          have hhead : c = 91 := (List.cons.inj hout).1
          exact absurd hhead (hl c List.mem_cons_self)

theorem startsWithDigit_of_redaction {t out : Str} (h : Redaction lib true t out) :
    startsWithDigit lib t = startsWithDigit lib out := by
  cases h with
  | nil => rfl
  | keep _ _ => rfl

/-- An account ID of the output was one of the text. -/
theorem startsWithAccountId_of_redaction {before : Bool} {t out : Str}
    (h : Redaction lib before t out) (hout : StartsWithAccountId lib out) :
    StartsWithAccountId lib t := by
  obtain ⟨m, rest, rfl, hm, hrest⟩ := hout
  obtain ⟨t', rfl, ht'⟩ := redaction_kept (fun c hc => ne_bracket_of_isAccountId hm hc) h
  rw [(ends_of_isAccountId hm).2] at ht'
  refine ⟨m, t', rfl, hm, ?_⟩
  rw [startsWithDigit_of_redaction ht', hrest]

/-- The output has no account ID, also where a mark stands before it instead of a digit. -/
theorem not_hasAccountId_of_redaction {before before' : Bool} {t out : Str}
    (h : Redaction lib before t out) (hbefore : before' = before ∨ startsWithDigit lib t = false) :
    ¬ HasAccountId lib before' out := by
  induction h generalizing before' with
  | nil before => exact not_hasAccountId_nil before'
  | @keep before c t out hkeep h ih =>
      intro hout
      rcases hasAccountId_cons hout with hstart | hlater
      · have hin := startsWithAccountId_of_redaction (.keep hkeep h) hstart.2
        rcases hbefore with rfl | hdigit
        · exact hkeep ⟨hstart.1, hin⟩
        · rw [startsWithDigit_of_startsWithAccountId hin] at hdigit
          cases hdigit
      · exact ih (.inl rfl) hlater
  | @redact m t out hm ht h ih =>
      intro hout
      have hrest := hasAccountId_of_append (by decide) digit_redacted hout
      exact ih (.inr ht) hrest

/-! ## Redacting again -/

theorem redactFrom_of_not_hasAccountId {before : Bool} {t : Str}
    (h : ¬ HasAccountId lib before t) : redactFrom lib before 0 t = t := by
  induction t generalizing before with
  | nil => rfl
  | cons c t ih =>
      have hrest : ¬ HasAccountId lib (lib.digit c) t := by
        intro hlater
        obtain ⟨a, m, b, rfl, hm, hbefore, hafter⟩ := hlater
        refine h ⟨c :: a, m, b, rfl, hm, ?_, hafter⟩
        rw [endsInDigit_cons]
        exact hbefore
      rw [redactFrom]
      cases before with
      | true => exact congrArg (c :: ·) (ih hrest)
      | false =>
          have hnone : accountIdLength lib (c :: t) = none := by
            apply accountIdLength_eq_none
            intro hstart
            obtain ⟨m, b, heq, hm, hafter⟩ := hstart
            exact h ⟨[], m, b, heq, hm, rfl, hafter⟩
          rw [if_neg Bool.false_ne_true, hnone]
          exact congrArg (c :: ·) (ih hrest)

/-- Redaction replaces the account IDs of a text and nothing else, leaves none, and changes a
redacted text no more. -/
theorem redactAccountIds_final (lib : VaultLibrary) (text : Str) :
    Redaction lib false text (redactAccountIds lib text) ∧
      ¬ HasAccountId lib false (redactAccountIds lib text) ∧
      redactAccountIds lib (redactAccountIds lib text) = redactAccountIds lib text := by
  have hredaction : Redaction lib false text (redactAccountIds lib text) :=
    redaction_redactFrom text.length false text le_rfl
  have hnone := not_hasAccountId_of_redaction hredaction (.inl rfl)
  exact ⟨hredaction, hnone, redactFrom_of_not_hasAccountId hnone⟩

end Evidence

end AuditSwarm
