import AuditSwarm.Python.Lines
import AuditSwarm.Vault.Check
import AuditSwarm.Vault.Redaction

/-!
# Trimmed citations

What the quote check makes of a vault ID and a quote without the white space around them.
-/

namespace Python

theorem mem_dropWhile_of_neg {α : Type} {p : α → Bool} {l : List α} {a : α} (h : a ∈ l)
    (ha : p a = false) : a ∈ l.dropWhile p := by
  rw [← List.takeWhile_append_dropWhile (p := p) (l := l)] at h
  rcases List.mem_append.mp h with h | h
  · rw [List.mem_takeWhile_imp h] at ha
    cases ha
  · exact h

theorem mem_strip {s : Str} {c : CodePoint} (h : c ∈ s) (hc : isSpace c = false) : c ∈ strip s := by
  rw [strip, trimWith, List.rdropWhile, List.mem_reverse]
  apply mem_dropWhile_of_neg _ hc
  rw [List.mem_reverse]
  exact mem_dropWhile_of_neg h hc

theorem strip_strip_eq_nil_iff {s : Str} : strip (strip s) = [] ↔ strip s = [] := by
  rw [strip_eq_nil_iff, strip_eq_nil_iff]
  constructor
  · intro h c hc
    by_contra hspace
    have hfalse : isSpace c = false := by simpa using hspace
    rw [h c (mem_strip hc hfalse)] at hfalse
    cases hfalse
  · exact fun h c hc => h c ((strip_within s).subset hc)

theorem strip_of_not_space {s : Str} (h : ∀ c ∈ s, isSpace c = false) : strip s = s := by
  have hdrop : ∀ l : Str, (∀ c ∈ l, isSpace c = false) → l.dropWhile isSpace = l := by
    intro l hl
    cases l with
    | nil => rfl
    | cons c t =>
        rw [List.dropWhile_cons_of_neg]
        simp [hl c List.mem_cons_self]
  rw [strip, trimWith, hdrop s h, List.rdropWhile, hdrop _ fun c hc => h c (List.mem_reverse.mp hc),
    List.reverse_reverse]

end Python

namespace AuditSwarm

open Python

namespace Evidence

theorem strip_of_isUuid {s : Str} (h : isUuid s = true) : strip s = s := by
  apply strip_of_not_space
  intro c hc
  unfold isUuid at h
  rcases mem_of_afterTests (of_decide_eq_true h) hc with hnil | ⟨p, hp, hpc⟩
  · cases hnil
  · rcases mem_grouped hp with rfl | rfl
    · unfold isHexDigit isDigit at hpc
      unfold isSpace
      simp only [Bool.or_eq_true, Bool.and_eq_true, decide_eq_true_eq] at hpc
      simp only [Bool.or_eq_false_iff, Bool.and_eq_false_iff, decide_eq_false_iff_not,
        beq_eq_false_iff_ne]
      omega
    · unfold isHyphen at hpc
      rw [of_decide_eq_true hpc]
      decide

/-- A citation that verifies still does without the white space around it, unless its quote is
then too short. -/
theorem verifyExactQuote_strip {rt : Runtime} {lib : VaultLibrary} {environ : Environ}
    {vault : Vault} {vaultId quote : Str} {sessionId : Option Str}
    (h : verifyExactQuote rt lib environ vault vaultId quote sessionId = .ok true) :
    verifyExactQuote rt lib environ vault (strip vaultId) (strip quote) sessionId =
      .ok (decide (minQuoteLength ≤ (strip quote).length)) := by
  obtain ⟨huuid, hquote, record, text, hcites, haccepted⟩ := verifyExactQuote_eq_true_iff.mp h
  rw [strip_of_isUuid huuid]
  by_cases hlong : minQuoteLength ≤ (strip quote).length
  · rw [decide_eq_true hlong]
    have hblank : strip quote ≠ [] := by
      simp only [quoteAdmissible, Bool.and_eq_true, decide_eq_true_eq] at hquote
      exact hquote.1
    have hadmissible : quoteAdmissible (strip quote) = true := by
      simp only [quoteAdmissible, Bool.and_eq_true, decide_eq_true_eq]
      exact ⟨fun hnil => hblank (strip_strip_eq_nil_iff.mp hnil), hlong⟩
    exact verifyExactQuote_eq_true_iff.mpr ⟨huuid, hadmissible, record, text, hcites,
      haccepted.payload, haccepted.digest, haccepted.session,
      (strip_within quote).trans haccepted.quoted⟩
  · have hshort : quoteAdmissible (strip quote) = false := by
      simp only [quoteAdmissible, Bool.and_eq_false_iff, decide_eq_false_iff_not]
      exact .inr hlong
    unfold verifyExactQuote
    rw [huuid, hshort, decide_eq_false hlong]
    rfl

end Evidence

end AuditSwarm
