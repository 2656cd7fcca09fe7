import AuditSwarm.Python.Lines

/-!
# Delimiter look-alikes

Untrusted text is wrapped in markers of three angle brackets.  `_DELIMITER_LOOKALIKE` of
`findings_checks.py` and of `scope_document.py` shortens the longer runs of angle brackets in the
text itself to two.
-/

namespace AuditSwarm

open Python

def isAngle (c : CodePoint) : Bool := c = 60 || c = 62

/-- `_DELIMITER_LOOKALIKE.sub(lambda m: m.group(0)[0] * 2, text)`: an angle bracket that two of
the same follow is left out. -/
def shortenRuns : Str → Str
  | [] => []
  | c :: t => if isAngle c && t.take 2 = [c, c] then shortenRuns t else c :: shortenRuns t

variable {c : CodePoint} {s t : Str}

theorem shortenRuns_cons_of_kept (h : (isAngle c && t.take 2 = [c, c]) = false) :
    shortenRuns (c :: t) = c :: shortenRuns t := by
  rw [shortenRuns, if_neg (by simp [h])]

theorem shortenRuns_cons_of_dropped (h : (isAngle c && t.take 2 = [c, c]) = true) :
    shortenRuns (c :: t) = shortenRuns t := by
  rw [shortenRuns, if_pos h]

theorem head?_shortenRuns (s : Str) : (shortenRuns s).head? = s.head? := by
  induction s with
  | nil => rfl
  | cons c t ih =>
      cases hd : (isAngle c && t.take 2 = [c, c]) with
      | false => rw [shortenRuns_cons_of_kept hd, List.head?_cons, List.head?_cons]
      | true =>
          rw [shortenRuns_cons_of_dropped hd, ih, List.head?_cons]
          have htake : t.take 2 = [c, c] := by simpa using (Bool.and_eq_true_iff.mp hd).2
          cases t with
          | nil => simp at htake
          | cons d t =>
              have hdc : d = c := by
                have := congrArg List.head? htake
                simpa using this
              rw [hdc, List.head?_cons]

theorem take_two_of_shortenRuns (h : (shortenRuns s).take 2 = [c, c]) : s.take 2 = [c, c] := by
  cases s with
  | nil => simp [shortenRuns] at h
  | cons d t =>
      have hhead : d = c := by
        have hfirst := head?_shortenRuns (d :: t)
        have hc := congrArg List.head? h
        rw [List.head?_take, if_neg (by decide), hfirst] at hc
        simpa using hc
      subst hhead
      cases hd : (isAngle d && t.take 2 = [d, d]) with
      | true =>
          have htake : t.take 2 = [d, d] := by simpa using (Bool.and_eq_true_iff.mp hd).2
          cases t with
          | nil => simp at htake
          | cons e t =>
              have hed : e = d := by
                have := congrArg List.head? htake
                simpa using this
              rw [hed]
              rfl
      | false =>
          rw [shortenRuns_cons_of_kept hd] at h
          have hsecond : (shortenRuns t).head? = some d := by
            cases hrest : shortenRuns t with
            | nil =>
                rw [hrest] at h
                simp at h
            | cons e r =>
                rw [hrest] at h
                have he : e = d := by simpa using h
                rw [he, List.head?_cons]
          rw [head?_shortenRuns] at hsecond
          cases t with
          | nil => simp at hsecond
          | cons e t =>
              have he : e = d := by simpa using hsecond
              rw [he]
              rfl

theorem noRun_shortenRuns (hc : isAngle c = true) (s : Str) : NoRun 3 c (shortenRuns s) := by
  induction s with
  | nil => exact noRun_of_not_mem (by decide) List.not_mem_nil
  | cons d t ih =>
      cases hd : (isAngle d && t.take 2 = [d, d]) with
      | true =>
          rw [shortenRuns_cons_of_dropped hd]
          exact ih
      | false =>
          rw [shortenRuns_cons_of_kept hd]
          intro hrun
          rcases List.infix_cons_iff.mp hrun with hfirst | hrest
          · have hthree : List.replicate 3 c = c :: [c, c] := rfl
            rw [hthree, List.cons_prefix_cons] at hfirst
            obtain ⟨rfl, hpre⟩ := hfirst
            have htwo : (shortenRuns t).take 2 = [c, c] := by
              have := List.prefix_iff_eq_take.mp hpre
              simpa using this.symm
            rw [take_two_of_shortenRuns htwo, hc] at hd
            simp at hd
          · exact ih hrest

example : shortenRuns (lit "<<<<a>>b>>>") = lit "<<a>>b>>" := by decide

end AuditSwarm
