import AuditSwarm.Lib.Counting
import AuditSwarm.Python.Lines

/-!
# What separates the lines of a text

`splitlines` ends a line at many characters, and at a carriage return with a line feed after it.
A text is its lines with these separators between them and, possibly, after the last; `relined` is
the text with line feeds between its lines instead.
-/

namespace Python

/-- What `splitlines` splits a text at. -/
def separators : Str → List Str
  | [] => []
  | [c] => if isLineBreak c then [[c]] else []
  | c :: d :: t =>
      if c = 13 ∧ d = 10 then [c, d] :: separators t
      else if isLineBreak c then [c] :: separators (d :: t)
      else separators (d :: t)

/-- The lines of a text with a line feed between them. -/
def relined (s : Str) : Str := join (lit "\n") (splitlines s)

/-- A separator, before the given text. -/
structure Separates (sep rest : Str) : Prop where
  shape : sep = [13, 10] ∨ ∃ c, sep = [c] ∧ isLineBreak c = true ∧
    ¬ (c = 13 ∧ rest.head? = some 10)

/-! ## A text line by line -/

theorem separators_singleton (c : CodePoint) :
    separators [c] = if isLineBreak c then [[c]] else [] := rfl

theorem separators_cons_of_not_break {c : CodePoint} {t : Str} (hc : isLineBreak c = false) :
    separators (c :: t) = separators t := by
  cases t with
  | nil =>
      rw [separators_singleton, if_neg (by simp [hc])]
      rfl
  | cons d t =>
      have h13 : ¬ (c = 13 ∧ d = 10) := by
        intro h
        rw [h.1] at hc
        exact absurd hc (by decide)
      rw [separators, if_neg h13, if_neg (by simp [hc])]

theorem separators_append_of_lineFree {l t : Str} (hl : LineFree l) :
    separators (l ++ t) = separators t := by
  induction l with
  | nil => rfl
  | cons c l ih =>
      rw [List.cons_append, separators_cons_of_not_break (hl c List.mem_cons_self),
        ih fun d hd => hl d (List.mem_cons_of_mem c hd)]

theorem separators_of_separates {sep rest : Str} (h : Separates sep rest) :
    separators (sep ++ rest) = sep :: separators rest := by
  rcases h.shape with rfl | ⟨c, rfl, hbreak, h13⟩
  · rw [List.cons_append, List.cons_append, List.nil_append, separators, if_pos ⟨rfl, rfl⟩]
  · cases rest with
    | nil =>
        rw [List.append_nil, separators_singleton, if_pos hbreak]
        rfl
    | cons d t =>
        have hne : ¬ (c = 13 ∧ d = 10) := by
          intro heq
          exact h13 ⟨heq.1, by rw [heq.2]; rfl⟩
        rw [List.singleton_append, separators, if_neg hne, if_pos hbreak]

theorem splitlinesFrom_of_separates {line sep rest : Str} (h : Separates sep rest) :
    splitlinesFrom line (sep ++ rest) = line.reverse :: splitlines rest := by
  rcases h.shape with rfl | ⟨c, rfl, hbreak, h13⟩
  · have hten : ¬ ((10 : CodePoint) = 13 ∧ rest.head? = some 10) := by
      intro heq
      exact absurd heq.1 (by decide)
    rw [List.cons_append, List.cons_append, List.nil_append, splitlinesFrom, if_pos ⟨rfl, rfl⟩,
      splitlinesFrom, if_neg hten, if_pos (by decide), splitlines]
  · rw [List.singleton_append, splitlinesFrom, if_neg h13, if_pos hbreak, splitlines]

theorem splitlines_of_lineFree {l : Str} (hl : LineFree l) :
    splitlines l = if l = [] then [] else [l] := by
  have hsplit : splitlinesFrom [] (l ++ []) = splitlinesFrom (l.reverse ++ []) [] :=
    splitlinesFrom_append hl
  rw [List.append_nil, List.append_nil, splitlinesFrom, List.reverse_reverse] at hsplit
  rw [splitlines, hsplit]
  simp only [List.reverse_eq_nil_iff]

theorem splitlines_cons {l sep rest : Str} (hl : LineFree l) (hsep : Separates sep rest) :
    splitlines (l ++ (sep ++ rest)) = l :: splitlines rest := by
  rw [splitlines, splitlinesFrom_append hl, splitlinesFrom_of_separates hsep, List.append_nil,
    List.reverse_reverse]

theorem separators_cons {l sep rest : Str} (hl : LineFree l) (hsep : Separates sep rest) :
    separators (l ++ (sep ++ rest)) = sep :: separators rest := by
  rw [separators_append_of_lineFree hl, separators_of_separates hsep]

theorem separators_of_lineFree {l : Str} (hl : LineFree l) : separators l = [] := by
  have h := separators_append_of_lineFree (t := []) hl
  rwa [List.append_nil] at h

/-- A text is one line, or a line, a separator and the rest. -/
theorem line_or_cons (s : Str) :
    LineFree s ∨ ∃ l sep rest, s = l ++ (sep ++ rest) ∧ LineFree l ∧ Separates sep rest := by
  induction s with
  | nil => exact .inl fun c hc => absurd hc List.not_mem_nil
  | cons c t ih =>
      by_cases hbreak : isLineBreak c = true
      · have hnil : LineFree [] := fun d hd => absurd hd List.not_mem_nil
        by_cases h13 : c = 13 ∧ t.head? = some 10
        · rcases t with - | ⟨d, t⟩
          · cases h13.2
          · have hd : d = 10 := Option.some.inj h13.2
            exact .inr ⟨[], [13, 10], t, by rw [h13.1, hd]; rfl, hnil, ⟨.inl rfl⟩⟩
        · exact .inr ⟨[], [c], t, rfl, hnil, ⟨.inr ⟨c, rfl, hbreak, h13⟩⟩⟩
      · have hc : isLineBreak c = false := Bool.eq_false_iff.mpr hbreak
        have hcons : ∀ l, LineFree l → LineFree (c :: l) := by
          intro l hl d hd
          rcases List.mem_cons.mp hd with rfl | hd
          · exact hc
          · exact hl d hd
        rcases ih with hfree | ⟨l, sep, rest, rfl, hl, hsep⟩
        · exact .inl (hcons t hfree)
        · exact .inr ⟨c :: l, sep, rest, rfl, hcons l hl, hsep⟩

theorem Separates.ne_nil {sep rest : Str} (h : Separates sep rest) : sep ≠ [] := by
  rcases h.shape with rfl | ⟨c, rfl, -⟩
  · exact List.cons_ne_nil _ _
  · exact List.cons_ne_nil _ _

@[elab_as_elim]
theorem lineInduction {motive : Str → Prop} (last : ∀ l, LineFree l → motive l)
    (cons : ∀ l sep rest, LineFree l → Separates sep rest → motive rest →
      motive (l ++ (sep ++ rest))) (s : Str) : motive s := by
  induction hn : s.length using Nat.strong_induction_on generalizing s with
  | _ n ih =>
      rcases line_or_cons s with hfree | ⟨l, sep, rest, rfl, hl, hsep⟩
      · exact last s hfree
      · have hpos : 0 < sep.length := List.length_pos_iff.mpr hsep.ne_nil
        refine cons l sep rest hl hsep (ih rest.length ?_ rest rfl)
        rw [← hn, List.length_append, List.length_append]
        omega

theorem splitlines_eq_nil_iff {s : Str} : splitlines s = [] ↔ s = [] := by
  constructor
  · intro h
    rcases line_or_cons s with hfree | ⟨l, sep, rest, rfl, hl, hsep⟩
    · rw [splitlines_of_lineFree hfree] at h
      by_contra hne
      rw [if_neg hne] at h
      cases h
    · rw [splitlines_cons hl hsep] at h
      cases h
  · intro h
    rw [h]
    rfl

theorem relined_of_lineFree {l : Str} (hl : LineFree l) : relined l = l := by
  rw [relined, splitlines_of_lineFree hl]
  by_cases hnil : l = []
  · rw [if_pos hnil, hnil]
    rfl
  · rw [if_neg hnil]
    simp [join, List.intercalate]

theorem relined_cons_last {l sep : Str} (hl : LineFree l) (hsep : Separates sep []) :
    relined (l ++ (sep ++ [])) = l := by
  rw [relined, splitlines_cons hl hsep, splitlines_eq_nil_iff.mpr rfl]
  simp [join, List.intercalate]

theorem relined_cons {l sep rest : Str} (hl : LineFree l) (hsep : Separates sep rest)
    (hrest : rest ≠ []) : relined (l ++ (sep ++ rest)) = l ++ 10 :: relined rest := by
  have hfeed : lit "\n" = [10] := by decide
  rw [relined, splitlines_cons hl hsep, relined]
  cases hlines : splitlines rest with
  | nil => exact absurd (splitlines_eq_nil_iff.mp hlines) hrest
  | cons m lines => simp [join, List.intercalate, hfeed]

/-! ## Counting -/

def countText (s : Str) : Nat := s.countP fun c => !isLineBreak c

theorem countText_relined (s : Str) : countText (relined s) = countText s := by
  have hsepText : ∀ sep rest : Str, Separates sep rest → countText sep = 0 := by
    intro sep rest hsep
    rcases hsep.shape with rfl | ⟨c, rfl, hbreak, -⟩
    · decide
    · rw [countText, List.countP_singleton, hbreak]
      rfl
  induction s using lineInduction with
  | last l hl => rw [relined_of_lineFree hl]
  | cons l sep rest hl hsep ih =>
      have hzero := hsepText sep rest hsep
      by_cases hrest : rest = []
      · subst hrest
        rw [relined_cons_last hl hsep, countText, countText, List.countP_append,
          List.countP_append, ← countText, ← countText, hzero]
        rfl
      · have hten : isLineBreak 10 = true := by decide
        have hcons : countText (10 :: relined rest) = countText (relined rest) := by
          rw [countText, List.countP_cons, hten]
          rfl
        rw [relined_cons hl hsep hrest, countText, countText, List.countP_append,
          List.countP_append, List.countP_append, ← countText, ← countText, ← countText,
          ← countText, hcons, ih, hzero, Nat.zero_add]

theorem count_le_separators (s : Str) : s.count 10 ≤ (separators s).length := by
  have hline : ∀ l : Str, LineFree l → l.count 10 = 0 := by
    intro l hl
    apply List.count_eq_zero.mpr
    intro hmem
    exact absurd (hl 10 hmem) (by decide)
  induction s using lineInduction with
  | last l hl =>
      rw [hline l hl]
      exact Nat.zero_le _
  | cons l sep rest hl hsep ih =>
      have hsepCount : sep.count 10 ≤ 1 := by
        rcases hsep.shape with rfl | ⟨c, rfl, -⟩
        · decide
        · exact List.count_le_length
      rw [separators_cons hl hsep, List.length_cons, List.count_append, List.count_append,
        hline l hl]
      omega

/-- A text has a line for every separator, and perhaps one more. -/
theorem length_separators_le (s : Str) : (separators s).length ≤ (splitlines s).length := by
  induction s using lineInduction with
  | last l hl =>
      rw [separators_of_lineFree hl]
      exact Nat.zero_le _
  | cons l sep rest hl hsep ih =>
      rw [separators_cons hl hsep, splitlines_cons hl hsep, List.length_cons, List.length_cons]
      omega

theorem length_le_count_relined (s : Str) :
    (splitlines s).length ≤ (relined s).count 10 + 1 := by
  induction s using lineInduction with
  | last l hl =>
      rw [splitlines_of_lineFree hl]
      by_cases hnil : l = []
      · rw [if_pos hnil]
        exact Nat.zero_le _
      · rw [if_neg hnil, List.length_singleton]
        omega
  | cons l sep rest hl hsep ih =>
      rw [splitlines_cons hl hsep, List.length_cons]
      by_cases hrest : rest = []
      · rw [hrest, splitlines_eq_nil_iff.mpr rfl, List.length_nil]
        omega
      · rw [relined_cons hl hsep hrest, List.count_append, List.count_cons_self]
        omega

end Python
