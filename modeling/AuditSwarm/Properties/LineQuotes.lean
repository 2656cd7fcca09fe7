import AuditSwarm.Model.LineQuotes
import AuditSwarm.Python.Separators

/-!
# Quotes by line numbers in the payload

A quote is joined with line feeds, so it occurs in the payload where the lines quoted are separated
by line feeds there.  A payload of which every range can be quoted has single line feeds between
its lines, up to two borderline cases with empty lines at its start.
-/

namespace AuditSwarm

open Python

namespace Gateway

/-! ## Parts of the lines -/

theorem join_cons_cons {sep l m : Str} {lines : List Str} :
    join sep (l :: m :: lines) = l ++ (sep ++ join sep (m :: lines)) := by
  simp [join, List.intercalate]

theorem join_prefix {sep : Str} {part rest : List Str} :
    join sep part <+: join sep (part ++ rest) := by
  induction part with
  | nil => exact List.nil_prefix
  | cons l part ih =>
      cases part with
      | nil =>
          have hone : join sep [l] = l := by simp [join, List.intercalate]
          rw [hone]
          cases rest with
          | nil => rw [List.append_nil, hone]
          | cons m rest =>
              rw [List.singleton_append, join_cons_cons]
              exact List.prefix_append l _
      | cons m part =>
          rw [List.cons_append, List.cons_append, join_cons_cons, join_cons_cons,
            List.prefix_append_right_inj, List.prefix_append_right_inj]
          exact ih

theorem join_suffix {sep : Str} {part before : List Str} :
    join sep part <:+ join sep (before ++ part) := by
  induction before with
  | nil => exact List.suffix_rfl
  | cons l before ih =>
      rw [List.cons_append]
      cases hrest : before ++ part with
      | nil =>
          rw [(List.append_eq_nil_iff.mp hrest).2]
          exact List.nil_suffix
      | cons m rest =>
          rw [hrest] at ih
          rw [join_cons_cons, ← List.append_assoc]
          exact ih.trans (List.suffix_append _ _)

/-- Some of the lines, joined, are part of all of them, joined. -/
theorem join_infix {sep : Str} {lines : List Str} {i n : Nat} :
    join sep ((lines.take n).drop i) <:+: join sep lines := by
  have hprefix : join sep (lines.take n) <+: join sep (lines.take n ++ lines.drop n) := join_prefix
  have hsuffix : join sep ((lines.take n).drop i) <:+
      join sep ((lines.take n).take i ++ (lines.take n).drop i) := join_suffix
  rw [List.take_append_drop] at hprefix hsuffix
  exact hsuffix.isInfix.trans hprefix.isInfix

theorem quotes_infix_iff {payload : Str} :
    (∀ startLine endLine, WithinPayload payload startLine endLine →
      extractQuoteByLines payload startLine endLine <:+: payload) ↔
      relined payload <:+: payload := by
  constructor
  · intro h
    by_cases hnil : splitlines payload = []
    · rw [relined, hnil]
      exact List.nil_infix
    · have hpos : 0 < (splitlines payload).length := List.length_pos_iff.mpr hnil
      have hwhole := h 1 (some (splitlines payload).length)
        ⟨le_rfl, by simp only [Option.getD_some]; omega, le_rfl⟩
      have hfirst : max 1 (min 1 ((splitlines payload).length : Int)) - 1 = 0 := by omega
      have hlast : (max (0 + 1) (min ((splitlines payload).length : Int)
          (splitlines payload).length)).toNat = (splitlines payload).length := by omega
      simp only [extractQuoteByLines, if_neg hnil, Option.getD_some, hfirst, hlast,
        List.take_length, Int.toNat_zero, List.drop_zero] at hwhole
      exact hwhole
  · intro h startLine endLine _
    rw [extractQuoteByLines]
    by_cases hnil : splitlines payload = []
    · rw [if_pos hnil]
      exact List.nil_infix
    · rw [if_neg hnil]
      exact join_infix.trans h

/-! ## The condition -/

def feeds (seps : List Str) : Bool := seps.all fun sep => sep = lit "\n"

/-- Single line feeds, except that there may be a carriage return before the first. -/
def feedsAfterReturn : List Str → Bool
  | [] => true
  | sep :: seps => (sep = lit "\n" || sep = lit "\r\n") && feeds seps

def inner (payload : Str) : List Str :=
  (separators payload).take ((splitlines payload).length - 1)

/-- The lines are separated by single line feeds; if the first line is empty, there may be a
carriage return before the first; if all lines are empty, that may also hold from the second
separator on, whatever the first is. -/
def quotableByLines (payload : Str) : Bool :=
  feeds (inner payload) ||
    ((splitlines payload).head? = some [] && feedsAfterReturn (inner payload)) ||
    ((splitlines payload).all (· = []) && feedsAfterReturn (separators payload).tail)

theorem inner_of_lineFree {l : Str} (hl : LineFree l) : inner l = [] := by
  rw [inner, separators_of_lineFree hl, List.take_nil]

theorem inner_cons_last {l sep : Str} (hl : LineFree l) (hsep : Separates sep []) :
    inner (l ++ (sep ++ [])) = [] := by
  rw [inner, splitlines_cons hl hsep, splitlines_eq_nil_iff.mpr rfl]
  rfl

theorem inner_cons {l sep rest : Str} (hl : LineFree l) (hsep : Separates sep rest)
    (hrest : rest ≠ []) : inner (l ++ (sep ++ rest)) = sep :: inner rest := by
  have hpos : 0 < (splitlines rest).length :=
    List.length_pos_iff.mpr fun h => hrest (splitlines_eq_nil_iff.mp h)
  have hlength : (splitlines rest).length + 1 - 1 = ((splitlines rest).length - 1) + 1 := by omega
  rw [inner, splitlines_cons hl hsep, separators_cons hl hsep, List.length_cons, hlength,
    List.take_succ_cons, inner]

theorem feeds_cons {sep : Str} {seps : List Str} :
    feeds (sep :: seps) = true ↔ sep = [10] ∧ feeds seps = true := by
  have hfeed : lit "\n" = [10] := by decide
  rw [feeds, List.all_cons, Bool.and_eq_true, decide_eq_true_eq, hfeed, feeds, hfeed]

theorem feedsAfterReturn_cons {sep : Str} {seps : List Str} :
    feedsAfterReturn (sep :: seps) = true ↔
      (sep = [10] ∨ sep = [13, 10]) ∧ feeds seps = true := by
  have hfeed : lit "\n" = [10] := by decide
  have hreturn : lit "\r\n" = [13, 10] := by decide
  rw [feedsAfterReturn, Bool.and_eq_true, Bool.or_eq_true, decide_eq_true_eq, decide_eq_true_eq,
    hfeed, hreturn]

/-! ## A prefix -/

theorem cons_prefix_separator_iff {sep rest t : Str} (hsep : Separates sep rest) :
    10 :: t <+: sep ++ rest ↔ sep = [10] ∧ t <+: rest := by
  rcases hsep.shape with rfl | ⟨c, rfl, -⟩
  · have hne : (10 : CodePoint) ≠ 13 := by decide
    rw [List.cons_append, List.cons_prefix_cons]
    simp [hne]
  · rw [List.singleton_append, List.cons_prefix_cons]
    constructor
    · intro h
      exact ⟨by rw [h.1], h.2⟩
    · intro h
      exact ⟨(List.cons.inj h.1).1.symm, h.2⟩

theorem relined_prefix_iff {s : Str} : relined s <+: s ↔ feeds (inner s) = true := by
  induction s using lineInduction with
  | last l hl =>
      rw [relined_of_lineFree hl, inner_of_lineFree hl]
      exact iff_of_true List.prefix_rfl rfl
  | cons l sep rest hl hsep ih =>
      by_cases hrest : rest = []
      · subst hrest
        rw [relined_cons_last hl hsep, inner_cons_last hl hsep]
        exact iff_of_true (List.prefix_append _ _) rfl
      · rw [relined_cons hl hsep hrest, inner_cons hl hsep hrest, List.prefix_append_right_inj,
          cons_prefix_separator_iff hsep, feeds_cons, ih]

/-! ## Empty lines -/

theorem allEmpty_cons {l sep rest : Str} (hl : LineFree l) (hsep : Separates sep rest) :
    ((splitlines (l ++ (sep ++ rest))).all (· = [])) = true ↔
      l = [] ∧ ((splitlines rest).all (· = [])) = true := by
  rw [splitlines_cons hl hsep, List.all_cons, Bool.and_eq_true, decide_eq_true_eq]

theorem not_cons_self_infix {c : CodePoint} {s : Str} : ¬ c :: s <:+: s := by
  intro h
  have hlength := h.length_le
  rw [List.length_cons] at hlength
  omega

/-- One more line feed than there are lines to separate fits only where all lines are empty. -/
theorem empty_of_cons_relined_prefix {s : Str} (h : 10 :: relined s <+: s) :
    ((splitlines s).all (· = [])) = true ∧ feeds (separators s) = true := by
  induction s using lineInduction with
  | last l hl =>
      rw [relined_of_lineFree hl] at h
      exact absurd h.isInfix not_cons_self_infix
  | cons l sep rest hl hsep ih =>
      rw [allEmpty_cons hl hsep, separators_cons hl hsep, feeds_cons]
      cases l with
      | cons c l =>
          rw [List.cons_append, List.cons_prefix_cons] at h
          have hc := hl c List.mem_cons_self
          rw [← h.1] at hc
          exact absurd hc (by decide)
      | nil =>
          by_cases hrest : rest = []
          · subst hrest
            rw [relined_cons_last hl hsep, List.nil_append, cons_prefix_separator_iff hsep] at h
            exact ⟨⟨rfl, rfl⟩, h.1, rfl⟩
          · rw [relined_cons hl hsep hrest, List.nil_append, List.nil_append,
              cons_prefix_separator_iff hsep] at h
            have hboth := ih h.2
            exact ⟨⟨rfl, hboth.1⟩, h.1, hboth.2⟩

theorem cons_relined_prefix_of_empty {s : Str} (hne : s ≠ [])
    (hempty : ((splitlines s).all (· = [])) = true) (hfeeds : feeds (separators s) = true) :
    10 :: relined s <+: s := by
  induction s using lineInduction with
  | last l hl =>
      rw [splitlines_of_lineFree hl, if_neg hne, List.all_cons, Bool.and_eq_true,
        decide_eq_true_eq] at hempty
      exact absurd hempty.1 hne
  | cons l sep rest hl hsep ih =>
      rw [allEmpty_cons hl hsep] at hempty
      rw [separators_cons hl hsep, feeds_cons] at hfeeds
      rw [hempty.1] at hl ⊢
      by_cases hrest : rest = []
      · subst hrest
        rw [relined_cons_last hl hsep, List.nil_append, cons_prefix_separator_iff hsep]
        exact ⟨hfeeds.1, List.prefix_rfl⟩
      · rw [relined_cons hl hsep hrest, List.nil_append, List.nil_append,
          cons_prefix_separator_iff hsep]
        exact ⟨hfeeds.1, ih hrest hempty.2 hfeeds.2⟩

/-- Where a text that starts with a line feed occurs after a separator. -/
theorem cons_infix_separator {sep rest t : Str} (hsep : Separates sep rest)
    (h : 10 :: t <:+: sep ++ rest) :
    (10 :: t <+: sep ++ rest) ∨ (sep = [13, 10] ∧ t <+: rest) ∨ 10 :: t <:+: rest := by
  rcases hsep.shape with rfl | ⟨c, rfl, -⟩
  · rw [List.cons_append, List.cons_append, List.nil_append, List.infix_cons_iff,
      List.infix_cons_iff] at h
    rcases h with hprefix | hprefix | hinfix
    · exact .inl hprefix
    · exact .inr (.inl ⟨rfl, (List.cons_prefix_cons.mp hprefix).2⟩)
    · exact .inr (.inr hinfix)
  · rw [List.singleton_append, List.infix_cons_iff] at h
    rcases h with hprefix | hinfix
    · exact .inl hprefix
    · exact .inr (.inr hinfix)

/-- What is in a text with as much text as the whole starts where its first line does. -/
theorem prefix_of_text {c : CodePoint} {s t : Str} (hc : isLineBreak c = false)
    (hcount : countText t = countText (c :: s)) (h : t <:+: c :: s) : t <+: c :: s := by
  rcases h with ⟨a, b, heq⟩
  cases a with
  | nil =>
      rw [List.nil_append] at heq
      exact ⟨b, heq⟩
  | cons d a =>
      have hd : d = c := (List.cons.inj heq).1
      have htotal : countText (d :: a ++ t ++ b) = countText (c :: s) := congrArg countText heq
      rw [hd] at htotal
      simp only [countText, List.countP_append, List.countP_cons, hc, Bool.not_false,
        if_true] at htotal hcount
      omega

theorem not_infix_of_count {s t : Str} (h : (splitlines s).length < t.count 10) :
    ¬ t <:+: s := by
  intro hinfix
  have hle := hinfix.sublist.count_le 10
  have hseps := count_le_separators s
  have hlines := length_separators_le s
  omega

/-- The same anywhere in the text: then there may be a carriage return before the first line
feed. -/
theorem empty_of_cons_relined_infix {s : Str} (h : 10 :: relined s <:+: s) :
    ((splitlines s).all (· = [])) = true ∧ feedsAfterReturn (separators s) = true := by
  rcases line_or_cons s with hl | ⟨l, sep, rest, rfl, hl, hsep⟩
  · rw [relined_of_lineFree hl] at h
    exact absurd h not_cons_self_infix
  · cases l with
    | cons c l =>
        -- the text before the line feed would be text of the first line
        have hc := hl c List.mem_cons_self
        have hcount : countText (10 :: relined (c :: l ++ (sep ++ rest))) =
            countText (c :: (l ++ (sep ++ rest))) := by
          rw [countText, List.countP_cons_of_neg (by decide), ← countText, countText_relined]
          rfl
        have hprefix := prefix_of_text hc hcount h
        rw [List.cons_prefix_cons] at hprefix
        rw [← hprefix.1] at hc
        exact absurd hc (by decide)
    | nil =>
        rw [allEmpty_cons hl hsep, separators_cons hl hsep, feedsAfterReturn_cons]
        rcases cons_infix_separator hsep h with hprefix | ⟨hreturn, hprefix⟩ | hinfix
        · have hboth := empty_of_cons_relined_prefix (s := [] ++ (sep ++ rest)) hprefix
          rw [allEmpty_cons hl hsep, separators_cons hl hsep, feeds_cons] at hboth
          exact ⟨hboth.1, .inl hboth.2.1, hboth.2.2⟩
        · by_cases hrest : rest = []
          · subst hrest
            exact ⟨⟨rfl, rfl⟩, .inr hreturn, rfl⟩
          · rw [relined_cons hl hsep hrest, List.nil_append] at hprefix
            have hboth := empty_of_cons_relined_prefix hprefix
            exact ⟨⟨rfl, hboth.1⟩, .inr hreturn, hboth.2⟩
        · refine absurd hinfix (not_infix_of_count ?_)
          have hlines := length_le_count_relined ([] ++ (sep ++ rest))
          rw [splitlines_cons hl hsep, List.length_cons] at hlines
          rw [List.count_cons_self]
          omega

theorem cons_relined_infix_of_empty {s : Str} (hne : s ≠ [])
    (hempty : ((splitlines s).all (· = [])) = true)
    (hfeeds : feedsAfterReturn (separators s) = true) : 10 :: relined s <:+: s := by
  rcases line_or_cons s with hl | ⟨l, sep, rest, rfl, hl, hsep⟩
  · rw [splitlines_of_lineFree hl, if_neg hne, List.all_cons, Bool.and_eq_true,
      decide_eq_true_eq] at hempty
    exact absurd hempty.1 hne
  · rw [separators_cons hl hsep, feedsAfterReturn_cons] at hfeeds
    rcases hfeeds.1 with hfeed | hreturn
    · refine (cons_relined_prefix_of_empty hne hempty ?_).isInfix
      rw [separators_cons hl hsep, feeds_cons]
      exact ⟨hfeed, hfeeds.2⟩
    · rw [allEmpty_cons hl hsep] at hempty
      rw [hempty.1] at hl ⊢
      have hafter : relined ([] ++ (sep ++ rest)) <+: rest := by
        by_cases hrest : rest = []
        · subst hrest
          rw [relined_cons_last hl hsep]
        · rw [relined_cons hl hsep hrest]
          exact cons_relined_prefix_of_empty hrest hempty.2 hfeeds.2
      rw [hreturn] at hafter ⊢
      exact List.infix_cons (List.cons_prefix_cons.mpr ⟨rfl, hafter⟩).isInfix

/-! ## Every range -/

theorem relined_infix_iff {s : Str} : relined s <:+: s ↔ quotableByLines s = true := by
  rw [quotableByLines, Bool.or_eq_true, Bool.or_eq_true, Bool.and_eq_true, Bool.and_eq_true,
    decide_eq_true_eq]
  rcases line_or_cons s with hl | ⟨l, sep, rest, rfl, hl, hsep⟩
  · rw [relined_of_lineFree hl, inner_of_lineFree hl]
    exact iff_of_true List.infix_rfl (.inl (.inl rfl))
  · by_cases hrest : rest = []
    · subst hrest
      rw [relined_cons_last hl hsep, inner_cons_last hl hsep]
      exact iff_of_true (List.prefix_append _ _).isInfix (.inl (.inl rfl))
    · constructor
      · intro h
        cases l with
        | cons c l =>
            have hprefix := prefix_of_text (hl c List.mem_cons_self) (countText_relined _) h
            exact .inl (.inl (relined_prefix_iff.mp hprefix))
        | nil =>
            have hrelined : relined (sep ++ rest) = 10 :: relined rest :=
              relined_cons hl hsep hrest
            rw [List.nil_append, hrelined] at h
            rcases cons_infix_separator hsep h with hprefix | ⟨hreturn, hprefix⟩ | hinfix
            · rw [← hrelined] at hprefix
              exact .inl (.inl (relined_prefix_iff.mp hprefix))
            · refine .inl (.inr ⟨?_, ?_⟩)
              · rw [splitlines_cons hl hsep]
                rfl
              · rw [inner_cons hl hsep hrest, feedsAfterReturn_cons]
                exact ⟨.inr hreturn, relined_prefix_iff.mp hprefix⟩
            · have hboth := empty_of_cons_relined_infix hinfix
              refine .inr ⟨(allEmpty_cons hl hsep).mpr ⟨rfl, hboth.1⟩, ?_⟩
              rw [separators_cons hl hsep]
              exact hboth.2
      · intro h
        rcases h with (hfeeds | ⟨hfirst, hreturn⟩) | ⟨hempty, hreturn⟩
        · exact (relined_prefix_iff.mpr hfeeds).isInfix
        · rw [splitlines_cons hl hsep] at hfirst
          have hnil : l = [] := Option.some.inj hfirst
          subst hnil
          rw [inner_cons hl hsep hrest, feedsAfterReturn_cons] at hreturn
          rcases hreturn.1 with hfeed | hreturned
          · refine (relined_prefix_iff.mpr ?_).isInfix
            rw [inner_cons hl hsep hrest, feeds_cons]
            exact ⟨hfeed, hreturn.2⟩
          · rw [relined_cons hl hsep hrest, List.nil_append, List.nil_append, hreturned]
            have hprefix : relined rest <+: rest := relined_prefix_iff.mpr hreturn.2
            exact List.infix_cons (List.cons_prefix_cons.mpr ⟨rfl, hprefix⟩).isInfix
        · rw [allEmpty_cons hl hsep] at hempty
          have hnil : l = [] := hempty.1
          subst hnil
          rw [separators_cons hl hsep, List.tail_cons] at hreturn
          rw [relined_cons hl hsep hrest, List.nil_append, List.nil_append]
          exact (cons_relined_infix_of_empty hrest hempty.2 hreturn).trans
            (List.suffix_append sep rest).isInfix

/-- Every line range of a payload is quoted with a part of the payload exactly where the payload
can be quoted by lines. -/
theorem extractQuoteByLines_exact_iff (payload : Str) :
    (∀ startLine endLine, WithinPayload payload startLine endLine →
      extractQuoteByLines payload startLine endLine <:+: payload) ↔
      quotableByLines payload = true :=
  quotes_infix_iff.trans relined_infix_iff

/-- Two lines with a carriage return and a line feed between them. -/
theorem returned_line_not_quoted :
    ¬ ∀ payload startLine endLine, WithinPayload payload startLine endLine →
      extractQuoteByLines payload startLine endLine <:+: payload := by
  intro h
  have hquote := h (lit "a\r\nb") 1 (some 2) ⟨by decide, by decide, by decide +kernel⟩
  exact absurd hquote (by decide +kernel)

end Gateway

end AuditSwarm
