import AuditSwarm.Python.Text

/-!
# Lines and runs

`str.split` and `str.splitlines`, runs of one character, and where a pattern can occur in a text
that is put together from parts.
-/

namespace Python

/-! ## Occurrences -/

/-- An occurrence of a pattern without a character is on one side of that character. -/
theorem occurrence_append_cons {α : Type} {p a b a' b' : List α} {d : α} (hd : d ∉ p)
    (h : a ++ d :: b = a' ++ p ++ b') :
    (∃ z, a = a' ++ p ++ z) ∨ ∃ w, a' = a ++ d :: w ∧ b = w ++ p ++ b' := by
  rcases List.append_eq_append_iff.mp h with ⟨z, hs, hz⟩ | ⟨z, ha, -⟩
  · cases z with
    | nil => exact .inl ⟨[], by simpa using hs.symm⟩
    | cons e z =>
        obtain ⟨rfl, rfl⟩ := List.cons.inj hz
        rcases List.append_eq_append_iff.mp hs with ⟨w, -, hw⟩ | ⟨w, ha, hw⟩
        · have hmem : d ∈ p := by
            rw [hw]
            simp
          exact absurd hmem hd
        · cases w with
          | nil =>
              have hmem : d ∈ p := by
                rw [← show d :: z = p from hw]
                exact List.mem_cons_self
              exact absurd hmem hd
          | cons e w =>
              obtain ⟨rfl, rfl⟩ := List.cons.inj hw
              exact .inr ⟨w, ha, rfl⟩
  · exact .inl ⟨z, ha⟩

theorem infix_append_cons_iff {α : Type} {p a b : List α} {d : α} (hd : d ∉ p) :
    p <:+: a ++ d :: b ↔ p <:+: a ∨ p <:+: b := by
  constructor
  · intro h
    obtain ⟨s, t, h⟩ := h
    rcases occurrence_append_cons hd h.symm with ⟨z, ha⟩ | ⟨w, -, hb⟩
    · exact .inl ⟨s, z, ha.symm⟩
    · exact .inr ⟨w, t, hb.symm⟩
  · intro h
    rcases h with h | h
    · exact h.trans (List.prefix_append a _).isInfix
    · exact h.trans (List.suffix_append_of_suffix (List.suffix_cons d b)).isInfix

/-- A pattern with as many of its first character as the text has can only start where the text
does. -/
theorem starts_of_count {c : CodePoint} {p q r w z : Str} (h : p ++ r = w ++ q ++ z)
    (hp : p.head? = some c) (hr : c ∉ r) (hcount : p.count c = q.count c) : w = [] := by
  cases w with
  | nil => rfl
  | cons d w =>
      have hd : d = c := by
        have hhead := congrArg List.head? h
        cases p with
        | nil => cases hp
        | cons e p =>
            have he : e = c := by simpa using hp
            have hed : e = d := by simpa using hhead
            rw [← hed, he]
      have hsum := congrArg (List.count c) h
      rw [hd] at hsum
      simp only [List.cons_append, List.count_append, List.count_cons_self,
        List.count_eq_zero_of_not_mem hr] at hsum
      omega

/-- A pattern occurs in a text only after the given beginning of the text. -/
def OnlyAfter (a p s : Str) : Prop := ∀ a' b', s = a' ++ p ++ b' → a' = a

/-- No run of `n` times a character. -/
def NoRun (n : Nat) (c : CodePoint) (s : Str) : Prop := ¬ List.replicate n c <:+: s

instance (n : Nat) (c : CodePoint) (s : Str) : Decidable (NoRun n c s) :=
  inferInstanceAs (Decidable (¬ _))

section
variable {n : Nat} {c : CodePoint} {s t : Str}

theorem NoRun.of_within (h : NoRun n c t) (hs : s <:+: t) : NoRun n c s := fun hrun =>
  h (hrun.trans hs)

theorem noRun_append_cons_iff {d : CodePoint} (hd : d ≠ c) :
    NoRun n c (s ++ d :: t) ↔ NoRun n c s ∧ NoRun n c t := by
  have hmem : d ∉ List.replicate n c := fun h => hd (List.eq_of_mem_replicate h)
  unfold NoRun
  rw [infix_append_cons_iff hmem, not_or]

theorem noRun_cons_iff {d : CodePoint} (hd : d ≠ c) (hn : n ≠ 0) :
    NoRun n c (d :: t) ↔ NoRun n c t := by
  have hnil : NoRun n c [] := by
    intro h
    exact hn (by simpa using h)
  have hcons := noRun_append_cons_iff (n := n) (s := []) (t := t) hd
  rw [List.nil_append] at hcons
  rw [hcons]
  simp [hnil]

theorem noRun_of_not_mem (hn : n ≠ 0) (h : c ∉ s) : NoRun n c s := by
  intro hrun
  exact h (hrun.subset (by simp [List.mem_replicate, hn]))

end

/-- Texts without a run of a character, joined with another one. -/
theorem noRun_join {n : Nat} {c d : CodePoint} {parts : List Str} (hd : d ≠ c) (hn : n ≠ 0)
    (h : ∀ p ∈ parts, NoRun n c p) : NoRun n c (join [d] parts) := by
  induction parts with
  | nil => exact noRun_of_not_mem hn List.not_mem_nil
  | cons p parts ih =>
      have hp := h p List.mem_cons_self
      have hparts : ∀ q ∈ parts, NoRun n c q := fun q hq => h q (List.mem_cons_of_mem p hq)
      cases parts with
      | nil => simpa [join, List.intercalate] using hp
      | cons q parts =>
          have hjoin : join [d] (p :: q :: parts) = p ++ d :: join [d] (q :: parts) := by
            simp [join, List.intercalate]
          rw [hjoin]
          exact (noRun_append_cons_iff hd).mpr ⟨hp, ih hparts⟩

theorem strip_within (s : Str) : strip s <:+: s := by
  rw [strip, trimWith]
  exact (List.rdropWhile_prefix _ _).isInfix.trans (List.dropWhile_suffix _).isInfix

/-! ## Words -/

theorem not_isSpace_of_mem_splitOnP {s w : Str} (hw : w ∈ s.splitOnP isSpace) :
    ∀ c ∈ w, isSpace c = false := by
  induction s generalizing w with
  | nil =>
      rw [List.splitOnP_nil, List.mem_singleton] at hw
      subst hw
      intro c hc
      cases hc
  | cons x s ih =>
      rw [List.splitOnP_cons_eq_if_modifyHead] at hw
      by_cases hx : isSpace x = true
      · rw [if_pos hx] at hw
        rcases List.mem_cons.mp hw with rfl | hw
        · intro c hc
          cases hc
        · exact ih hw
      · rw [if_neg hx] at hw
        obtain ⟨u, us, hus⟩ := List.exists_cons_of_ne_nil (List.splitOnP_ne_nil isSpace s)
        rw [hus, List.modifyHead_cons] at hw
        rw [hus] at ih
        rcases List.mem_cons.mp hw with rfl | hw
        · intro c hc
          rcases List.mem_cons.mp hc with rfl | hc
          · simpa using hx
          · exact ih List.mem_cons_self c hc
        · exact ih (List.mem_cons_of_mem u hw)

/-- The pieces of a split text stand in the text, the first one at its start. -/
theorem splitOnP_within {s u : Str} {us : List Str} (h : s.splitOnP isSpace = u :: us) :
    u <+: s ∧ ∀ w ∈ us, w <:+: s := by
  induction s generalizing u us with
  | nil =>
      rw [List.splitOnP_nil] at h
      obtain ⟨rfl, rfl⟩ := List.cons.inj h
      exact ⟨List.nil_prefix, fun w hw => by cases hw⟩
  | cons x s ih =>
      rw [List.splitOnP_cons_eq_if_modifyHead] at h
      obtain ⟨v, vs, hvs⟩ := List.exists_cons_of_ne_nil (List.splitOnP_ne_nil isSpace s)
      obtain ⟨hv, hrest⟩ := ih hvs
      have hinner : ∀ w, w <:+: s → w <:+: x :: s :=
        fun w hw => hw.trans (List.suffix_cons x s).isInfix
      by_cases hx : isSpace x = true
      · rw [if_pos hx, hvs] at h
        obtain ⟨rfl, rfl⟩ := List.cons.inj h
        refine ⟨List.nil_prefix, ?_⟩
        intro w hw
        rcases List.mem_cons.mp hw with rfl | hw
        · exact hinner w hv.isInfix
        · exact hinner w (hrest w hw)
      · rw [if_neg hx, hvs, List.modifyHead_cons] at h
        obtain ⟨rfl, rfl⟩ := List.cons.inj h
        exact ⟨List.cons_prefix_cons.mpr ⟨rfl, hv⟩, fun w hw => hinner w (hrest w hw)⟩

theorem words_within {s w : Str} (hw : w ∈ words s) : w <:+: s := by
  obtain ⟨u, us, hus⟩ := List.exists_cons_of_ne_nil (List.splitOnP_ne_nil isSpace s)
  obtain ⟨hu, hrest⟩ := splitOnP_within hus
  have hmem := (List.mem_filter.mp hw).1
  rw [hus] at hmem
  rcases List.mem_cons.mp hmem with rfl | hmem
  · exact hu.isInfix
  · exact hrest w hmem

theorem word_of_mem_words {s w : Str} (hw : w ∈ words s) :
    w ≠ [] ∧ ∀ c ∈ w, isSpace c = false := by
  obtain ⟨hsplit, hne⟩ := List.mem_filter.mp hw
  exact ⟨by simpa using hne, not_isSpace_of_mem_splitOnP hsplit⟩

theorem words_join {ws : List Str} (h : ∀ w ∈ ws, w ≠ [] ∧ ∀ c ∈ w, isSpace c = false) :
    words (join (lit " ") ws) = ws := by
  have hblank : lit " " = [32] := by decide
  induction ws with
  | nil => exact words_nil
  | cons w ws ih =>
      obtain ⟨hne, hspace⟩ := h w List.mem_cons_self
      have hrest : ∀ v ∈ ws, v ≠ [] ∧ ∀ c ∈ v, isSpace c = false :=
        fun v hv => h v (List.mem_cons_of_mem w hv)
      have hfull : (!w.isEmpty) = true := by simpa using hne
      cases ws with
      | nil =>
          have hjoin : join (lit " ") [w] = w := by simp [join, List.intercalate]
          rw [hjoin, words, List.splitOnP_eq_singleton hspace, List.filter_cons, if_pos hfull,
            List.filter_nil]
      | cons v ws =>
          have hjoin : join (lit " ") (w :: v :: ws) = w ++ 32 :: join (lit " ") (v :: ws) := by
            simp [join, List.intercalate, hblank]
          have htail := ih hrest
          have hsep : isSpace 32 = true := by decide
          rw [words] at htail
          rw [hjoin, words, List.splitOnP_append_cons _ _ hsep,
            List.splitOnP_eq_singleton hspace, List.singleton_append,
            List.filter_cons, if_pos hfull, htail]

@[simp] theorem words_join_words (s : Str) : words (join (lit " ") (words s)) = words s :=
  words_join fun _ hw => word_of_mem_words hw

/-! ## Lines -/

/-- A line boundary of `str.splitlines`. -/
def isLineBreak (c : CodePoint) : Bool :=
  let n := c.val
  (10 ≤ n && n ≤ 13) || (28 ≤ n && n ≤ 30) || n == 0x85 || n == 0x2028 || n == 0x2029

theorem isSpace_of_isLineBreak {c : CodePoint} (h : isLineBreak c = true) : isSpace c = true := by
  simp only [isLineBreak, isSpace, Bool.or_eq_true, Bool.and_eq_true, decide_eq_true_eq,
    beq_iff_eq] at h ⊢
  omega

/-- `str.splitlines` once `line`, reversed, has been read of the current line. -/
def splitlinesFrom : Str → Str → List Str
  | line, [] => if line = [] then [] else [line.reverse]
  | line, c :: t =>
      if c = 13 ∧ t.head? = some 10 then splitlinesFrom line t
      else if isLineBreak c then line.reverse :: splitlinesFrom [] t
      else splitlinesFrom (c :: line) t

/-- `str.splitlines()` -/
def splitlines (s : Str) : List Str := splitlinesFrom [] s

def LineFree (s : Str) : Prop := ∀ c ∈ s, isLineBreak c = false

instance (s : Str) : Decidable (LineFree s) := inferInstanceAs (Decidable (∀ c ∈ s, _))

theorem lineFree_append {s t : Str} : LineFree (s ++ t) ↔ LineFree s ∧ LineFree t :=
  List.forall_mem_append

theorem splitlinesFrom_append {line s t : Str} (h : LineFree s) :
    splitlinesFrom line (s ++ t) = splitlinesFrom (s.reverse ++ line) t := by
  induction s generalizing line with
  | nil => rfl
  | cons c s ih =>
      have hc : isLineBreak c = false := h c List.mem_cons_self
      have hs : LineFree s := fun d hd => h d (List.mem_cons_of_mem c hd)
      have h13 : ¬ (c = 13 ∧ (s ++ t).head? = some 10) := by
        intro heq
        rw [heq.1] at hc
        exact absurd hc (by decide)
      rw [List.cons_append, splitlinesFrom, if_neg h13, if_neg (by simp [hc]), ih hs,
        List.reverse_cons, List.append_assoc, List.singleton_append]

/-- Lines joined with line feeds are split into the same lines. -/
theorem splitlines_join {lines : List Str} (h : ∀ l ∈ lines, LineFree l)
    (hlast : lines.getLast? ≠ some []) : splitlines (join (lit "\n") lines) = lines := by
  have hfeed : lit "\n" = [10] := by decide
  induction lines with
  | nil => rfl
  | cons l lines ih =>
      have hl := h l List.mem_cons_self
      have hrest : ∀ m ∈ lines, LineFree m := fun m hm => h m (List.mem_cons_of_mem l hm)
      cases lines with
      | nil =>
          have hne : l ≠ [] := by simpa using hlast
          have hjoin : join (lit "\n") [l] = l ++ [] := by simp [join, List.intercalate]
          rw [hjoin, splitlines, splitlinesFrom_append hl, List.append_nil, splitlinesFrom,
            if_neg (by simpa using hne), List.reverse_reverse]
      | cons m lines =>
          have hjoin : join (lit "\n") (l :: m :: lines) =
              l ++ 10 :: join (lit "\n") (m :: lines) := by
            simp [join, List.intercalate, hfeed]
          have hten : ¬ ((10 : CodePoint) = 13 ∧
              (join (lit "\n") (m :: lines)).head? = some 10) := by
            intro heq
            exact absurd heq.1 (by decide)
          rw [hjoin, splitlines, splitlinesFrom_append hl, splitlinesFrom, if_neg hten,
            if_pos (by decide), List.append_nil, List.reverse_reverse]
          have htail := ih hrest (by simpa using hlast)
          rw [splitlines] at htail
          rw [htail]

/-! ## Text that fits in one line of a larger text -/

/-- A character that neither ends a line nor is an angle bracket. -/
def isPlain (c : CodePoint) : Bool := !isLineBreak c && c ≠ 60 && c ≠ 62

def Plain (s : Str) : Prop := s.all isPlain = true

instance (s : Str) : Decidable (Plain s) := inferInstanceAs (Decidable (_ = true))

/-- One line without a run of three angle brackets. -/
structure Inert (s : Str) : Prop where
  lineFree : LineFree s
  noOpening : NoRun 3 60 s
  noClosing : NoRun 3 62 s

instance (s : Str) : Decidable (Inert s) :=
  decidable_of_iff (LineFree s ∧ NoRun 3 60 s ∧ NoRun 3 62 s)
    ⟨fun h => ⟨h.1, h.2.1, h.2.2⟩, fun h => ⟨h.lineFree, h.noOpening, h.noClosing⟩⟩

theorem inert_nil : Inert [] := by
  constructor
  · intro c hc
    cases hc
  · exact noRun_of_not_mem (by decide) List.not_mem_nil
  · exact noRun_of_not_mem (by decide) List.not_mem_nil

theorem Inert.of_within {s t : Str} (h : Inert t) (hs : s <:+: t) : Inert s where
  lineFree := fun c hc => h.lineFree c (hs.subset hc)
  noOpening := h.noOpening.of_within hs
  noClosing := h.noClosing.of_within hs

/-- A plain character apart, a text is inert when its parts are. -/
theorem inert_append_cons {d : CodePoint} {s t : Str} (hd : isPlain d = true) (hs : Inert s)
    (ht : Inert t) : Inert (s ++ d :: t) := by
  simp only [isPlain, Bool.and_eq_true, Bool.not_eq_true', decide_eq_true_eq] at hd
  obtain ⟨⟨hbreak, hopen⟩, hclose⟩ := hd
  constructor
  · apply lineFree_append.mpr
    refine ⟨hs.lineFree, ?_⟩
    intro c hc
    rcases List.mem_cons.mp hc with rfl | hc
    · exact hbreak
    · exact ht.lineFree c hc
  · exact (noRun_append_cons_iff hopen).mpr ⟨hs.noOpening, ht.noOpening⟩
  · exact (noRun_append_cons_iff hclose).mpr ⟨hs.noClosing, ht.noClosing⟩

theorem plain_decimal (n : Nat) : Plain (decimal n) := by
  apply List.all_eq_true.mpr
  intro c hc
  have hdigit := all_isDigit_decimal n c hc
  simp only [isDigit, Bool.and_eq_true, decide_eq_true_eq] at hdigit
  have hvalue : ∀ d : CodePoint, c = d → c.val = d.val := fun d hd => congrArg Fin.val hd
  have hopen : c ≠ 60 := fun hd => by
    have hval : c.val = 60 := hvalue 60 hd
    omega
  have hclose : c ≠ 62 := fun hd => by
    have hval : c.val = 62 := hvalue 62 hd
    omega
  have hbreak : isLineBreak c = false := by
    simp only [isLineBreak, Bool.or_eq_false_iff, Bool.and_eq_false_iff, decide_eq_false_iff_not,
      beq_eq_false_iff_ne]
    omega
  simp [isPlain, hopen, hclose, hbreak]

theorem inert_plain_append {l t : Str} (hl : Plain l) (ht : Inert t) : Inert (l ++ t) := by
  induction l with
  | nil => exact ht
  | cons d l ih =>
      have hall := List.all_eq_true.mp hl
      have hd := hall d List.mem_cons_self
      have hrest : Plain l :=
        List.all_eq_true.mpr fun c hc => hall c (List.mem_cons_of_mem d hc)
      exact inert_append_cons hd inert_nil (ih hrest)

theorem inert_of_plain {l : Str} (hl : Plain l) : Inert l := by
  have h := inert_plain_append hl inert_nil
  rwa [List.append_nil] at h

theorem inert_append_plain_append {s l t : Str} (hs : Inert s) (hne : l ≠ []) (hl : Plain l)
    (ht : Inert t) : Inert (s ++ (l ++ t)) := by
  cases l with
  | nil => exact absurd rfl hne
  | cons d l =>
      have hall := List.all_eq_true.mp hl
      have hrest : Plain l :=
        List.all_eq_true.mpr fun c hc => hall c (List.mem_cons_of_mem d hc)
      exact inert_append_cons (hall d List.mem_cons_self) hs (inert_plain_append hrest ht)

theorem inert_append_plain {s l : Str} (hs : Inert s) (hl : Plain l) : Inert (s ++ l) := by
  cases l with
  | nil => rwa [List.append_nil]
  | cons d l =>
      have h := inert_append_plain_append hs (List.cons_ne_nil d l) hl inert_nil
      rwa [List.append_nil] at h

theorem inert_join {sep : Str} {parts : List Str} (hne : sep ≠ []) (hsep : Plain sep)
    (h : ∀ p ∈ parts, Inert p) : Inert (join sep parts) := by
  induction parts with
  | nil => exact inert_nil
  | cons p parts ih =>
      have hp := h p List.mem_cons_self
      have hparts : ∀ q ∈ parts, Inert q := fun q hq => h q (List.mem_cons_of_mem p hq)
      cases parts with
      | nil => simpa [join, List.intercalate] using hp
      | cons q parts =>
          have hjoin : join sep (p :: q :: parts) = p ++ (sep ++ join sep (q :: parts)) := by
            simp [join, List.intercalate]
          rw [hjoin]
          exact inert_append_plain_append hp hne hsep (ih hparts)

/-! ## Rewriting characters to plain text -/

/-- A text with some of its parts replaced by plain text. -/
inductive Rewritten : Str → Str → Prop
  | nil : Rewritten [] []
  | keep {s t : Str} (c : CodePoint) : Rewritten s t → Rewritten (c :: s) (c :: t)
  | replace {s t : Str} (u p : Str) (hne : p ≠ []) (hp : Plain p) :
      Rewritten s t → Rewritten (u ++ s) (p ++ t)

theorem Rewritten.refl (s : Str) : Rewritten s s := by
  induction s with
  | nil => exact .nil
  | cons c s ih => exact .keep c ih

theorem not_mem_of_plain {c : CodePoint} {p : Str} (hc : isPlain c = false) (hp : Plain p) :
    c ∉ p := by
  intro hmem
  have hplain := List.all_eq_true.mp hp c hmem
  rw [hc] at hplain
  cases hplain

theorem noRun_append_of_not_mem {n : Nat} {c : CodePoint} {p t : Str} (hn : n ≠ 0) (hc : c ∉ p)
    (ht : NoRun n c t) : NoRun n c (p ++ t) := by
  induction p with
  | nil => exact ht
  | cons d p ih =>
      rw [List.mem_cons, not_or] at hc
      exact (noRun_cons_iff (Ne.symm hc.1) hn).mpr (ih hc.2)

/-- Rewriting makes no run of a character that is not plain. -/
theorem Rewritten.noRun {n : Nat} {c : CodePoint} {s t : Str} (h : Rewritten s t)
    (hc : isPlain c = false) (hn : n ≠ 0) (a : Str) (hs : NoRun n c (a ++ s)) :
    NoRun n c (a ++ t) := by
  induction h generalizing a with
  | nil => exact hs
  | @keep s t d _ ih =>
      have hsplit : ∀ u, a ++ d :: u = (a ++ [d]) ++ u := fun u => by simp
      rw [hsplit] at hs ⊢
      exact ih _ hs
  | @replace s t u p hne hp _ ih =>
      have ha : NoRun n c a := hs.of_within (List.prefix_append a _).isInfix
      have hrest : NoRun n c ([] ++ s) :=
        hs.of_within ((List.suffix_append u s).trans (List.suffix_append a _)).isInfix
      have ht : NoRun n c t := ih [] hrest
      cases p with
      | nil => exact absurd rfl hne
      | cons d p =>
          have hmem := not_mem_of_plain hc hp
          rw [List.mem_cons, not_or] at hmem
          exact (noRun_append_cons_iff (Ne.symm hmem.1)).mpr
            ⟨ha, noRun_append_of_not_mem hn hmem.2 ht⟩

theorem Rewritten.lineFree {s t : Str} (h : Rewritten s t) (hs : LineFree s) : LineFree t := by
  induction h with
  | nil => exact hs
  | @keep s t c _ ih =>
      intro d hd
      rcases List.mem_cons.mp hd with rfl | hd
      · exact hs d List.mem_cons_self
      · exact ih (fun e he => hs e (List.mem_cons_of_mem c he)) d hd
  | @replace s t u p _ hp _ ih =>
      refine lineFree_append.mpr ⟨?_, ih (lineFree_append.mp hs).2⟩
      intro d hd
      have hplain := List.all_eq_true.mp hp d hd
      simp only [isPlain, Bool.and_eq_true, Bool.not_eq_true'] at hplain
      exact hplain.1.1

theorem Rewritten.inert {s t : Str} (h : Rewritten s t) (hs : Inert s) : Inert t where
  lineFree := h.lineFree hs.lineFree
  noOpening := h.noRun (by decide) (by decide) [] hs.noOpening
  noClosing := h.noRun (by decide) (by decide) [] hs.noClosing

/-! ## Lines put together from fields -/

/-- Nothing, or an inert text that starts with a plain character. -/
def Continues (t : Str) : Prop := t = [] ∨ ∃ d u, t = d :: u ∧ isPlain d = true ∧ Inert u

theorem continues_nil : Continues [] := .inl rfl

theorem continues_append {l t : Str} (hne : l ≠ []) (hl : Plain l) (ht : Inert t) :
    Continues (l ++ t) := by
  cases l with
  | nil => exact absurd rfl hne
  | cons d l =>
      have hall := List.all_eq_true.mp hl
      have hrest : Plain l :=
        List.all_eq_true.mpr fun c hc => hall c (List.mem_cons_of_mem d hc)
      exact .inr ⟨d, l ++ t, rfl, hall d List.mem_cons_self, inert_plain_append hrest ht⟩

theorem inert_append {s t : Str} (hs : Inert s) (ht : Continues t) : Inert (s ++ t) := by
  rcases ht with rfl | ⟨d, u, rfl, hd, hu⟩
  · rwa [List.append_nil]
  · exact inert_append_cons hd hs hu

end Python
