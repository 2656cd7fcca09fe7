import AuditSwarm.Model.ScopeDocument

/-!
# Scope documents stay inside their markers

The block an uploaded document is handed on in has one begin marker and one end marker, whatever
the document says, and the text stands between them.
-/

namespace AuditSwarm

open Python

namespace ScopeDocument

/-! ## Shortened text -/

/-- A text with some of its runs of angle brackets shortened: what is left out is a bracket that
another of its kind follows. -/
inductive RunsShortened : Str → Str → Prop
  | nil : RunsShortened [] []
  | keep {s t : Str} (c : CodePoint) : RunsShortened s t → RunsShortened (c :: s) (c :: t)
  | leaveOut {s t : Str} {c : CodePoint} (hc : isAngle c = true) (hs : s.head? = some c) :
      RunsShortened s t → RunsShortened (c :: s) t

theorem runsShortened_shortenRuns (s : Str) : RunsShortened s (shortenRuns s) := by
  induction s with
  | nil => exact .nil
  | cons c s ih =>
      cases h : (isAngle c && s.take 2 = [c, c]) with
      | false =>
          rw [shortenRuns_cons_of_kept h]
          exact .keep c ih
      | true =>
          rw [shortenRuns_cons_of_dropped h]
          obtain ⟨hangle, htake⟩ := Bool.and_eq_true_iff.mp h
          have hhead : s.head? = some c := by
            have hfirst := congrArg List.head? (of_decide_eq_true htake)
            rwa [List.head?_take, if_neg (by decide)] at hfirst
          exact .leaveOut hangle hhead ih

/-! ## File names -/

theorem isFilenameChar_cleaned (base : Str) :
    ∀ c ∈ strip (base.map fun c => if isFilenameChar c then c else 95),
      isFilenameChar c = true := by
  intro c hc
  obtain ⟨d, -, rfl⟩ := List.mem_map.mp ((strip_within _).subset hc)
  by_cases hd : isFilenameChar d = true
  · rwa [if_pos hd]
  · rw [if_neg hd]
    decide

theorem isFilenameChar_of_ite {cleaned : Str} {c : CodePoint}
    (hcleaned : ∀ c ∈ cleaned, isFilenameChar c = true)
    (h : c ∈ if cleaned = [] then lit "document" else cleaned) : isFilenameChar c = true := by
  split at h
  · have hall : (lit "document").all isFilenameChar = true := by decide
    exact List.all_eq_true.mp hall c h
  · exact hcleaned c h

theorem mem_safeFilename {name : Option Str} {c : CodePoint} (h : c ∈ safeFilename name) :
    isFilenameChar c = true :=
  isFilenameChar_of_ite (isFilenameChar_cleaned _) (List.mem_of_mem_take h)

theorem extractScopeDocument_filename {rt : Runtime} {lib : ScopeLibrary} {filename : Option Str}
    {data : Bytes} {doc : ExtractedDocument}
    (h : extractScopeDocument rt lib filename data = .ok doc) :
    doc.filename = safeFilename filename := by
  unfold extractScopeDocument at h
  dsimp only at h
  split at h
  · cases h
  · split at h
    · cases h
    · split at h
      · cases h
      · split at h
        · cases h
        · cases h
          rfl

/-! ## Occurrences of the markers -/

section
variable {filename text note : Str}

def openingLine (filename : Str) : Str := beginMarker ++ (lit ": " ++ filename ++ lit ">>>")

theorem wrapUntrusted_lines (doc : ExtractedDocument) :
    wrapUntrusted doc = preamble ++ 10 :: (openingLine doc.filename ++ 10 ::
      (shortenRuns doc.text ++ truncationNote doc.truncated ++ 10 :: endMarker)) := by
  have hfeed : lit "\n" = [10] := by decide
  have hclose : lit ">>>\n" = lit ">>>" ++ [10] := by decide
  simp only [wrapUntrusted, openingLine, hfeed, hclose, List.append_assoc, List.cons_append,
    List.nil_append]

theorem opening_not_mem (hname : ∀ c ∈ filename, isFilenameChar c = true) :
    (60 : CodePoint) ∉ lit ": " ++ filename ++ lit ">>>" := by
  intro h
  rcases List.mem_append.mp h with h | h
  · rcases List.mem_append.mp h with h | h
    · exact absurd h (by decide)
    · exact absurd (hname _ h) (by decide)
  · exact absurd h (by decide)

/-- A truncated text and its note have no run of opening brackets. -/
theorem noRun_body (text : Str) (truncated : Bool) :
    NoRun 3 60 (shortenRuns text ++ truncationNote truncated) := by
  have hbody : NoRun 3 60 (shortenRuns text) := noRun_shortenRuns (by decide) text
  cases truncated with
  | false => simpa [truncationNote] using hbody
  | true =>
      obtain ⟨t, hnote⟩ : ∃ t, truncationNote true = 10 :: t := ⟨_, rfl⟩
      have hnone : (60 : CodePoint) ∉ truncationNote true := by decide
      rw [hnote] at hnone ⊢
      refine (noRun_append_cons_iff (by decide)).mpr ⟨hbody, ?_⟩
      exact noRun_of_not_mem (by decide) fun h => hnone (List.mem_cons_of_mem 10 h)

end

/-- A text of four lines: the second and the last start with three opening brackets and have no
others, the first has none, and the third, which may be many lines itself, has no run of three.
A pattern that starts with three opening brackets, and has no other and no line feed, occurs only
where the second line or the last one starts. -/
theorem occurrence_lines {first second third last p a' b' : Str}
    (hfirst : (60 : CodePoint) ∉ first) (hsecond : second.head? = some 60)
    (hsecondCount : second.count 60 = 3) (hthird : NoRun 3 60 third)
    (hlast : last.head? = some 60) (hlastCount : last.count 60 = 3)
    (hrun : List.replicate 3 60 <+: p) (hcount : p.count 60 = 3) (hfeed : (10 : CodePoint) ∉ p)
    (h : first ++ 10 :: (second ++ 10 :: (third ++ 10 :: last)) = a' ++ p ++ b') :
    (a' = first ++ [10] ∧ p <+: second) ∨
      (a' = first ++ 10 :: (second ++ 10 :: (third ++ [10])) ∧ last = p ++ b') := by
  have hstart : ∀ {line w z : Str}, line.head? = some 60 → line.count 60 = 3 →
      line = w ++ p ++ z → w = [] := by
    intro line w z hhead hline heq
    have hends : line ++ [] = w ++ p ++ z := by rw [List.append_nil, heq]
    exact starts_of_count hends hhead List.not_mem_nil (by rw [hline, hcount])
  rcases occurrence_append_cons hfeed h with ⟨z, hz⟩ | ⟨w, rfl, hafter⟩
  · refine absurd ?_ hfirst
    rw [hz]
    have hmem : (60 : CodePoint) ∈ p := hrun.subset (by decide)
    exact List.mem_append_left z (List.mem_append_right a' hmem)
  rcases occurrence_append_cons hfeed hafter with ⟨z, hz⟩ | ⟨u, rfl, hbody⟩
  · have hw := hstart hsecond hsecondCount hz
    subst hw
    refine .inl ⟨rfl, z, ?_⟩
    rw [hz, List.nil_append]
  rcases occurrence_append_cons hfeed hbody with ⟨z, hz⟩ | ⟨v, rfl, hend⟩
  · refine absurd (hrun.isInfix.trans ?_) hthird
    exact ⟨u, z, hz.symm⟩
  · have hv := hstart hlast hlastCount hend
    subst hv
    exact .inr ⟨rfl, hend⟩

theorem opening_not_mem_preamble : (60 : CodePoint) ∉ preamble := by
  intro h
  have hall : preamble.all (· ≠ 60) = true := by decide +kernel
  have hne := List.all_eq_true.mp hall 60 h
  simp at hne

theorem occurrence_wrapUntrusted {doc : ExtractedDocument} {p a' b' : Str}
    (hname : ∀ c ∈ doc.filename, isFilenameChar c = true)
    (hrun : List.replicate 3 60 <+: p) (hcount : p.count 60 = 3) (hfeed : (10 : CodePoint) ∉ p)
    (h : wrapUntrusted doc = a' ++ p ++ b') :
    (a' = preamble ++ [10] ∧ p <+: openingLine doc.filename) ∨
      (a' = preamble ++ 10 :: (openingLine doc.filename ++ 10 ::
          (shortenRuns doc.text ++ truncationNote doc.truncated ++ [10])) ∧ endMarker = p ++ b') := by
  rw [wrapUntrusted_lines] at h
  have hline : (openingLine doc.filename).count 60 = 3 := by
    rw [openingLine, List.count_append, List.count_eq_zero_of_not_mem (opening_not_mem hname)]
    decide
  exact occurrence_lines opening_not_mem_preamble rfl hline (noRun_body doc.text doc.truncated)
    rfl (by decide) hrun hcount hfeed h

/-! ## The block -/

/-- One begin marker and one end marker, in this order, with the text between them and nothing
after the end marker. -/
structure Contained (text block : Str) : Prop where
  markers : ∃ before label shortened note,
    block = before ++ beginMarker ++ (label ++ shortened ++ note) ++ endMarker ∧
      RunsShortened text shortened ∧
      OnlyAfter before beginMarker block ∧
      OnlyAfter (before ++ beginMarker ++ (label ++ shortened ++ note)) endMarker block

/-- A document with the name of an upload stays inside its markers, and the business context is put
before the block. -/
theorem wrapUntrusted_contained (name : Option Str) (text : Str) (truncated : Bool)
    (businessContext : Str) :
    Contained text (wrapUntrusted ⟨safeFilename name, text, truncated⟩) ∧
      mergeBusinessContext businessContext ⟨safeFilename name, text, truncated⟩ =
        (if strip businessContext = [] then [] else strip businessContext ++ lit "\n\n") ++
          wrapUntrusted ⟨safeFilename name, text, truncated⟩ := by
  have hname : ∀ c ∈ safeFilename name, isFilenameChar c = true := fun c hc => mem_safeFilename hc
  have hfeed : lit "\n" = [10] := by decide
  have hclose : lit ">>>\n" = lit ">>>" ++ [10] := by decide
  constructor
  · refine ⟨preamble ++ [10], lit ": " ++ safeFilename name ++ lit ">>>\n", shortenRuns text,
      truncationNote truncated ++ [10], ?_, runsShortened_shortenRuns text, ?_, ?_⟩
    · simp only [wrapUntrusted, hfeed, List.append_assoc]
    · intro a' b' h
      rcases occurrence_wrapUntrusted hname (by decide) (by decide) (by decide) h with
        ⟨ha, -⟩ | ⟨-, htail⟩
      · exact ha
      · have hpre : beginMarker <+: endMarker := ⟨b', htail.symm⟩
        exact absurd hpre (by decide)
    · intro a' b' h
      rcases occurrence_wrapUntrusted hname (by decide) (by decide) (by decide) h with
        ⟨-, hpre⟩ | ⟨ha, -⟩
      · have hfour := List.prefix_iff_eq_take.mp hpre
        have hhead := congrArg (List.take 4) hfour
        rw [openingLine, List.take_take, List.take_append_of_le_length (by decide)] at hhead
        exact absurd hhead (by decide)
      · rw [ha]
        simp only [openingLine, hclose, List.append_assoc, List.cons_append, List.nil_append]
  · unfold mergeBusinessContext
    dsimp only
    split <;> simp only [List.nil_append]

end ScopeDocument

end AuditSwarm
