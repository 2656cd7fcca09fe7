import AuditSwarm.Findings.Grouping
import AuditSwarm.Python.Lines

/-!
# Cleaned fields

What a field of a scanner can be after `clean_field`: one line without a run of three angle
brackets, whatever the scanner reported.
-/

namespace AuditSwarm

open Python

namespace Findings

/-- Changing the case of a text replaces characters by plain ones, and so does `repr`, between
plain quotes. -/
structure PlainRendering (rt : Runtime) (flib : FindingsLibrary) : Prop where
  lower : ∀ s, Rewritten s (rt.lower s)
  upper : ∀ s, Rewritten s (flib.upper s)
  repr : ∀ s, ∃ opening body closing, rt.reprStr s = opening ++ (body ++ closing) ∧
    Plain opening ∧ Plain closing ∧ Rewritten s body

variable {rt : Runtime} {flib : FindingsLibrary}

/-! ## Texts -/

theorem inert_cleanText (text : Str) (limit : Nat) : Inert (cleanText flib text limit) := by
  rw [cleanText]
  refine Inert.of_within ?_ (List.take_prefix _ _).isInfix
  apply inert_join (by decide) (by decide)
  intro w hw
  constructor
  · intro c hc
    have hspace := (word_of_mem_words hw).2 c hc
    cases hbreak : isLineBreak c with
    | false => rfl
    | true => rw [isSpace_of_isLineBreak hbreak] at hspace; cases hspace
  · exact (noRun_shortenRuns (by decide) _).of_within (words_within hw)
  · exact (noRun_shortenRuns (by decide) _).of_within (words_within hw)

theorem inert_cleanField (value : Json) (limit : Nat) : Inert (cleanField rt flib value limit) :=
  inert_cleanText _ _

theorem inert_cleanOptional (value : Option Json) (limit : Nat) :
    ∀ s ∈ cleanOptional rt flib value limit, Inert s := by
  intro s hs
  unfold cleanOptional at hs
  split at hs
  · cases hs
  · cases hs
  · cases hs
  · split at hs
    · cases hs
    · obtain rfl := Option.some.inj hs
      exact inert_cleanField _ _

theorem inert_orDefault {value : Option Str} {text : Str} (h : ∀ s ∈ value, Inert s)
    (ht : Inert text) : Inert (orDefault value text) := by
  unfold orDefault
  split
  · exact ht
  · cases value with
    | none => exact inert_nil
    | some s => exact h s rfl

/-- A list of cleaned fields is rendered as one line of text. -/
theorem inert_listText (hrt : PlainRendering rt flib) {xs : List Str} (h : ∀ x ∈ xs, Inert x) :
    Inert (listText rt xs) := by
  have hitems : Inert (join (lit ", ") (xs.map rt.reprStr)) := by
    apply inert_join (by decide) (by decide)
    intro p hp
    obtain ⟨x, hx, rfl⟩ := List.mem_map.mp hp
    obtain ⟨opening, body, closing, hrepr, hopening, hclosing, hbody⟩ := hrt.repr x
    rw [hrepr]
    exact inert_plain_append hopening (inert_append_plain (hbody.inert (h x hx)) hclosing)
  rw [listText]
  exact inert_append_plain (inert_plain_append (by decide) hitems) (by decide)

theorem plain_honestyNote : Plain honestyNote := by decide +kernel

/-! ## Counts -/

theorem mem_of_mem_statusCounts {statuses : List Str} {kv : Str × Nat}
    (h : kv ∈ statusCounts statuses) : kv.1 ∈ statuses := by
  induction statuses using List.reverseRecOn with
  | nil => cases h
  | append_singleton statuses s ih =>
      rw [statusCounts_append_singleton] at h
      rcases Dict.mem_of_mem_set h with rfl | h
      · exact List.mem_append_right statuses List.mem_cons_self
      · exact List.mem_append_left [s] (ih h)

def CleanCounts (counts : Dict Str Nat) : Prop := ∀ kv ∈ counts, Inert kv.1

theorem cleanCounts_statusCounts {statuses : List Str} (h : ∀ s ∈ statuses, Inert s) :
    CleanCounts (statusCounts statuses) :=
  fun _ hkv => h _ (mem_of_mem_statusCounts hkv)

theorem inert_countsText {counts : Dict Str Nat} (h : CleanCounts counts) :
    Inert (countsText counts) := by
  apply inert_join (by decide) (by decide)
  intro p hp
  obtain ⟨kv, hkv, rfl⟩ := List.mem_map.mp hp
  have hmem : kv ∈ counts := (List.perm_insertionSort _ _).mem_iff.mp hkv
  rw [List.append_assoc]
  exact inert_plain_append (plain_decimal _) (inert_plain_append (by decide) (h kv hmem))

theorem continues_skipped (errors : Nat) :
    Continues (if errors = 0 then [] else
      lit ", " ++ (decimal errors ++ lit " unparseable record(s) skipped")) := by
  split
  · exact continues_nil
  · exact continues_append (by decide) (by decide)
      (inert_plain_append (plain_decimal _) (inert_of_plain (by decide)))

/-- `f" (+{n} more resource(s))"`, or nothing, before the next part of a line -/
theorem continues_extraResources (n : Nat) {l t : Str} (hne : l ≠ []) (hl : Plain l)
    (ht : Inert t) :
    Continues ((if n = 0 then [] else lit " (+" ++ (decimal n ++ lit " more resource(s))")) ++
      (l ++ t)) := by
  split
  · rw [List.nil_append]
    exact continues_append hne hl ht
  · rw [List.append_assoc, List.append_assoc]
    exact continues_append (by decide) (by decide) (inert_plain_append (plain_decimal _)
      (inert_plain_append (by decide) (inert_plain_append hl ht)))

end Findings

end AuditSwarm
