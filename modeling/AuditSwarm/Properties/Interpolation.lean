import AuditSwarm.Model.NativeCrew
import AuditSwarm.Model.System

/-!
# Templates are filled in one pass

What a template holds is fixed by its text: characters, and placeholders.  Filling it replaces each
placeholder by its value, and never looks into a value again.
-/

namespace AuditSwarm

open Python StrEnum

namespace NativeCrew

/-! ## The placeholders of a text -/

/-- A part of a template. -/
inductive Piece where
  | char (c : CodePoint)
  | slot (key : Str)

def Piece.source : Piece → Str
  | .char c => [c]
  | .slot key => openBrace :: (key ++ [closeBrace])

def sourceOf (pieces : List Piece) : Str := pieces.flatMap Piece.source

/-- A key a placeholder can have. -/
structure IsKey (key : Str) : Prop where
  start : ∃ c rest, key = c :: rest ∧ keyStart c = true
  chars : ∀ c ∈ key, keyChar c = true

/-- Parts a text is read as, from the left: a brace that stands for itself opens no placeholder. -/
structure ReadAs (s : Str) (pieces : List Piece) : Prop where
  source : sourceOf pieces = s
  keys : ∀ key, .slot key ∈ pieces → IsKey key
  plain : ∀ before after, pieces = before ++ .char openBrace :: after →
    ¬ ∃ key rest, IsKey key ∧ sourceOf after = key ++ closeBrace :: rest

theorem sourceOf_cons (p : Piece) (pieces : List Piece) :
    sourceOf (p :: pieces) = p.source ++ sourceOf pieces :=
  List.flatMap_cons

theorem takeWhile_key {key rest : Str} (h : IsKey key) :
    (key ++ closeBrace :: rest).takeWhile keyChar = key := by
  rw [List.takeWhile_append_of_pos h.chars, List.takeWhile_cons_of_neg (by decide),
    List.append_nil]

theorem dropWhile_key {key rest : Str} (h : IsKey key) :
    (key ++ closeBrace :: rest).dropWhile keyChar = closeBrace :: rest := by
  rw [List.dropWhile_append_of_pos h.chars, List.dropWhile_cons_of_neg (by decide)]

/-- A placeholder is matched exactly where a key and a closing brace stand. -/
theorem placeholder_eq_some_iff {s key rest : Str} :
    placeholder s = some (key, rest) ↔ IsKey key ∧ s = key ++ closeBrace :: rest := by
  constructor
  · intro h
    unfold placeholder at h
    split at h
    case h_1 c key' b rest' htake hdrop =>
      split at h
      case isTrue hb =>
        cases h
        constructor
        · constructor
          · exact ⟨c, key', rfl, hb.1⟩
          · intro d hd
            rw [← htake] at hd
            exact List.mem_takeWhile_imp hd
        · rw [← hb.2, ← htake, ← hdrop, List.takeWhile_append_dropWhile]
      case isFalse =>
        cases h
    case h_2 =>
      cases h
  · rintro ⟨hkey, rfl⟩
    rcases hkey.start with ⟨c, key', rfl, hc⟩
    unfold placeholder
    rw [takeWhile_key hkey, dropWhile_key hkey]
    simp only [hc, and_self, if_true]

theorem placeholder_eq_none_iff {s : Str} :
    placeholder s = none ↔ ¬ ∃ key rest, IsKey key ∧ s = key ++ closeBrace :: rest := by
  cases h : placeholder s with
  | none =>
      simp only [true_iff]
      rintro ⟨key, rest, hkey⟩
      rw [placeholder_eq_some_iff.mpr hkey] at h
      cases h
  | some found =>
      simp only [reduceCtorEq, false_iff, not_not]
      exact ⟨found.1, found.2, placeholder_eq_some_iff.mp h⟩

/-! ## Reading a text -/

theorem readAs_nil : ReadAs [] [] where
  source := rfl
  keys := by
    intro key h
    cases h
  plain := by
    intro before after h
    cases before with
    | nil => cases h
    | cons p before => cases h

theorem ReadAs.slot {key s : Str} {pieces : List Piece} (hkey : IsKey key)
    (h : ReadAs s pieces) :
    ReadAs (openBrace :: (key ++ closeBrace :: s)) (.slot key :: pieces) where
  source := by
    rw [sourceOf_cons, h.source]
    simp only [Piece.source, List.cons_append, List.append_assoc, List.nil_append]
  keys := by
    intro key' hmem
    rcases List.mem_cons.mp hmem with heq | hmem
    · cases heq
      exact hkey
    · exact h.keys key' hmem
  plain := by
    intro before after hsplit
    cases before with
    | nil => cases hsplit
    | cons p before =>
        cases hsplit
        exact h.plain before after rfl

theorem ReadAs.char {c : CodePoint} {s : Str} {pieces : List Piece}
    (hplain : c = openBrace → placeholder s = none) (h : ReadAs s pieces) :
    ReadAs (c :: s) (.char c :: pieces) where
  source := by
    rw [sourceOf_cons, h.source]
    rfl
  keys := by
    intro key hmem
    rcases List.mem_cons.mp hmem with heq | hmem
    · cases heq
    · exact h.keys key hmem
  plain := by
    intro before after hsplit
    cases before with
    | nil =>
        cases hsplit
        rw [h.source]
        exact placeholder_eq_none_iff.mp (hplain rfl)
    | cons p before =>
        cases hsplit
        exact h.plain before after rfl

/-! ## Filling -/

variable (rt : Runtime) (inputs : Inputs)

def Piece.filled : Piece → Except Raised Str
  | .char c => .ok [c]
  | .slot key => replacement rt inputs key

def fill (pieces : List Piece) : Except Raised Str :=
  (pieces.mapM (Piece.filled rt inputs)).map List.flatten

theorem fill_cons (p : Piece) (pieces : List Piece) :
    fill rt inputs (p :: pieces) = (do
      let x ← p.filled rt inputs
      return x ++ (← fill rt inputs pieces)) := by
  unfold fill
  rw [List.mapM_cons]
  cases p.filled rt inputs with
  | error e => rfl
  | ok x =>
      cases pieces.mapM (Piece.filled rt inputs) with
      | error e => rfl
      | ok xs => rfl

/-- What a substitution yields is what the parts of the text become.  The parts are the same for
all inputs. -/
theorem substitute_readAs (n : Nat) (s : Str) (hn : s.length ≤ n) :
    ∃ pieces, ReadAs s pieces ∧
      ∀ rt inputs, substitute rt inputs n s = fill rt inputs pieces := by
  induction n generalizing s with
  | zero =>
      rw [List.length_eq_zero_iff.mp (Nat.le_zero.mp hn)]
      exact ⟨[], readAs_nil, fun _ _ => rfl⟩
  | succ n ih =>
      cases s with
      | nil => exact ⟨[], readAs_nil, fun _ _ => rfl⟩
      | cons c t =>
          rw [List.length_cons] at hn
          cases h : (if c = openBrace then placeholder t else none) with
          | some found =>
              rcases found with ⟨key, rest⟩
              by_cases hc : c = openBrace
              · rw [if_pos hc] at h
                rcases placeholder_eq_some_iff.mp h with ⟨hkey, ht⟩
                have hshort : rest.length ≤ n := by
                  rw [ht, List.length_append, List.length_cons] at hn
                  omega
                rcases ih rest hshort with ⟨pieces, hread, hfill⟩
                refine ⟨.slot key :: pieces, ?_, ?_⟩
                · rw [hc, ht]
                  exact hread.slot hkey
                · intro rt inputs
                  unfold substitute
                  rw [if_pos hc, h, fill_cons]
                  dsimp only
                  rw [hfill]
                  rfl
              · rw [if_neg hc] at h
                cases h
          | none =>
              rcases ih t (by omega) with ⟨pieces, hread, hfill⟩
              refine ⟨.char c :: pieces, ?_, ?_⟩
              · apply hread.char
                intro hc
                rw [if_pos hc] at h
                exact h
              · intro rt inputs
                unfold substitute
                rw [h, fill_cons]
                dsimp only
                rw [hfill]
                rfl

/-- The text of the key error for a placeholder without a value. -/
def missingKey (key : Str) : Raised :=
  ⟨lit "KeyError", rt.reprStr (lit "Template variable '" ++ key ++
    lit "' not found in inputs dictionary")⟩

/-- What a part becomes when its placeholder has a value. -/
def Piece.text : Piece → Str
  | .char c => [c]
  | .slot key => ((inputs.get? key).getD none).getD []

def Piece.bound : Piece → Prop
  | .char _ => True
  | .slot key => (inputs.get? key).isSome = true

theorem filled_bound {p : Piece} (h : p.bound inputs) :
    p.filled rt inputs = .ok (p.text inputs) := by
  cases p with
  | char c => rfl
  | slot key =>
      unfold Piece.bound at h
      unfold Piece.filled replacement Piece.text
      dsimp only at h ⊢
      cases hkey : inputs.get? key with
      | none =>
          rw [hkey] at h
          cases h
      | some val =>
          cases val with
          | none => rfl
          | some val => rfl

theorem filled_unbound {key : Str} (h : inputs.get? key = none) :
    (Piece.slot key).filled rt inputs = .error (missingKey rt key) := by
  unfold Piece.filled replacement
  dsimp only
  rw [h]
  rfl

theorem fill_bound {pieces : List Piece} (h : ∀ p ∈ pieces, p.bound inputs) :
    fill rt inputs pieces = .ok (pieces.flatMap (Piece.text inputs)) := by
  induction pieces with
  | nil => rfl
  | cons p pieces ih =>
      rw [fill_cons, filled_bound rt inputs (h p List.mem_cons_self), Except.ok_bind,
        ih (fun q hq => h q (List.mem_cons_of_mem p hq)), Except.ok_bind, List.flatMap_cons]
      rfl

theorem fill_unbound {key : Str} {before after : List Piece}
    (hbefore : ∀ p ∈ before, p.bound inputs) (hkey : inputs.get? key = none) :
    fill rt inputs (before ++ .slot key :: after) = .error (missingKey rt key) := by
  induction before with
  | nil =>
      rw [List.nil_append, fill_cons, filled_unbound rt inputs hkey]
      rfl
  | cons p before ih =>
      rw [List.cons_append, fill_cons, filled_bound rt inputs (hbefore p List.mem_cons_self),
        Except.ok_bind, ih (fun q hq => hbefore q (List.mem_cons_of_mem p hq))]
      rfl

/-! ## A text is read in one way only -/

theorem Piece.source_ne_nil (p : Piece) : p.source ≠ [] := by
  cases p with
  | char c => exact List.cons_ne_nil c []
  | slot key => exact List.cons_ne_nil openBrace _

theorem ReadAs.tail {p : Piece} {s : Str} {pieces : List Piece} (h : ReadAs s (p :: pieces)) :
    ReadAs (sourceOf pieces) pieces where
  source := rfl
  keys := fun key hmem => h.keys key (List.mem_cons_of_mem p hmem)
  plain := by
    intro before after hsplit
    apply h.plain (p :: before) after
    rw [hsplit, List.cons_append]

theorem key_unique {key key' rest rest' : Str} (hkey : IsKey key) (hkey' : IsKey key')
    (h : key ++ closeBrace :: rest = key' ++ closeBrace :: rest') : key = key' ∧ rest = rest' := by
  have hsame : key = key' := by
    rw [← @takeWhile_key key rest hkey, h, takeWhile_key hkey']
  refine ⟨hsame, ?_⟩
  rw [hsame] at h
  exact (List.cons.inj (List.append_cancel_left h)).2

/-- A brace that stands for itself and one that opens a placeholder do not read one text. -/
theorem char_ne_slot {c : CodePoint} {key : Str} {pieces others : List Piece}
    (h : ReadAs (sourceOf (.char c :: pieces)) (.char c :: pieces)) (hkey : IsKey key) :
    sourceOf (.char c :: pieces) ≠ sourceOf (.slot key :: others) := by
  rw [sourceOf_cons, sourceOf_cons]
  intro heq
  simp only [Piece.source, List.cons_append, List.nil_append, List.append_assoc,
    List.cons.injEq] at heq
  rcases heq with ⟨rfl, hrest⟩
  exact h.plain [] pieces rfl ⟨key, sourceOf others, hkey, hrest⟩

theorem readAs_unique {pieces others : List Piece} (h : ReadAs (sourceOf pieces) pieces)
    (h' : ReadAs (sourceOf others) others) (hsame : sourceOf pieces = sourceOf others) :
    pieces = others := by
  induction pieces generalizing others with
  | nil =>
      cases others with
      | nil => rfl
      | cons q others =>
          rw [sourceOf_cons] at hsame
          exact absurd (List.append_eq_nil_iff.mp hsame.symm).1 q.source_ne_nil
  | cons p pieces ih =>
      cases others with
      | nil =>
          rw [sourceOf_cons] at hsame
          exact absurd (List.append_eq_nil_iff.mp hsame).1 p.source_ne_nil
      | cons q others =>
          cases p with
          | char c =>
              cases q with
              | char d =>
                  have hcons := List.cons.inj hsame
                  rw [hcons.1, ih h.tail h'.tail hcons.2]
              | slot key =>
                  exact absurd hsame (char_ne_slot h (h'.keys key List.mem_cons_self))
          | slot key =>
              have hkey := h.keys key List.mem_cons_self
              cases q with
              | char d => exact absurd hsame.symm (char_ne_slot h' hkey)
              | slot key' =>
                  rw [sourceOf_cons, sourceOf_cons] at hsame
                  simp only [Piece.source, List.cons_append, List.nil_append, List.append_assoc,
                    List.cons.injEq, true_and] at hsame
                  rcases key_unique hkey (h'.keys key' List.mem_cons_self) hsame with ⟨rfl, hrest⟩
                  rw [ih h.tail h'.tail hrest]

/-! ## What filling a template yields -/

/-- A template is read in one way, whatever the inputs: characters and placeholders.  With inputs,
every character stays and every placeholder becomes its value, unread; the first placeholder without
a value is the error.  Without inputs the template stays as it is. -/
theorem template_filled (template : Str) :
    ∃ pieces, ReadAs template pieces ∧ (∀ others, ReadAs template others → others = pieces) ∧
      ∀ (rt : Runtime) (inputs : Inputs),
        (inputs = [] → interpolateOnly rt (some template) inputs = .ok template) ∧
        (inputs ≠ [] → (∀ p ∈ pieces, p.bound inputs) →
          interpolateOnly rt (some template) inputs =
            .ok (pieces.flatMap (Piece.text inputs))) ∧
        (inputs ≠ [] → ∀ before key after, pieces = before ++ .slot key :: after →
          (∀ p ∈ before, p.bound inputs) → inputs.get? key = none →
          interpolateOnly rt (some template) inputs = .error (missingKey rt key)) := by
  rcases substitute_readAs template.length template le_rfl with ⟨pieces, hread, hfill⟩
  have hself : ReadAs (sourceOf pieces) pieces := by
    rw [hread.source]
    exact hread
  refine ⟨pieces, hread, ?_, ?_⟩
  · intro others hothers
    refine readAs_unique ?_ hself ?_
    · rw [hothers.source]
      exact hothers
    · rw [hothers.source, hread.source]
  · intro rt inputs
    unfold interpolateOnly
    refine ⟨?_, ?_, ?_⟩
    · intro hempty
      exact if_pos hempty
    · intro hsome hbound
      dsimp only
      rw [if_neg hsome, hfill, fill_bound rt inputs hbound]
    · intro hsome before key after hsplit hbefore hkey
      dsimp only
      rw [if_neg hsome, hfill, hsplit, fill_unbound rt inputs hbefore hkey]

/-- `{a}` with the value `{b}` becomes `{b}`, and `{b}` alone is an error. -/
theorem template_filled_once :
    interpolateOnly Sample.rt (some (openBrace :: lit "a" ++ [closeBrace]))
        [(lit "a", some (openBrace :: lit "b" ++ [closeBrace]))] =
      .ok (openBrace :: lit "b" ++ [closeBrace]) ∧
    interpolateOnly Sample.rt (some (openBrace :: lit "b" ++ [closeBrace]))
        [(lit "a", some (openBrace :: lit "b" ++ [closeBrace]))] =
      .error (missingKey Sample.rt (lit "b")) := by
  have hletter : ∀ c : CodePoint, keyStart c = true → IsKey [c] := by
    intro c hc
    refine ⟨⟨c, [], rfl, hc⟩, ?_⟩
    intro d hd
    rw [List.mem_singleton.mp hd]
    unfold keyChar
    rw [hc]
    rfl
  have hkey : ∀ key : Str, key = lit "a" ∨ key = lit "b" →
      ReadAs (openBrace :: key ++ [closeBrace]) [.slot key] := by
    rintro key (rfl | rfl)
    · exact readAs_nil.slot (hletter 97 (by decide))
    · exact readAs_nil.slot (hletter 98 (by decide))
  constructor
  · rcases template_filled (openBrace :: lit "a" ++ [closeBrace]) with ⟨pieces, -, hunique, hfill⟩
    rw [← hunique _ (hkey _ (.inl rfl))] at hfill
    refine ((hfill Sample.rt _).2.1 (List.cons_ne_nil _ _) ?_).trans rfl
    intro p hp
    cases List.mem_singleton.mp hp
    rfl
  · rcases template_filled (openBrace :: lit "b" ++ [closeBrace]) with ⟨pieces, -, hunique, hfill⟩
    rw [← hunique _ (hkey _ (.inr rfl))] at hfill
    refine (hfill Sample.rt _).2.2 (List.cons_ne_nil _ _) [] _ [] rfl ?_ rfl
    intro p hp
    cases hp

end NativeCrew

end AuditSwarm
