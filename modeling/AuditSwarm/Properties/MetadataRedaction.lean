import AuditSwarm.Properties.RedactionFinal
import AuditSwarm.Python.Indented
import AuditSwarm.Vault.Registration

/-!
# Account IDs in stored metadata

`_sanitize_metadata` redacts the strings of metadata and leaves its keys and numbers as they are.
Between two pieces of the serialised metadata there is a character that an account ID neither
contains nor touches, so that what the pattern finds there lies within one key, number or string.
-/

namespace AuditSwarm

open Python Json

namespace Evidence

variable {lib : VaultLibrary}

/-! ## Account IDs in parts of a text -/

theorem digit_of_ascii {c : CodePoint} (hascii : c.val < 128) (hdigit : isDigit c = false) :
    lib.digit c = false := by
  rw [lib.digit_ascii c hascii, hdigit]

theorem HasAccountId.cons {before : Bool} {c : CodePoint} {t : Str}
    (h : HasAccountId lib (lib.digit c) t) : HasAccountId lib before (c :: t) := by
  rcases h with ⟨a, m, b, rfl, hm, hbefore, hafter⟩
  refine ⟨c :: a, m, b, rfl, hm, ?_, hafter⟩
  rw [endsInDigit_cons]
  exact hbefore

theorem hasAccountId_of_start {t : Str} (h : StartsWithAccountId lib t) :
    HasAccountId lib false t := by
  rcases h with ⟨m, rest, rfl, hm, hrest⟩
  exact ⟨[], m, rest, rfl, hm, rfl, hrest⟩

/-- A character no account ID contains or touches. -/
structure Boundary (lib : VaultLibrary) (c : CodePoint) : Prop where
  digit : lib.digit c = false
  hyphen : c ≠ 45

theorem boundary_of_ascii {c : CodePoint}
    (h : (c.val < 128 && !isDigit c && c ≠ 45) = true) : Boundary lib c := by
  simp only [Bool.and_eq_true, decide_eq_true_eq, Bool.not_eq_true'] at h
  exact ⟨digit_of_ascii h.1.1 h.1.2, h.2⟩

def digitless (w : Str) : Bool := !w.isEmpty && w.all fun c => c.val < 128 && !isDigit c && c ≠ 45

theorem boundary_of_digitless (lib : VaultLibrary) {w : Str} (hw : digitless w = true) :
    w ≠ [] ∧ ∀ c ∈ w, Boundary lib c := by
  rw [digitless, Bool.and_eq_true, Bool.not_eq_true', List.isEmpty_eq_false_iff,
    List.all_eq_true] at hw
  exact ⟨hw.1, fun c hc => boundary_of_ascii (hw.2 c hc)⟩

theorem not_boundary_of_mem {m : Str} (hm : IsAccountId lib m) {c : CodePoint} (hc : c ∈ m) :
    ¬ Boundary lib c := by
  intro h
  rcases char_of_isAccountId hm hc with hdigit | hhyphen
  · rw [h.digit] at hdigit
    cases hdigit
  · exact h.hyphen (of_decide_eq_true hhyphen)

theorem hasAccountId_split {before : Bool} {s t : Str} {d : CodePoint} (hd : Boundary lib d)
    (h : HasAccountId lib before (s ++ d :: t)) :
    HasAccountId lib before s ∨ HasAccountId lib false t := by
  induction s generalizing before with
  | nil =>
      rw [List.nil_append] at h
      rcases hasAccountId_cons h with hstart | hrest
      · have hdigit := startsWithDigit_of_startsWithAccountId hstart.2
        rw [startsWithDigit, List.head?_cons, Option.any_some, hd.digit] at hdigit
        cases hdigit
      · rw [hd.digit] at hrest
        exact .inr hrest
  | cons c s ih =>
      rw [List.cons_append] at h
      rcases hasAccountId_cons h with ⟨hbefore, m, rest, heq, hm, hrest⟩ | hrest
      · -- the account ID at the start ends before the boundary
        rw [← List.cons_append] at heq
        rcases List.append_eq_append_iff.mp heq with ⟨a', hm', hrest'⟩ | ⟨c', hs, hrest'⟩
        · cases a' with
          | nil =>
              rw [List.append_nil] at hm'
              refine .inl ?_
              rw [hbefore, ← hm']
              exact hasAccountId_of_start ⟨m, [], (List.append_nil m).symm, hm, rfl⟩
          | cons e a' =>
              have he : d = e := (List.cons.inj hrest').1
              exact absurd hd (not_boundary_of_mem hm (by rw [hm', he]; simp))
        · refine .inl ?_
          rw [hbefore, hs]
          refine hasAccountId_of_start ⟨m, c', rfl, hm, ?_⟩
          cases c' with
          | nil => rfl
          | cons e c' =>
              rw [hrest'] at hrest
              exact hrest
      · rcases ih hrest with hs | ht
        · exact .inl hs.cons
        · exact .inr ht

/-! ## Literals -/

/-- Writing each character as itself, or as characters no account ID touches. -/
structure KeepsDigits (lib : VaultLibrary) (write : CodePoint → Str) (c : CodePoint) : Prop where
  kept : ¬ Boundary lib c → write c = [c]
  apart : Boundary lib c → write c ≠ [] ∧ ∀ d ∈ write c, Boundary lib d

theorem KeepsDigits.start {write : CodePoint → Str} {m rest s : Str}
    (hwrite : ∀ c ∈ s, KeepsDigits lib write c) (hm : ∀ c ∈ m, ¬ Boundary lib c)
    (h : s.flatMap write = m ++ rest) : ∃ s', s = m ++ s' ∧ s'.flatMap write = rest := by
  induction m generalizing s with
  | nil => exact ⟨s, rfl, h⟩
  | cons c m ih =>
      cases s with
      | nil => cases h
      | cons d s =>
          have hd := hwrite d List.mem_cons_self
          rw [List.flatMap_cons] at h
          by_cases hbound : Boundary lib d
          · rcases hd.apart hbound with ⟨hne, hall⟩
            cases hw : write d with
            | nil => exact absurd hw hne
            | cons e w =>
                rw [hw, List.cons_append] at h
                have he : e = c := (List.cons.inj h).1
                have hmem : e ∈ write d := by
                  rw [hw]
                  exact List.mem_cons_self
                exact absurd (he ▸ hall e hmem) (hm c List.mem_cons_self)
          · rw [hd.kept hbound, List.singleton_append] at h
            have hparts := List.cons.inj h
            rcases ih (fun e he => hwrite e (List.mem_cons_of_mem d he))
              (fun e he => hm e (List.mem_cons_of_mem c he)) hparts.2 with ⟨s', hs, hrest⟩
            exact ⟨s', by rw [hparts.1, hs, List.cons_append], hrest⟩

/-- What the pattern finds in the characters written it finds in the text. -/
theorem KeepsDigits.hasAccountId {write : CodePoint → Str} {before : Bool} {s : Str}
    (hwrite : ∀ c ∈ s, KeepsDigits lib write c)
    (h : HasAccountId lib before (s.flatMap write)) : HasAccountId lib before s := by
  induction s generalizing before with
  | nil => exact h
  | cons c s ih =>
      have hs : ∀ d ∈ s, KeepsDigits lib write d := fun d hd =>
        hwrite d (List.mem_cons_of_mem c hd)
      by_cases hbound : Boundary lib c
      · rcases (hwrite c List.mem_cons_self).apart hbound with ⟨hne, hall⟩
        rw [List.flatMap_cons] at h
        have hrest := hasAccountId_of_append hne (fun d hd => (hall d hd).digit) h
        refine HasAccountId.cons ?_
        rw [hbound.digit]
        exact ih hs hrest
      · have hcons := (hwrite c List.mem_cons_self).kept hbound
        have hflat : (c :: s).flatMap write = c :: s.flatMap write := by
          rw [List.flatMap_cons, hcons, List.singleton_append]
        rw [hflat] at h
        rcases hasAccountId_cons h with ⟨hbefore, m, rest, heq, hm, hrest⟩ | hrest
        · rw [← hflat] at heq
          rcases KeepsDigits.start hwrite (fun d hd => not_boundary_of_mem hm hd) heq with
            ⟨s', hs', hwritten⟩
          rw [hbefore, hs']
          refine hasAccountId_of_start ⟨m, s', rfl, hm, ?_⟩
          cases s' with
          | nil => rfl
          | cons d s' =>
              by_cases hd : Boundary lib d
              · exact hd.digit
              · have hkeep := (hwrite d (by rw [hs']; simp)).kept hd
                rw [List.flatMap_cons, hkeep, List.singleton_append] at hwritten
                rw [← hwritten] at hrest
                exact hrest
        · exact (ih hs hrest).cons

theorem keepsDigits_escapeAscii {c : CodePoint} (h : needsUnicodeEscape c = false) :
    KeepsDigits lib escapeAscii c := by
  rcases escapeAscii_cases h with ⟨hself, -⟩ | ⟨hdigit, hhyphen, hascii, hmem⟩
  · refine ⟨fun _ => hself, ?_⟩
    intro hbound
    rw [hself]
    refine ⟨List.cons_ne_nil _ _, ?_⟩
    intro d hd
    rw [List.mem_singleton.mp hd]
    exact hbound
  · refine ⟨fun hbound => absurd ⟨digit_of_ascii hascii hdigit, hhyphen⟩ hbound, ?_⟩
    intro _
    have hshort : ([lit "\\\"", lit "\\\\", lit "\\n", lit "\\r", lit "\\t", lit "\\b",
        lit "\\f"].all digitless) = true := by decide +kernel
    exact boundary_of_digitless lib (List.all_eq_true.mp hshort _ hmem)

/-- A literal without `\u` escapes shows no account ID that the text has not. -/
theorem hasAccountId_of_literal {s : Str} (hs : ∀ c ∈ s, needsUnicodeEscape c = false)
    (h : HasAccountId lib false (literal s)) : HasAccountId lib false s := by
  have hquote : Boundary lib 34 := boundary_of_ascii (by decide)
  rw [literal] at h
  have hbody : HasAccountId lib false (literalBody s ++ [34]) :=
    hasAccountId_of_append (l := [34]) (List.cons_ne_nil _ _)
      (fun c hc => by rw [List.mem_singleton.mp hc]; exact hquote.digit) h
  rcases hasAccountId_split hquote hbody with hin | hnil
  · exact KeepsDigits.hasAccountId (fun c hc => keepsDigits_escapeAscii (hs c hc)) hin
  · exact absurd hnil (not_hasAccountId_nil false)

/-! ## Serialised values -/

/-- A text that an account ID before it ends at. -/
def Closes (lib : VaultLibrary) (t : Str) : Prop := ∀ d t', t = d :: t' → Boundary lib d

def Matched (lib : VaultLibrary) (pieces : List Atom) : Prop :=
  ∃ a ∈ pieces, HasAccountId lib false a.text

@[simp] theorem not_matched_nil : ¬ Matched lib [] := by
  simp [Matched]

@[simp] theorem matched_cons {a : Atom} {p : List Atom} :
    Matched lib (a :: p) ↔ HasAccountId lib false a.text ∨ Matched lib p := by
  simp [Matched]

@[simp] theorem matched_append {p q : List Atom} :
    Matched lib (p ++ q) ↔ Matched lib p ∨ Matched lib q := by
  simp only [Matched, List.mem_append, or_and_right, exists_or]

/-- What follows a text without starting in a digit takes no account ID from it. -/
theorem HasAccountId.append {before : Bool} {w t : Str} (ht : Closes lib t)
    (h : HasAccountId lib before w) : HasAccountId lib before (w ++ t) := by
  rcases h with ⟨a, m, b, rfl, hm, hbefore, hafter⟩
  refine ⟨a, m, b ++ t, by simp, hm, hbefore, ?_⟩
  cases b with
  | cons d b => exact hafter
  | nil =>
      cases t with
      | nil => rfl
      | cons d t => exact (ht d t rfl).digit

/-- No account ID starts at a boundary, so what stands before it does not matter. -/
theorem HasAccountId.after {before : Bool} {w t : Str} (ht : Closes lib t)
    (h : HasAccountId lib false t) : HasAccountId lib before (w ++ t) := by
  induction w generalizing before with
  | cons c w ih => exact HasAccountId.cons ih
  | nil =>
      cases t with
      | nil => exact absurd h (not_hasAccountId_nil false)
      | cons d t =>
          rcases hasAccountId_cons h with hstart | hrest
          · have hdigit := startsWithDigit_of_startsWithAccountId hstart.2
            rw [startsWithDigit, List.head?_cons, Option.any_some, (ht d t rfl).digit] at hdigit
            cases hdigit
          · exact hrest.cons

theorem hasAccountId_piece {w t : Str} (ht : Closes lib t) :
    HasAccountId lib false (w ++ t) ↔ HasAccountId lib false w ∨ HasAccountId lib false t := by
  constructor
  · intro h
    cases t with
    | nil =>
        rw [List.append_nil] at h
        exact .inl h
    | cons d t =>
        rcases hasAccountId_split (ht d t rfl) h with hw | hrest
        · exact .inl hw
        · refine .inr (HasAccountId.cons ?_)
          rw [(ht d t rfl).digit]
          exact hrest
  · intro h
    rcases h with hw | hrest
    · exact hw.append ht
    · exact hrest.after ht

/-- Text without digits and hyphens has no part in an account ID. -/
theorem hasAccountId_after {w t : Str} (hw : digitless w = true) :
    HasAccountId lib false (w ++ t) ↔ HasAccountId lib false t := by
  rcases boundary_of_digitless lib hw with ⟨hne, hall⟩
  constructor
  · exact hasAccountId_of_append hne fun c hc => (hall c hc).digit
  · intro h
    clear hne hw
    induction w with
    | nil => exact h
    | cons c w ih =>
        refine HasAccountId.cons ?_
        rw [(hall c List.mem_cons_self).digit]
        exact ih fun d hd => hall d (List.mem_cons_of_mem c hd)

theorem closes_of_digitless {w t : Str} (hw : digitless w = true) : Closes lib (w ++ t) := by
  intro d t' heq
  rcases boundary_of_digitless lib hw with ⟨hne, hall⟩
  cases w with
  | nil => exact absurd rfl hne
  | cons c w =>
      have hd : c = d := (List.cons.inj heq).1
      rw [← hd]
      exact hall c List.mem_cons_self

theorem digitless_cons_newline {c : CodePoint} (level : Nat) (hc : digitless [c] = true) :
    digitless (c :: newline level) = true := by
  have hspace : ∀ d ∈ List.replicate (2 * level) (32 : CodePoint),
      (d.val < 128 && !isDigit d && d ≠ 45) = true := by
    intro d hd
    rw [List.eq_of_mem_replicate hd]
    decide
  have hone : (c.val < 128 && !isDigit c && c ≠ 45) = true := by simpa [digitless] using hc
  rw [digitless, newline, List.all_cons, List.all_cons, List.all_eq_true.mpr hspace, hone]
  rfl

theorem digitless_newline (level : Nat) : digitless (newline level) = true := by
  have hspace : ∀ d ∈ List.replicate (2 * level) (32 : CodePoint),
      (d.val < 128 && !isDigit d && d ≠ 45) = true := by
    intro d hd
    rw [List.eq_of_mem_replicate hd]
    decide
  rw [digitless, newline, List.all_cons, List.all_eq_true.mpr hspace]
  rfl

theorem digitless_close (level : Nat) {c : CodePoint} (hc : digitless [c] = true) :
    digitless (newline level ++ [c]) = true := by
  have hnewline := digitless_newline level
  rw [digitless, Bool.and_eq_true] at hnewline hc
  rw [digitless, List.all_append, hnewline.2, hc.2]
  rfl

theorem closes_indentedElems (level : Nat) (xs : List Json) {t : Str} (ht : Closes lib t) :
    Closes lib (indentedElems level xs ++ t) := by
  cases xs with
  | nil => exact ht
  | cons x xs =>
      rw [indentedElems]
      exact closes_of_digitless (w := [44]) (by decide)

theorem closes_indentedMembers (level : Nat) (kvs : List (Str × Json)) {t : Str}
    (ht : Closes lib t) : Closes lib (indentedMembers level kvs ++ t) := by
  cases kvs with
  | nil => exact ht
  | cons kv kvs =>
      rw [indentedMembers]
      exact closes_of_digitless (w := [44]) (by decide)

theorem hasAccountId_member {k : Str} {t : Str} :
    HasAccountId lib false (literal k ++ ([58, 32] ++ t)) ↔
      HasAccountId lib false (Atom.key k).text ∨ HasAccountId lib false t := by
  rw [hasAccountId_piece (closes_of_digitless (by decide)), hasAccountId_after (by decide)]
  rfl

mutual

/-- An account ID of the text of a value stands in one of its pieces, and each of them shows. -/
theorem hasAccountId_indented (level : Nat) (j : Json) {t : Str} (ht : Closes lib t) :
    HasAccountId lib false (indented level j ++ t) ↔
      Matched lib (atoms j) ∨ HasAccountId lib false t := by
  cases j with
  | null =>
      rw [indented, hasAccountId_after (by decide +kernel), atoms]
      simp
  | bool b =>
      cases b with
      | true =>
          rw [indented, hasAccountId_after (by decide +kernel), atoms]
          simp
      | false =>
          rw [indented, hasAccountId_after (by decide +kernel), atoms]
          simp
  | int n =>
      rw [indented, hasAccountId_piece ht, atoms]
      simp [Atom.text]
  | float r =>
      rw [indented, hasAccountId_piece ht, atoms]
      simp [Atom.text]
  | str s =>
      rw [indented, hasAccountId_piece ht, atoms]
      simp [Atom.text]
  | arr xs =>
      cases xs with
      | nil =>
          rw [indented, hasAccountId_after (by decide +kernel), atoms, atomsElems]
          simp
      | cons x xs =>
          have hclose : digitless (newline level ++ [93]) = true := digitless_close level (by decide)
          have htext : indented level (.arr (x :: xs)) ++ t =
              (91 :: newline (level + 1)) ++ (indented (level + 1) x ++
                (indentedElems (level + 1) xs ++ ((newline level ++ [93]) ++ t))) := by
            simp [indented]
          have hend : Closes lib ((newline level ++ [93]) ++ t) := closes_of_digitless hclose
          rw [htext, hasAccountId_after (digitless_cons_newline (level + 1) (by decide)),
            hasAccountId_indented (level + 1) x (closes_indentedElems (level + 1) xs hend),
            hasAccountId_indentedElems (level + 1) xs hend, hasAccountId_after hclose, atoms,
            atomsElems, matched_append, or_assoc]
  | obj kvs =>
      cases kvs with
      | nil =>
          rw [indented, hasAccountId_after (by decide +kernel), atoms, atomsMembers]
          simp
      | cons kv kvs =>
          rcases kv with ⟨k, v⟩
          have hclose : digitless (newline level ++ [125]) = true :=
            digitless_close level (by decide)
          have htext : indented level (.obj ((k, v) :: kvs)) ++ t =
              (123 :: newline (level + 1)) ++ (literal k ++ ([58, 32] ++ (indented (level + 1) v ++
                (indentedMembers (level + 1) kvs ++ ((newline level ++ [125]) ++ t))))) := by
            simp [indented]
          have hend : Closes lib ((newline level ++ [125]) ++ t) := closes_of_digitless hclose
          rw [htext, hasAccountId_after (digitless_cons_newline (level + 1) (by decide)),
            hasAccountId_member,
            hasAccountId_indented (level + 1) v (closes_indentedMembers (level + 1) kvs hend),
            hasAccountId_indentedMembers (level + 1) kvs hend, hasAccountId_after hclose, atoms,
            atomsMembers, matched_cons, matched_append, or_assoc, or_assoc]

theorem hasAccountId_indentedElems (level : Nat) (xs : List Json) {t : Str} (ht : Closes lib t) :
    HasAccountId lib false (indentedElems level xs ++ t) ↔
      Matched lib (atomsElems xs) ∨ HasAccountId lib false t := by
  cases xs with
  | nil =>
      rw [indentedElems, atomsElems, List.nil_append]
      simp
  | cons x xs =>
      have htext : indentedElems level (x :: xs) ++ t =
          (44 :: newline level) ++ (indented level x ++ (indentedElems level xs ++ t)) := by
        simp [indentedElems]
      rw [htext, hasAccountId_after (digitless_cons_newline level (by decide)),
        hasAccountId_indented level x (closes_indentedElems level xs ht),
        hasAccountId_indentedElems level xs ht, atomsElems, matched_append, or_assoc]

theorem hasAccountId_indentedMembers (level : Nat) (kvs : List (Str × Json)) {t : Str}
    (ht : Closes lib t) :
    HasAccountId lib false (indentedMembers level kvs ++ t) ↔
      Matched lib (atomsMembers kvs) ∨ HasAccountId lib false t := by
  cases kvs with
  | nil =>
      rw [indentedMembers, atomsMembers, List.nil_append]
      simp
  | cons kv kvs =>
      rcases kv with ⟨k, v⟩
      have htext : indentedMembers level ((k, v) :: kvs) ++ t =
          (44 :: newline level) ++ (literal k ++ ([58, 32] ++ (indented level v ++
            (indentedMembers level kvs ++ t)))) := by
        simp [indentedMembers]
      rw [htext, hasAccountId_after (digitless_cons_newline level (by decide)),
        hasAccountId_member,
        hasAccountId_indented level v (closes_indentedMembers level kvs ht),
        hasAccountId_indentedMembers level kvs ht, atomsMembers, matched_cons, matched_append,
        or_assoc, or_assoc]

end

/-! ## Sanitised metadata -/

def redactAtom (lib : VaultLibrary) : Atom → Atom
  | .key k => .key k
  | .number text => .number text
  | .string s => .string (redactAccountIds lib s)

mutual

theorem atoms_sanitizeMetadata (j : Json) :
    atoms (sanitizeMetadata lib j) = (atoms j).map (redactAtom lib) := by
  cases j with
  | arr xs =>
      rw [sanitizeMetadata, atoms, atoms]
      exact atomsElems_sanitizeElems xs
  | obj kvs =>
      rw [sanitizeMetadata, atoms, atoms]
      exact atomsMembers_sanitizeMembers kvs
  | str s => rfl
  | null => rfl
  | bool b => rfl
  | int n => rfl
  | float r => rfl

theorem atomsElems_sanitizeElems (xs : List Json) :
    atomsElems (sanitizeElems lib xs) = (atomsElems xs).map (redactAtom lib) := by
  cases xs with
  | nil => rfl
  | cons x xs =>
      rw [sanitizeElems, atomsElems, atomsElems, List.map_append, atoms_sanitizeMetadata x,
        atomsElems_sanitizeElems xs]

theorem atomsMembers_sanitizeMembers (kvs : List (Str × Json)) :
    atomsMembers (sanitizeMembers lib kvs) = (atomsMembers kvs).map (redactAtom lib) := by
  cases kvs with
  | nil => rfl
  | cons kv kvs =>
      rcases kv with ⟨k, v⟩
      rw [sanitizeMembers, atomsMembers, atomsMembers, List.map_cons, List.map_append,
        atoms_sanitizeMetadata v, atomsMembers_sanitizeMembers kvs]
      rfl

end

/-- What is stored of the metadata beside the session ID, which takes the place of a value under its
key. -/
def keptMetadata (metadata : Option (Dict Str Json)) (sessionId : Option Str) : Dict Str Json :=
  match sessionId.filter (· ≠ []) with
  | none => metadata.getD []
  | some _ => (metadata.getD []).set (lit "session_id") .null

/-- A piece of metadata in which an account ID stays: a key and a number are stored as they are, and
a redacted string can show one only where a `\u` escape of `json.dump` meets its digits. -/
def KeepsAccountId (lib : VaultLibrary) : Atom → Prop
  | .key k => HasAccountId lib false (literal k)
  | .number text => HasAccountId lib false text
  | .string s => HasAccountId lib false (literal (redactAccountIds lib s))

theorem keepsAccountId_iff {a : Atom} :
    KeepsAccountId lib a ↔ HasAccountId lib false (redactAtom lib a).text := by
  cases a <;> rfl

theorem matched_sanitizeMembers {kvs : List (Str × Json)} :
    Matched lib (atomsMembers (sanitizeMembers lib kvs)) ↔
      ∃ a ∈ atomsMembers kvs, KeepsAccountId lib a := by
  rw [atomsMembers_sanitizeMembers, Matched]
  simp only [List.mem_map, exists_exists_and_eq_and, keepsAccountId_iff]

/-- The characters of a redacted text are its own or those of the mark. -/
theorem mem_of_mem_redaction {before : Bool} {t out : Str} (h : Redaction lib before t out)
    {c : CodePoint} (hc : c ∈ out) : c ∈ t ∨ c ∈ redacted := by
  induction h with
  | nil before => exact .inl hc
  | keep hkeep h ih =>
      rcases List.mem_cons.mp hc with rfl | hc
      · exact .inl List.mem_cons_self
      · rcases ih hc with ht | hmark
        · exact .inl (List.mem_cons_of_mem _ ht)
        · exact .inr hmark
  | redact hm ht h ih =>
      rcases List.mem_append.mp hc with hmark | hc
      · exact .inr hmark
      · rcases ih hc with ht | hmark
        · exact .inl (List.mem_append_right _ ht)
        · exact .inr hmark

theorem not_keepsAccountId_string {s : Str} (hs : s.all (!needsUnicodeEscape ·) = true) :
    ¬ KeepsAccountId lib (.string s) := by
  intro h
  have hredaction : Redaction lib false s (redactAccountIds lib s) :=
    redaction_redactFrom s.length false s le_rfl
  refine not_hasAccountId_of_redaction hredaction (.inl rfl) (hasAccountId_of_literal ?_ h)
  intro c hc
  rcases mem_of_mem_redaction hredaction hc with ht | hmark
  · simpa using List.all_eq_true.mp hs c ht
  · have hall : redacted.all (fun c => !needsUnicodeEscape c) = true := by decide
    simpa using List.all_eq_true.mp hall c hmark

/-! ## The session ID -/

theorem sanitizeMembers_set (kvs : Dict Str Json) (k : Str) :
    Dict.set (sanitizeMembers lib kvs) k .null = sanitizeMembers lib (kvs.set k .null) := by
  induction kvs with
  | nil => rfl
  | cons kv kvs ih =>
      rcases kv with ⟨k', v⟩
      rw [sanitizeMembers]
      unfold Dict.set
      by_cases hk : k' = k
      · rw [if_pos hk, if_pos hk]
        rfl
      · rw [if_neg hk, if_neg hk, sanitizeMembers, ih]

/-- A value that is stored under a key adds its pieces to those beside it. -/
theorem matched_set (kvs : Dict Str Json) (k : Str) (v : Json) :
    Matched lib (atomsMembers (kvs.set k v)) ↔
      Matched lib (atomsMembers (kvs.set k .null)) ∨ Matched lib (atoms v) := by
  induction kvs with
  | nil => simp [Dict.set, atomsMembers, atoms]
  | cons kv kvs ih =>
      rcases kv with ⟨k', v'⟩
      rw [Dict.set, Dict.set]
      by_cases hk : k' = k
      · rw [if_pos hk, if_pos hk]
        simp only [atomsMembers, atoms, matched_cons, matched_append, List.nil_append]
        tauto
      · rw [if_neg hk, if_neg hk]
        simp only [atomsMembers, matched_cons, matched_append, ih, or_assoc]

/-- An account ID of the stored metadata is one that the metadata keeps or the session ID has. -/
theorem matched_storedMetadata {metadata : Option (Dict Str Json)} {sessionId : Option Str}
    {stored : Dict Str Json} (h : storedMetadata lib metadata sessionId = some stored) :
    Matched lib (atomsMembers stored) ↔
      (∃ a ∈ atomsMembers (keptMetadata metadata sessionId), KeepsAccountId lib a) ∨
        ∃ sid, sessionId.filter (· ≠ []) = some sid ∧ HasAccountId lib false (literal sid) := by
  have hempty : ((metadata.filter (· ≠ [])).map (sanitizeMembers lib)).getD [] =
      sanitizeMembers lib (metadata.getD []) := by
    cases metadata with
    | none => rfl
    | some kvs =>
        cases kvs with
        | nil => rfl
        | cons kv kvs => rfl
  unfold storedMetadata at h
  dsimp only at h
  unfold keptMetadata
  cases hsid : sessionId.filter (· ≠ []) with
  | none =>
      rw [hsid] at h
      have hmap : (metadata.filter (· ≠ [])).map (sanitizeMembers lib) = some stored := h
      rw [hmap] at hempty
      dsimp only
      rw [← matched_sanitizeMembers, ← hempty]
      simp
  | some sid =>
      rw [hsid] at h
      have hset := Option.some.inj h
      dsimp only
      rw [← hset, hempty, matched_set, sanitizeMembers_set, matched_sanitizeMembers]
      simp [atoms, Atom.text]

/-! ## Registered metadata -/

variable {rt : Runtime} {environ : Environ}

theorem digestField_of_storePayload {reg : Registration} {payload : Str} {input : Json}
    {stored : StoredPayload} (h : storePayload rt lib environ reg payload input = .ok stored) :
    DigestField stored.digestField := by
  rcases Except.bind_eq_ok_iff.mp h with ⟨key, -, hkey⟩
  cases key with
  | none =>
      rcases Except.bind_eq_ok_iff.mp hkey with ⟨digest, -, hdigest⟩
      have heq := Except.ok.inj hdigest
      rw [← heq]
      exact .inl rfl
  | some key =>
      rcases Except.bind_eq_ok_iff.mp hkey with ⟨digest, -, hdigest⟩
      rcases Except.bind_eq_ok_iff.mp hdigest with ⟨data, -, hdata⟩
      have heq := Except.ok.inj hdata
      rw [← heq]
      exact .inr rfl

theorem metadata_of_registerEvidence {reg : Registration} {vault vault' : Vault}
    {rawPayload source : Str} {metadata : Option (Dict Str Json)} {sessionId : Option Str}
    {record : Dict Str Json}
    (h : registerEvidence rt lib environ reg vault rawPayload source metadata sessionId =
      .ok vault') (hcites : Cites vault' reg.vaultId record) :
    record.get? (lit "metadata") = (storedMetadata lib metadata sessionId).map Json.obj := by
  rcases Except.bind_eq_ok_iff.mp h with ⟨stored, hstored, hput⟩
  have hvault := Except.ok.inj hput
  have hwritten : Cites vault' reg.vaultId
      (evidenceRecord reg source stored (storedMetadata lib metadata sessionId)) := by
    rw [← hvault]
    exact ⟨_, Vault.get?_put_self vault _ _, rfl, rfl⟩
  rw [hcites.unique hwritten]
  exact get?_metadata reg source _ (digestField_of_storePayload hstored)

/-- Metadata and a session ID that keep no account ID. -/
structure CleanMetadata (lib : VaultLibrary) (metadata : Option (Dict Str Json))
    (sessionId : Option Str) : Prop where
  pieces : ∀ a ∈ atomsMembers (keptMetadata metadata sessionId), ¬ KeepsAccountId lib a
  session : ∀ sid, sessionId = some sid → ¬ HasAccountId lib false (literal sid)

theorem not_hasAccountId_literal_nil : ¬ HasAccountId lib false (literal []) := by
  intro h
  exact not_hasAccountId_nil false (hasAccountId_of_literal (by simp) h)

/-- The serialised metadata `register_evidence` stores shows an account ID exactly when a key, a
number or the session ID has one, or a string shows one across a `\u` escape: nothing comes of two
pieces put next to each other. -/
theorem registeredMetadata_clean_iff (rt : Runtime) (lib : VaultLibrary) (environ : Environ)
    (reg : Registration) (vault vault' : Vault) (rawPayload source : Str)
    (metadata : Option (Dict Str Json)) (sessionId : Option Str) (record stored : Dict Str Json)
    (h : registerEvidence rt lib environ reg vault rawPayload source metadata sessionId =
      .ok vault')
    (hcites : Cites vault' reg.vaultId record)
    (hmetadata : record.get? (lit "metadata") = some (.obj stored)) :
    ¬ HasAccountId lib false (indented 1 (.obj stored)) ↔
      CleanMetadata lib metadata sessionId := by
  have hstored : storedMetadata lib metadata sessionId = some stored := by
    rw [metadata_of_registerEvidence h hcites] at hmetadata
    rcases Option.map_eq_some_iff.mp hmetadata with ⟨kvs, hkvs, heq⟩
    rw [hkvs, Json.obj.inj heq]
  have hend : Closes lib [] := fun d t' heq => by cases heq
  have hwhole := hasAccountId_indented 1 (.obj stored) hend
  rw [List.append_nil, atoms, matched_storedMetadata hstored,
    or_iff_left (not_hasAccountId_nil false)] at hwhole
  rw [hwhole]
  constructor
  · intro hnone
    constructor
    · intro a ha hkeeps
      exact hnone (.inl ⟨a, ha, hkeeps⟩)
    · intro sid hsid hmatch
      by_cases hne : sid = []
      · rw [hne] at hmatch
        exact not_hasAccountId_literal_nil hmatch
      · exact hnone (.inr ⟨sid, by rw [hsid]; simp [hne], hmatch⟩)
  · intro hclean hmatch
    rcases hmatch with ⟨a, ha, hkeeps⟩ | ⟨sid, hsid, hmatch⟩
    · exact hclean.pieces a ha hkeeps
    · exact hclean.session sid (Option.filter_eq_some_iff.mp hsid).1 hmatch

namespace Sample

def metadataRegistration : Registration where
  vaultId := lit "6f1d2c3b-4a5e-4f60-9b8a-7c6d5e4f3a2b"
  isUuid_vaultId := by decide
  timestamp := lit "2026-01-01T00:00:00+00:00"
  tokenSeed := 0
  dump _ := []

def ownedMetadata : Dict Str Json :=
  [(lit "arn", .str (lit "arn:aws:iam::123456789012:root")),
    (lit "owner", .obj [(lit "id", .int 42)])]

def accountMetadata : Dict Str Json := [(lit "123456789012", .str (lit "prod"))]

end Sample

theorem registered_metadata {metadata : Dict Str Json} (hsigned : (Json.obj metadata).Signable)
    {stored : Dict Str Json}
    (hstored : storedMetadata sampleLibrary (some metadata) none = some stored) :
    ∃ (vault' : Vault) (record : Dict Str Json),
      registerEvidence (.ascii Runtime.shortDigest) sampleLibrary (fun _ => none)
        Sample.metadataRegistration .empty (lit "[]") (lit "iam:GetUser") (some metadata) none =
          .ok vault' ∧
      Cites vault' Sample.metadataRegistration.vaultId record ∧
      record.get? (lit "metadata") = some (.obj stored) := by
  have hsignable : ∀ m ∈ some metadata, (Json.obj m).Signable := by
    intro m hm
    rw [← Option.some.inj hm]
    exact hsigned
  rcases @registerEvidence_sealed (.ascii Runtime.shortDigest) sampleLibrary
    (fun _ => none) Sample.metadataRegistration .empty (lit "[]") (lit "iam:GetUser")
    (some metadata) none (by decide) hsignable (by simp) ⟨none, rfl⟩ with
    ⟨vault', record, hregister, hcites, -, hmetadata⟩
  rw [hstored, Option.map_some] at hmetadata
  exact ⟨vault', record, hregister, hcites, hmetadata⟩

theorem length_of_hasAccountId {before : Bool} {t : Str} (h : HasAccountId lib before t) :
    12 ≤ t.length := by
  rcases h with ⟨a, m, b, rfl, hm, -, -⟩
  have hlength : 12 ≤ m.length := by
    rcases hm with hbare | hgrouped
    · rw [length_of_passes hbare]
      exact le_rfl
    · rw [length_of_passes hgrouped]
      simp [grouped]
  simp only [List.length_append]
  omega

theorem not_keepsAccountId_key {k : Str} (hk : k.all (!needsUnicodeEscape ·) = true)
    (hlength : k.length < 12) : ¬ KeepsAccountId lib (.key k) := by
  intro h
  have htext := length_of_hasAccountId (hasAccountId_of_literal
    (fun c hc => by simpa using List.all_eq_true.mp hk c hc) h)
  omega

theorem cleanMetadata_owned : CleanMetadata sampleLibrary (some Sample.ownedMetadata) none where
  pieces := by
    intro a ha
    have hpieces : atomsMembers (keptMetadata (some Sample.ownedMetadata) none) =
        [.key (lit "arn"), .string (lit "arn:aws:iam::123456789012:root"), .key (lit "owner"),
          .key (lit "id"), .number (decimalInt 42)] := rfl
    rw [hpieces] at ha
    simp only [List.mem_cons, List.not_mem_nil, or_false] at ha
    rcases ha with rfl | rfl | rfl | rfl | rfl
    · exact not_keepsAccountId_key (by decide +kernel) (by decide)
    · exact not_keepsAccountId_string (by decide +kernel)
    · exact not_keepsAccountId_key (by decide +kernel) (by decide)
    · exact not_keepsAccountId_key (by decide +kernel) (by decide)
    · intro h
      have hlength := length_of_hasAccountId h
      revert hlength
      decide
  session := by
    intro sid hsid
    cases hsid

/-- The account ID of an ARN is redacted, and none is shown. -/
theorem registeredMetadata_clean_iff_owned :
    ∃ (vault' : Vault) (record stored : Dict Str Json),
      registerEvidence (.ascii Runtime.shortDigest) sampleLibrary (fun _ => none)
        Sample.metadataRegistration .empty (lit "[]") (lit "iam:GetUser")
        (some Sample.ownedMetadata) none = .ok vault' ∧
      Cites vault' Sample.metadataRegistration.vaultId record ∧
      record.get? (lit "metadata") = some (.obj stored) ∧
      ¬ HasAccountId sampleLibrary false (indented 1 (.obj stored)) := by
  rcases @registered_metadata Sample.ownedMetadata (by decide +kernel) _ rfl with
    ⟨vault', record, hregister, hcites, hmetadata⟩
  exact ⟨vault', record, _, hregister, hcites, hmetadata,
    (registeredMetadata_clean_iff (.ascii Runtime.shortDigest) sampleLibrary (fun _ => none)
      Sample.metadataRegistration .empty vault' (lit "[]") (lit "iam:GetUser")
      (some Sample.ownedMetadata) none record _ hregister hcites hmetadata).mpr
        cleanMetadata_owned⟩

/-- A key is stored as it is. -/
theorem key_keeps_accountId :
    ¬ ∀ (rt : Runtime) (lib : VaultLibrary) (environ : Environ) (reg : Registration)
      (vault vault' : Vault) (rawPayload source : Str) (metadata : Option (Dict Str Json))
      (sessionId : Option Str) (record stored : Dict Str Json),
      registerEvidence rt lib environ reg vault rawPayload source metadata sessionId =
        .ok vault' →
      Cites vault' reg.vaultId record →
      record.get? (lit "metadata") = some (.obj stored) →
      ¬ HasAccountId lib false (indented 1 (.obj stored)) := by
  intro h
  have hstored : storedMetadata sampleLibrary (some Sample.accountMetadata) none =
      some Sample.accountMetadata := by
    have hprod : redactAccountIds sampleLibrary (lit "prod") = lit "prod" := by decide +kernel
    have hfilter : (some Sample.accountMetadata).filter (· ≠ []) = some Sample.accountMetadata :=
      rfl
    have hsanitized : sanitizeMembers sampleLibrary Sample.accountMetadata =
        Sample.accountMetadata := by
      rw [Sample.accountMetadata]
      simp only [sanitizeMembers, sanitizeMetadata, hprod]
    rw [storedMetadata, hfilter, Option.map_some, hsanitized]
    rfl
  rcases registered_metadata (by decide +kernel) hstored with
    ⟨vault', record, hregister, hcites, hmetadata⟩
  refine h _ _ _ _ _ vault' _ _ _ _ record Sample.accountMetadata hregister hcites hmetadata ?_
  -- the key stands after a brace, a line feed, four spaces and its quote
  have hkey : matchesAt sampleLibrary (grouped sampleLibrary.digit 12 [])
      ((indented 1 (.obj Sample.accountMetadata)).drop 7) = true := by decide +kernel
  rcases matchesAt_iff.mp hkey with ⟨m, rest, hdrop, hm, hrest⟩
  refine ⟨(indented 1 (.obj Sample.accountMetadata)).take 7, m, rest, ?_, .inl hm, ?_, hrest⟩
  · rw [← hdrop, List.take_append_drop]
  · decide +kernel

end Evidence

end AuditSwarm
