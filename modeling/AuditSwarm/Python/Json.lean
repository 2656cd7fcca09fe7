import Mathlib
import AuditSwarm.Lib.Dict
import AuditSwarm.Python.Text

/-!
# JSON values and their canonical encoding

JSON values as Python holds them after `json.loads`, the compact writer of
`json.dumps(value, sort_keys=True, separators=(",", ":"), ensure_ascii=False)`, and the bytes it
is encoded to.  The main result is that the canonical encoding is injective up to the order of
object keys: `canonical_inj`.
-/

namespace Python

def isNumberChar (c : CodePoint) : Bool :=
  isDigit c || (lit "+-.eENaInfity").contains c

/-- The text `repr` gives a `float`: never the text of an integer. -/
structure FloatRepr where
  text : Str
  numberChars : text.all isNumberChar = true
  starts : (text.head?.any fun c => isDigit c || (lit "-NI").contains c) = true
  notInt : (text.any fun c => !(isDigit c || c == 45)) = true
  deriving DecidableEq

inductive Json where
  | null
  | bool (b : Bool)
  | int (n : Int)
  | float (r : FloatRepr)
  | str (s : Str)
  | arr (xs : List Json)
  | obj (kvs : List (Str × Json))

namespace Json

/-! ## Sorted keys -/

mutual

def sortKeys : Json → Json
  | .arr xs => .arr (sortElems xs)
  | .obj kvs => .obj (Dict.sortByKey (sortMembers kvs))
  | .null => .null
  | .bool b => .bool b
  | .int n => .int n
  | .float r => .float r
  | .str s => .str s

def sortElems : List Json → List Json
  | [] => []
  | x :: xs => sortKeys x :: sortElems xs

def sortMembers : List (Str × Json) → List (Str × Json)
  | [] => []
  | (k, v) :: kvs => (k, sortKeys v) :: sortMembers kvs

end

theorem sortElems_eq_map (xs : List Json) : sortElems xs = xs.map sortKeys := by
  induction xs with
  | nil => rfl
  | cons x xs ih => rw [sortElems, ih, List.map_cons]

theorem sortMembers_eq_mapValues (kvs : Dict Str Json) :
    sortMembers kvs = kvs.mapValues sortKeys := by
  induction kvs with
  | nil => rfl
  | cons kv kvs ih => rw [sortMembers, ih, Dict.mapValues, Dict.mapValues, List.map_cons]

/-- Equality of values as Python compares them: objects as key-value maps. -/
def Same (a b : Json) : Prop := sortKeys a = sortKeys b

theorem Same.refl (a : Json) : Same a a := rfl

theorem Same.symm {a b : Json} (h : Same a b) : Same b a := Eq.symm h

theorem Same.trans {a b c : Json} (h : Same a b) (h' : Same b c) : Same a c := Eq.trans h h'

@[simp] theorem same_str_iff {s t : Str} : Same (.str s) (.str t) ↔ s = t := by
  simp [Same, sortKeys]

@[simp] theorem same_int_iff {m n : Int} : Same (.int m) (.int n) ↔ m = n := by
  simp [Same, sortKeys]

@[simp] theorem same_bool_iff {a b : Bool} : Same (.bool a) (.bool b) ↔ a = b := by
  simp [Same, sortKeys]

theorem Same.get? {a b : Dict Str Json} (h : Same (.obj a) (.obj b)) (k : Str) :
    (a.get? k).map sortKeys = (b.get? k).map sortKeys := by
  simp only [Same, sortKeys, Json.obj.injEq] at h
  have hk := congrArg (Dict.get? · k) h
  simpa [sortMembers_eq_mapValues] using hk

/-- Records with the same keys are the same exactly when their values are, field by field. -/
theorem same_obj_iff {a b : Dict Str Json} (hkeys : a.map Prod.fst = b.map Prod.fst)
    (hnodup : (a.map Prod.fst).Nodup) :
    Same (.obj a) (.obj b) ↔ List.Forall₂ (fun p q => Same p.2 q.2) a b := by
  have hlen : a.length = b.length := by simpa using congrArg List.length hkeys
  constructor
  · intro h
    rw [List.forall₂_iff_get]
    refine ⟨hlen, fun i hi hi' => ?_⟩
    have hkey : (b.get ⟨i, hi'⟩).1 = (a.get ⟨i, hi⟩).1 := by
      have := congrArg (·[i]?) hkeys
      simpa [hi, hi', eq_comm] using this
    have hget := h.get? (a.get ⟨i, hi⟩).1
    rw [Dict.get?_of_mem hnodup (List.get_mem a ⟨i, hi⟩), ← hkey,
      Dict.get?_of_mem (hkeys ▸ hnodup) (List.get_mem b ⟨i, hi'⟩)] at hget
    exact Option.some.inj hget
  · intro h
    have hmembers : sortMembers a = sortMembers b := by
      rw [sortMembers_eq_mapValues, sortMembers_eq_mapValues]
      clear hnodup hlen
      induction h with
      | nil => rfl
      | cons hpq _ ih =>
          simp only [List.map_cons, List.cons.injEq] at hkeys
          have ih' := ih hkeys.2
          simp only [Dict.mapValues, List.map_cons] at ih' ⊢
          rw [hkeys.1, hpq, ih']
    simp only [Same, sortKeys, hmembers]

theorem Same.elems {xs ys : List Json} (h : Same (.arr xs) (.arr ys)) :
    List.Forall₂ Same xs ys := by
  simp only [Same, sortKeys, Json.arr.injEq, sortElems_eq_map] at h
  rw [← List.forall₂_eq_eq_eq, List.forall₂_map_left_iff, List.forall₂_map_right_iff] at h
  exact h

theorem same_arr_iff {xs ys : List Json} :
    Same (.arr xs) (.arr ys) ↔ List.Forall₂ Same xs ys := by
  refine ⟨Same.elems, fun h => ?_⟩
  simp only [Same, sortKeys, Json.arr.injEq, sortElems_eq_map]
  rw [← List.forall₂_eq_eq_eq, List.forall₂_map_left_iff, List.forall₂_map_right_iff]
  exact h

/-! ## Encoders -/

section
variable {α : Type} {enc : α → Json}

def Faithful (enc : α → Json) : Prop := ∀ a b, Same (enc a) (enc b) ↔ a = b

def ofList (enc : α → Json) (xs : List α) : Json := .arr (xs.map enc)

def ofOption (enc : α → Json) : Option α → Json
  | none => .null
  | some a => enc a

theorem Faithful.ofList (h : Faithful enc) : Faithful (ofList enc) := by
  intro xs ys
  rw [Json.ofList, Json.ofList, same_arr_iff, List.forall₂_map_left_iff,
    List.forall₂_map_right_iff]
  have hrel : (fun a b => Same (enc a) (enc b)) = Eq := by
    funext a b
    exact propext (h a b)
  rw [hrel, List.forall₂_eq_eq_eq]

theorem Faithful.ofOption (h : Faithful enc) (hnull : ∀ a, ¬ Same (enc a) .null) :
    Faithful (ofOption enc) := by
  intro x y
  cases x <;> cases y
  · simp [Json.ofOption, Same.refl]
  · rename_i a
    simpa [Json.ofOption] using fun h' => hnull a (Same.symm h')
  · rename_i a
    simpa [Json.ofOption] using hnull a
  · simp [Json.ofOption, h _ _]

theorem faithful_str : Faithful Json.str := fun _ _ => same_str_iff

theorem not_same_null_of_str (s : Str) : ¬ Same (.str s) .null := by simp [Same, sortKeys]

theorem not_same_null_of_obj (kvs : Dict Str Json) : ¬ Same (.obj kvs) .null := by
  simp [Same, sortKeys]

theorem not_same_null_of_arr (xs : List Json) : ¬ Same (.arr xs) .null := by
  simp [Same, sortKeys]

theorem not_same_null_of_int (n : Int) : ¬ Same (.int n) .null := by simp [Same, sortKeys]

theorem not_same_null_of_bool (b : Bool) : ¬ Same (.bool b) .null := by simp [Same, sortKeys]

end

/-! ## Writing -/

def escapeChar (c : CodePoint) : Str :=
  if c = 34 then lit "\\\""
  else if c = 92 then lit "\\\\"
  else if c = 10 then lit "\\n"
  else if c = 13 then lit "\\r"
  else if c = 9 then lit "\\t"
  else if c = 8 then lit "\\b"
  else if c = 12 then lit "\\f"
  else if c.val < 32 then lit "\\u00" ++ [hexDigit (c.val / 16), hexDigit (c.val % 16)]
  else [c]

def escape (s : Str) : Str := s.flatMap escapeChar

def quote (s : Str) : Str := 34 :: (escape s ++ [34])

mutual

def write : Json → Str
  | .null => lit "null"
  | .bool true => lit "true"
  | .bool false => lit "false"
  | .int n => decimalInt n
  | .float r => r.text
  | .str s => quote s
  | .arr [] => lit "[]"
  | .arr (x :: xs) => 91 :: (write x ++ writeElems xs)
  | .obj [] => lit "{}"
  | .obj ((k, v) :: kvs) => 123 :: (quote k ++ 58 :: (write v ++ writeMembers kvs))

def writeElems : List Json → Str
  | [] => [93]
  | x :: xs => 44 :: (write x ++ writeElems xs)

def writeMembers : List (Str × Json) → Str
  | [] => [125]
  | (k, v) :: kvs => 44 :: (quote k ++ 58 :: (write v ++ writeMembers kvs))

end

/-- The canonical bytes of a value; `none` is a `UnicodeEncodeError`. -/
def canonical (j : Json) : Option Bytes := encodeUtf8 (write (sortKeys j))

def Signable (j : Json) : Prop := (canonical j).isSome

instance (j : Json) : Decidable (Signable j) := inferInstanceAs (Decidable (_ = true))

/-! ## Values that can be written -/

@[simp] theorem encodable_quote {s : Str} : Encodable (quote s) ↔ Encodable s := by
  have hchar : ∀ c : CodePoint, Encodable (escapeChar c) ↔ (toChar? c).isSome := by
    intro c
    have hlow : c.val < 128 → (toChar? c).isSome := fun h => toChar?_isSome_of_lt (by omega)
    have hhex : ∀ n, n < 16 → (toChar? (hexDigit n)).isSome := by decide
    unfold escapeChar
    repeat' split
    all_goals first
      | (subst c; simp [hlow])
      | skip
    · rename_i h
      simp [encodable_cons, hlow (by omega), hhex _ (show c.val / 16 < 16 by omega),
        hhex _ (show c.val % 16 < 16 by omega)]
    · simp [encodable_cons]
  have hquote : (toChar? 34).isSome := by decide
  rw [quote, encodable_cons, encodable_append, encodable_cons, escape, encodable_flatMap]
  simp only [hquote, hchar, encodable_nil, and_true, true_and]
  exact encodable_iff.symm

private theorem encodable_writeElems (xs : List Json) :
    Encodable (writeElems xs) ↔ ∀ x ∈ xs, Encodable (write x) := by
  have hclose : (toChar? 93).isSome := by decide
  have hcomma : (toChar? 44).isSome := by decide
  induction xs with
  | nil => simp [writeElems, encodable_cons, hclose]
  | cons x xs ih =>
      simp only [writeElems, encodable_cons, encodable_append, List.forall_mem_cons, hcomma,
        true_and]
      exact and_congr_right fun _ => ih

private theorem encodable_writeMembers (kvs : List (Str × Json)) :
    Encodable (writeMembers kvs) ↔ ∀ kv ∈ kvs, Encodable kv.1 ∧ Encodable (write kv.2) := by
  have hclose : (toChar? 125).isSome := by decide
  have hcomma : (toChar? 44).isSome := by decide
  have hcolon : (toChar? 58).isSome := by decide
  induction kvs with
  | nil => simp [writeMembers, encodable_cons, hclose]
  | cons kv kvs ih =>
      simp only [writeMembers, encodable_cons, encodable_append, encodable_quote,
        List.forall_mem_cons, hcomma, hcolon, true_and, and_assoc]
      exact and_congr_right fun _ => and_congr_right fun _ => ih

theorem encodable_write_arr (xs : List Json) :
    Encodable (write (.arr xs)) ↔ ∀ x ∈ xs, Encodable (write x) := by
  have hopen : (toChar? 91).isSome := by decide
  cases xs with
  | nil => simp [write]
  | cons x xs =>
      rw [write, encodable_cons, encodable_append, encodable_writeElems, List.forall_mem_cons]
      simp [hopen]

theorem encodable_write_obj (kvs : List (Str × Json)) :
    Encodable (write (.obj kvs)) ↔ ∀ kv ∈ kvs, Encodable kv.1 ∧ Encodable (write kv.2) := by
  have hopen : (toChar? 123).isSome := by decide
  have hcolon : (toChar? 58).isSome := by decide
  cases kvs with
  | nil => simp [write]
  | cons kv kvs =>
      rw [write, encodable_cons, encodable_append, encodable_cons, encodable_append,
        encodable_writeMembers, List.forall_mem_cons, encodable_quote]
      simp [hopen, hcolon, and_assoc]

@[simp] theorem signable_str {s : Str} : Signable (.str s) ↔ Encodable s := by
  change Encodable (write (sortKeys (.str s))) ↔ _
  rw [sortKeys, write, encodable_quote]

theorem signable_arr {xs : List Json} : Signable (.arr xs) ↔ ∀ x ∈ xs, Signable x := by
  change Encodable (write (sortKeys (.arr xs))) ↔ _
  rw [sortKeys, encodable_write_arr, sortElems_eq_map]
  simp only [List.forall_mem_map]
  rfl

/-- An object can be written when its keys and values can. -/
theorem signable_obj {kvs : Dict Str Json} :
    Signable (.obj kvs) ↔ ∀ kv ∈ kvs, Encodable kv.1 ∧ Signable kv.2 := by
  change Encodable (write (sortKeys (.obj kvs))) ↔ _
  rw [sortKeys, encodable_write_obj, sortMembers_eq_mapValues]
  have hperm : (Dict.sortByKey (kvs.mapValues sortKeys)).Perm (kvs.mapValues sortKeys) :=
    List.perm_insertionSort _ _
  simp only [hperm.mem_iff]
  simp only [Dict.mapValues, List.forall_mem_map]
  rfl

/-! ## Injectivity of the writer -/

private def readChar : Str → Option (CodePoint × Str)
  | [] => none
  | c :: rest =>
      if c = 92 then
        match rest with
        | d :: rest' =>
            if d = 34 then some (34, rest')
            else if d = 92 then some (92, rest')
            else if d = 110 then some (10, rest')
            else if d = 114 then some (13, rest')
            else if d = 116 then some (9, rest')
            else if d = 98 then some (8, rest')
            else if d = 102 then some (12, rest')
            else
              match rest' with
              | _ :: _ :: hi :: lo :: rest'' =>
                  let digit (x : CodePoint) := if x.val < 58 then x.val - 48 else x.val - 87
                  some (Fin.ofNat _ (16 * digit hi + digit lo), rest'')
              | _ => none
        | [] => none
      else some (c, rest)

private theorem readChar_escapeChar (c : CodePoint) (t : Str) :
    readChar (escapeChar c ++ t) = some (c, t) := by
  unfold escapeChar
  split_ifs with h1 h2 h3 h4 h5 h6 h7 h8
  all_goals try (subst c; rfl)
  · have hall : ∀ n, n < 32 → ∀ c : CodePoint, c.val = n → readChar
        (lit "\\u00" ++ [hexDigit (n / 16), hexDigit (n % 16)] ++ t) = some (c, t) := by
      intro n hn c hc
      have : c = Fin.ofNat _ n := Fin.ext (by simp [Fin.ofNat]; omega)
      subst this
      interval_cases n <;> rfl
    exact hall c.val h8 c rfl
  · simp [readChar, h2]

private theorem escapeChar_head_ne_quote (c : CodePoint) (t : Str) :
    (escapeChar c ++ t).head? ≠ some 34 := by
  unfold escapeChar
  split_ifs <;> simp_all [lit, ofChar]

private theorem escape_inj : ∀ {s s' t t' : Str},
    escape s ++ 34 :: t = escape s' ++ 34 :: t' → s = s' ∧ t = t' := by
  intro s
  induction s with
  | nil =>
      intro s' t t' h
      cases s' with
      | nil => simpa [escape] using h
      | cons c s' =>
          have hne := escapeChar_head_ne_quote c (escape s' ++ 34 :: t')
          have hh := congrArg List.head? h
          simp only [escape, List.flatMap_nil, List.nil_append, List.flatMap_cons,
            List.append_assoc, List.head?_cons] at hh
          exact absurd hh.symm hne
  | cons c s ih =>
      intro s' t t' h
      cases s' with
      | nil =>
          have hne := escapeChar_head_ne_quote c (escape s ++ 34 :: t)
          have hh := congrArg List.head? h
          simp only [escape, List.flatMap_nil, List.nil_append, List.flatMap_cons,
            List.append_assoc, List.head?_cons] at hh
          exact absurd hh hne
      | cons c' s' =>
          simp only [escape, List.flatMap_cons, List.append_assoc] at h
          have hr := congrArg readChar h
          rw [readChar_escapeChar, readChar_escapeChar, Option.some.injEq, Prod.mk.injEq] at hr
          obtain ⟨rfl, ht⟩ := ih hr.2
          exact ⟨by rw [hr.1], ht⟩

theorem quote_inj {s s' t t' : Str} (h : quote s ++ t = quote s' ++ t') : s = s' ∧ t = t' := by
  simp only [quote, List.cons_append, List.append_assoc, List.cons.injEq, true_and,
    List.nil_append] at h
  exact escape_inj h

/-- The text after a value: nothing, or something no number continues with. -/
private def Stops (s : Str) : Prop := ∀ c ∈ s.head?, isNumberChar c = false

private theorem stops_elems (xs : List Json) (s : Str) : Stops (writeElems xs ++ s) := by
  intro c hc
  cases xs with
  | nil => simp [writeElems] at hc; subst hc; rfl
  | cons x xs => simp [writeElems] at hc; subst hc; rfl

private theorem stops_members (kvs : List (Str × Json)) (s : Str) :
    Stops (writeMembers kvs ++ s) := by
  intro c hc
  cases kvs with
  | nil => simp [writeMembers] at hc; subst hc; rfl
  | cons kv kvs => simp [writeMembers] at hc; subst hc; rfl

private theorem number_inj {a b s t : Str} (ha : a.all isNumberChar) (hb : b.all isNumberChar)
    (hs : Stops s) (ht : Stops t) (h : a ++ s = b ++ t) : a = b ∧ s = t := by
  have key : ∀ {a s : Str}, a.all isNumberChar → Stops s →
      (a ++ s).takeWhile isNumberChar = a := by
    intro a s ha hs
    induction a with
    | nil =>
        cases s with
        | nil => rfl
        | cons c s => simp [hs c rfl]
    | cons c a ih =>
        simp only [List.all_cons, Bool.and_eq_true] at ha
        simp [ha.1, ih ha.2]
  have hab : a = b := by rw [← key ha hs, h, key hb ht]
  subst hab
  exact ⟨rfl, List.append_cancel_left h⟩

private theorem decimalInt_numberChars (n : Int) : (decimalInt n).all isNumberChar := by
  have hdec : ∀ k, (decimal k).all isNumberChar := by
    intro k
    rw [List.all_eq_true]
    intro c hc
    simp [isNumberChar, all_isDigit_decimal k c hc]
  cases n with
  | ofNat k => exact hdec k
  | negSucc k =>
      rw [decimalInt, List.all_append, hdec, Bool.and_true]
      decide

private theorem float_ne_int (r : FloatRepr) (n : Int) : r.text ≠ decimalInt n := by
  intro h
  have hint : ∀ c ∈ decimalInt n, isDigit c || c == 45 := by
    intro c hc
    cases n with
    | ofNat k => simp [all_isDigit_decimal k c hc]
    | negSucc k =>
        obtain hc | hc := List.mem_append.mp hc
        · simp [lit, ofChar] at hc
          subst hc
          decide
        · simp [all_isDigit_decimal _ c hc]
  obtain ⟨c, hc, hne⟩ := List.any_eq_true.mp r.notInt
  rw [h] at hc
  simp [hint c hc] at hne

/-- The kind of value a text starts: a literal, a number, a string, an array or an object. -/
private def kindOfHead (c : CodePoint) : Nat :=
  if c = 110 then 0 else if c = 116 then 1 else if c = 102 then 2 else if c = 34 then 4
  else if c = 91 then 5 else if c = 123 then 6 else if c = 93 then 7 else 3

private def kind : Json → Nat
  | .null => 0
  | .bool true => 1
  | .bool false => 2
  | .int _ => 3
  | .float _ => 3
  | .str _ => 4
  | .arr _ => 5
  | .obj _ => 6

private theorem kindOfHead_of_start {c : CodePoint} (h : isDigit c ∨ (lit "-NI").contains c) :
    kindOfHead c = 3 := by
  have hne : c ≠ 110 ∧ c ≠ 116 ∧ c ≠ 102 ∧ c ≠ 34 ∧ c ≠ 91 ∧ c ≠ 123 ∧
      c ≠ 93 := by
    refine ⟨?_, ?_, ?_, ?_, ?_, ?_, ?_⟩ <;> rintro rfl <;> revert h <;> decide
  simp [kindOfHead, hne]

private theorem exists_head (j : Json) :
    ∃ c rest, write j = c :: rest ∧ kindOfHead c = kind j := by
  match j with
  | .null => exact ⟨_, _, rfl, rfl⟩
  | .bool true => exact ⟨_, _, rfl, rfl⟩
  | .bool false => exact ⟨_, _, rfl, rfl⟩
  | .str s => exact ⟨_, _, rfl, rfl⟩
  | .arr [] => exact ⟨_, _, rfl, rfl⟩
  | .arr (x :: xs) => exact ⟨91, _, by rw [write], rfl⟩
  | .obj [] => exact ⟨_, _, rfl, rfl⟩
  | .obj ((k, v) :: kvs) => exact ⟨123, _, by rw [write], rfl⟩
  | .int (.ofNat n) =>
      obtain ⟨c, rest, hc⟩ := List.exists_cons_of_ne_nil (decimal_ne_nil n)
      refine ⟨c, rest, hc, kindOfHead_of_start (.inl ?_)⟩
      exact all_isDigit_decimal n c (hc ▸ List.mem_cons_self)
  | .int (.negSucc n) => exact ⟨45, _, rfl, rfl⟩
  | .float r =>
      have hstart := r.starts
      cases hr : r.text with
      | nil => simp [hr] at hstart
      | cons c rest =>
          refine ⟨c, rest, hr, kindOfHead_of_start ?_⟩
          simpa [hr] using hstart

private theorem write_ne_close (j : Json) (s t : Str) : write j ++ s ≠ 93 :: t := by
  intro h
  obtain ⟨c, rest, hc, hk⟩ := exists_head j
  rw [hc, List.cons_append, List.cons.injEq] at h
  have h7 : kind j = 7 := by rw [← hk, h.1]; rfl
  cases j with
  | bool b => cases b <;> cases h7
  | _ => cases h7

private theorem kind_eq {a b : Json} {s t : Str} (h : write a ++ s = write b ++ t) :
    kind a = kind b := by
  obtain ⟨c, rest, hc, hk⟩ := exists_head a
  obtain ⟨d, rest', hd, hk'⟩ := exists_head b
  rw [hc, hd, List.cons_append, List.cons_append, List.cons.injEq] at h
  rw [← hk, ← hk', h.1]

private theorem eq_of_kind_lt {a b : Json} (hk : kind a = kind b) (ha : kind a < 3) : a = b := by
  cases a with
  | null =>
      cases b with
      | null => rfl
      | bool y => cases y <;> cases hk
      | _ => cases hk
  | bool x =>
      cases b with
      | bool y => cases x <;> cases y <;> first | rfl | cases hk
      | _ => cases x <;> cases hk
  | _ => exact absurd ha (by simp [kind])

private theorem int_or_float {a : Json} (h : kind a = 3) :
    (∃ n, a = .int n) ∨ ∃ r, a = .float r := by
  cases a with
  | int n => exact .inl ⟨n, rfl⟩
  | float r => exact .inr ⟨r, rfl⟩
  | bool x => cases x <;> cases h
  | _ => cases h

private theorem exists_str {a : Json} (h : kind a = 4) : ∃ x, a = .str x := by
  cases a with
  | str x => exact ⟨x, rfl⟩
  | bool x => cases x <;> cases h
  | _ => cases h

private theorem exists_arr {a : Json} (h : kind a = 5) : ∃ xs, a = .arr xs := by
  cases a with
  | arr xs => exact ⟨xs, rfl⟩
  | bool x => cases x <;> cases h
  | _ => cases h

private theorem exists_obj {a : Json} (h : kind a = 6) : ∃ kvs, a = .obj kvs := by
  cases a with
  | obj kvs => exact ⟨kvs, rfl⟩
  | bool x => cases x <;> cases h
  | _ => cases h

private theorem write_literal_inj {a b : Json} {s t : Str} (ha : kind a < 3)
    (h : write a ++ s = write b ++ t) : a = b ∧ s = t := by
  obtain rfl := eq_of_kind_lt (kind_eq h) ha
  exact ⟨rfl, List.append_cancel_left h⟩

private theorem write_number_inj {a b : Json} {s t : Str} (ha : kind a = 3) (hs : Stops s)
    (ht : Stops t) (h : write a ++ s = write b ++ t) : a = b ∧ s = t := by
  have hb : kind b = 3 := (kind_eq h).symm.trans ha
  obtain ⟨m, rfl⟩ | ⟨q, rfl⟩ := int_or_float ha
  · obtain ⟨n, rfl⟩ | ⟨r, rfl⟩ := int_or_float hb
    · obtain ⟨hn, hst⟩ := number_inj (decimalInt_numberChars m) (decimalInt_numberChars n) hs ht h
      exact ⟨by rw [decimalInt_injective hn], hst⟩
    · have htext := (number_inj (decimalInt_numberChars m) r.numberChars hs ht h).1
      exact absurd htext.symm (float_ne_int r m)
  · obtain ⟨n, rfl⟩ | ⟨r, rfl⟩ := int_or_float hb
    · have htext := (number_inj q.numberChars (decimalInt_numberChars n) hs ht h).1
      exact absurd htext (float_ne_int q n)
    · obtain ⟨htext, hst⟩ := number_inj q.numberChars r.numberChars hs ht h
      cases q
      cases r
      cases htext
      exact ⟨rfl, hst⟩

private theorem write_str_inj {x : Str} {b : Json} {s t : Str}
    (h : write (.str x) ++ s = write b ++ t) : .str x = b ∧ s = t := by
  obtain ⟨y, rfl⟩ := exists_str (kind_eq h).symm
  obtain ⟨rfl, hst⟩ := quote_inj h
  exact ⟨rfl, hst⟩

mutual

private theorem write_inj : ∀ (a b : Json) {s t : Str}, Stops s → Stops t →
    write a ++ s = write b ++ t → a = b ∧ s = t
  | .null, _, _, _, _, _, h => write_literal_inj (by decide) h
  | .bool x, _, _, _, _, _, h => write_literal_inj (by cases x <;> decide) h
  | .int _, _, _, _, hs, ht, h => write_number_inj rfl hs ht h
  | .float _, _, _, _, hs, ht, h => write_number_inj rfl hs ht h
  | .str _, _, _, _, _, _, h => write_str_inj h
  | .arr xs, b, s, t, _, _, h => by
      obtain ⟨ys, rfl⟩ := exists_arr (kind_eq h).symm
      obtain ⟨hxs, hst⟩ := writeArr_inj xs ys h
      exact ⟨by rw [hxs], hst⟩
  | .obj xs, b, s, t, _, _, h => by
      obtain ⟨ys, rfl⟩ := exists_obj (kind_eq h).symm
      obtain ⟨hxs, hst⟩ := writeObj_inj xs ys h
      exact ⟨by rw [hxs], hst⟩

private theorem writeArr_inj : ∀ (xs ys : List Json) {s t : Str},
    write (.arr xs) ++ s = write (.arr ys) ++ t → xs = ys ∧ s = t
  | [], [], s, t, h => ⟨rfl, List.append_cancel_left h⟩
  | [], y :: ys, s, t, h => by
      rw [write, write, List.cons_append, List.append_assoc] at h
      exact absurd (List.cons.inj h).2.symm (write_ne_close _ _ _)
  | x :: xs, [], s, t, h => by
      rw [write, write, List.cons_append, List.append_assoc] at h
      exact absurd (List.cons.inj h).2 (write_ne_close _ _ _)
  | x :: xs, y :: ys, s, t, h => by
      rw [write, write, List.cons_append, List.cons_append, List.cons.injEq,
        List.append_assoc, List.append_assoc] at h
      obtain ⟨hx, h'⟩ := write_inj x y (stops_elems _ _) (stops_elems _ _) h.2
      obtain ⟨hxs, hst⟩ := writeElems_inj xs ys h'
      exact ⟨by rw [hx, hxs], hst⟩

private theorem writeObj_inj : ∀ (xs ys : List (Str × Json)) {s t : Str},
    write (.obj xs) ++ s = write (.obj ys) ++ t → xs = ys ∧ s = t
  | [], [], s, t, h => ⟨rfl, List.append_cancel_left h⟩
  | [], (l, y) :: ys, s, t, h => by
      rw [write] at h
      cases h
  | (k, x) :: xs, [], s, t, h => by
      rw [write] at h
      cases h
  | (k, x) :: xs, (l, y) :: ys, s, t, h => by
      rw [write, write, List.cons_append, List.cons_append, List.cons.injEq,
        List.append_assoc, List.append_assoc] at h
      obtain ⟨hkey, h'⟩ := quote_inj h.2
      rw [List.cons_append, List.cons_append, List.cons.injEq, List.append_assoc,
        List.append_assoc] at h'
      obtain ⟨hx, h''⟩ := write_inj x y (stops_members _ _) (stops_members _ _) h'.2
      obtain ⟨hxs, hst⟩ := writeMembers_inj xs ys h''
      exact ⟨by rw [hkey, hx, hxs], hst⟩

private theorem writeElems_inj : ∀ (xs ys : List Json) {s t : Str},
    writeElems xs ++ s = writeElems ys ++ t → xs = ys ∧ s = t
  | [], [], s, t, h => ⟨rfl, (List.cons.inj h).2⟩
  | [], y :: ys, s, t, h => by rw [writeElems, writeElems] at h; cases h
  | x :: xs, [], s, t, h => by rw [writeElems, writeElems] at h; cases h
  | x :: xs, y :: ys, s, t, h => by
      rw [writeElems, writeElems, List.cons_append, List.cons_append, List.cons.injEq,
        List.append_assoc, List.append_assoc] at h
      obtain ⟨hx, h'⟩ := write_inj x y (stops_elems _ _) (stops_elems _ _) h.2
      obtain ⟨hxs, hst⟩ := writeElems_inj xs ys h'
      exact ⟨by rw [hx, hxs], hst⟩

private theorem writeMembers_inj : ∀ (xs ys : List (Str × Json)) {s t : Str},
    writeMembers xs ++ s = writeMembers ys ++ t → xs = ys ∧ s = t
  | [], [], s, t, h => ⟨rfl, (List.cons.inj h).2⟩
  | [], (l, y) :: ys, s, t, h => by rw [writeMembers, writeMembers] at h; cases h
  | (k, x) :: xs, [], s, t, h => by rw [writeMembers, writeMembers] at h; cases h
  | (k, x) :: xs, (l, y) :: ys, s, t, h => by
      rw [writeMembers, writeMembers, List.cons_append, List.cons_append, List.cons.injEq,
        List.append_assoc, List.append_assoc] at h
      obtain ⟨hkey, h'⟩ := quote_inj h.2
      rw [List.cons_append, List.cons_append, List.cons.injEq, List.append_assoc,
        List.append_assoc] at h'
      obtain ⟨hx, h''⟩ := write_inj x y (stops_members _ _) (stops_members _ _) h'.2
      obtain ⟨hxs, hst⟩ := writeMembers_inj xs ys h''
      exact ⟨by rw [hkey, hx, hxs], hst⟩

end

/-- The canonical text determines the value, up to the order of object keys. -/
theorem same_of_write {a b : Json} (h : write (sortKeys a) = write (sortKeys b)) : Same a b := by
  have hstops : Stops [] := fun c hc => by simp at hc
  exact (write_inj _ _ hstops hstops (by rw [h])).1

/-- The canonical encoding determines the value, up to the order of object keys. -/
theorem canonical_inj {a b : Json} {bytes : Bytes} (ha : canonical a = some bytes)
    (hb : canonical b = some bytes) : Same a b :=
  same_of_write (encodeUtf8_inj ha hb)

end Json

end Python
