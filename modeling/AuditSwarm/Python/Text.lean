import Mathlib

/-!
# Python text and bytes

A Python `str` is a list of code points, lone surrogates included, and `bytes` a list of octets.
This module has the operations on them that the program uses: stripping and splitting on
whitespace, UTF-8 encoding (which fails on a lone surrogate), hexadecimal and decimal rendering,
and the lenient URL-safe Base64 decoder.
-/

namespace Python

/-- A code point of a Python `str`; unlike `Char` it may be a surrogate. -/
abbrev CodePoint := Fin 0x110000

instance neZero_codePoints : NeZero 0x110000 := ⟨by decide⟩

abbrev Str := List CodePoint

instance lawfulBEq_str : LawfulBEq Str := inferInstance

abbrev Bytes := List UInt8

def ofChar (c : Char) : CodePoint :=
  ⟨c.toNat, by
    obtain h | h := c.valid
    · exact lt_trans h (by decide)
    · exact h.2⟩

def lit (s : String) : Str := s.toList.map ofChar

theorem ofChar_injective : Function.Injective ofChar := by
  intro a b h
  have hval : a.val.toNat = b.val.toNat := Fin.mk.inj h
  exact Char.ext (UInt32.toNat_inj.mp hval)

@[simp] theorem lit_inj {s t : String} : lit s = lit t ↔ s = t := by
  constructor
  · intro h
    exact String.toList_inj.mp (List.map_injective_iff.mpr ofChar_injective h)
  · rintro rfl
    rfl

@[simp] theorem lit_eq_nil {s : String} : lit s = [] ↔ s = "" := by
  simp [lit]

/-! ## Whitespace -/

/-- `str.isspace` on one code point. -/
def isSpace (c : CodePoint) : Bool :=
  let n := c.val
  (9 ≤ n && n ≤ 13) || (28 ≤ n && n ≤ 32) || n == 0x85 || n == 0xA0 || n == 0x1680 ||
    (0x2000 ≤ n && n ≤ 0x200A) || n == 0x2028 || n == 0x2029 || n == 0x202F ||
    n == 0x205F || n == 0x3000

/-- Remove the code points satisfying `p` at both ends. -/
def trimWith (p : CodePoint → Bool) (s : Str) : Str := (s.dropWhile p).rdropWhile p

/-- `str.strip()`. -/
def strip (s : Str) : Str := trimWith isSpace s

/-- `str.split()`: the maximal runs of non-space code points. -/
def words (s : Str) : List Str := (s.splitOnP isSpace).filter (fun w => !w.isEmpty)

/-- `sep.join(parts)`. -/
def join (sep : Str) (parts : List Str) : Str := sep.intercalate parts

theorem words_nil : words [] = [] := by
  simp [words]

theorem words_cons_of_space {c : CodePoint} (h : isSpace c) (s : Str) :
    words (c :: s) = words s := by
  simp [words, List.splitOnP_cons_eq_if_modifyHead, h]

private theorem splitOnP_concat_of_sep (p : CodePoint → Bool) {c : CodePoint} (h : p c)
    (s : Str) : (s ++ [c]).splitOnP p = s.splitOnP p ++ [[]] := by
  induction s with
  | nil => simp [List.splitOnP_cons_eq_if_modifyHead, h]
  | cons x xs ih =>
      by_cases hx : p x
      · simp [List.splitOnP_cons_eq_if_modifyHead, hx, ih]
      · obtain ⟨y, ys, hy⟩ := List.exists_cons_of_ne_nil (List.splitOnP_ne_nil p xs)
        simp [List.splitOnP_cons_eq_if_modifyHead, hx, ih, hy]

theorem words_concat_of_space {c : CodePoint} (h : isSpace c) (s : Str) :
    words (s ++ [c]) = words s := by
  simp [words, splitOnP_concat_of_sep isSpace h]

theorem words_dropWhile (s : Str) : words (s.dropWhile isSpace) = words s := by
  induction s with
  | nil => rfl
  | cons c s ih =>
      by_cases h : isSpace c
      · rw [List.dropWhile_cons_of_pos h, ih, words_cons_of_space h]
      · rw [List.dropWhile_cons_of_neg (by simpa using h)]

theorem words_rdropWhile (s : Str) : words (s.rdropWhile isSpace) = words s := by
  induction s using List.reverseRecOn with
  | nil => rfl
  | append_singleton s c ih =>
      by_cases h : isSpace c
      · rw [List.rdropWhile_concat_pos _ _ _ h, ih, words_concat_of_space h]
      · rw [List.rdropWhile_concat_neg _ _ _ h]

@[simp] theorem words_strip (s : Str) : words (strip s) = words s := by
  rw [strip, trimWith, words_rdropWhile, words_dropWhile]

theorem strip_eq_nil_iff {s : Str} : strip s = [] ↔ ∀ c ∈ s, isSpace c = true := by
  rw [strip, trimWith, List.rdropWhile_eq_nil_iff]
  constructor
  · intro h
    have hnil : s.dropWhile isSpace = [] := by
      cases hdrop : s.dropWhile isSpace with
      | nil => rfl
      | cons c t =>
          have hhead := List.head?_dropWhile_not isSpace s
          rw [hdrop] at hhead
          have hspace := h c (hdrop ▸ List.mem_cons_self)
          simp [hspace] at hhead
    exact List.dropWhile_eq_nil_iff.mp hnil
  · intro h c hc
    exact h c ((List.dropWhile_sublist isSpace).subset hc)

/-! ## UTF-8 -/

/-- The character of a code point, if it is not a surrogate. -/
def toChar? (c : CodePoint) : Option Char :=
  if h : c.val.isValidChar then some (Char.ofNatAux c.val h) else none

/-- `str.encode("utf-8")`; a lone surrogate cannot be encoded. -/
def encodeUtf8 (s : Str) : Option Bytes :=
  (s.mapM toChar?).map (·.flatMap String.utf8EncodeChar)

def Encodable (s : Str) : Prop := (encodeUtf8 s).isSome

instance (s : Str) : Decidable (Encodable s) := inferInstanceAs (Decidable (_ = true))

theorem mapM_toChar?_isSome (s : Str) : (s.mapM toChar?).isSome ↔ ∀ c ∈ s, (toChar? c).isSome := by
  induction s with
  | nil => simp
  | cons c s ih =>
      rw [List.mapM_cons, List.forall_mem_cons, ← ih]
      cases toChar? c with
      | none => simp
      | some d => cases s.mapM toChar? <;> simp

/-- A text has an encoding when each of its code points is a character. -/
theorem encodable_iff {s : Str} : Encodable s ↔ ∀ c ∈ s, (toChar? c).isSome := by
  rw [← mapM_toChar?_isSome, Encodable, encodeUtf8, Option.isSome_map]

@[simp] theorem encodable_nil : Encodable [] := by simp [encodable_iff]

@[simp] theorem encodable_append {s t : Str} : Encodable (s ++ t) ↔ Encodable s ∧ Encodable t := by
  simp only [encodable_iff, List.forall_mem_append]

theorem encodable_cons {c : CodePoint} {s : Str} :
    Encodable (c :: s) ↔ (toChar? c).isSome ∧ Encodable s := by
  simp only [encodable_iff, List.forall_mem_cons]

theorem encodable_flatMap {α : Type} {xs : List α} {f : α → Str} :
    Encodable (xs.flatMap f) ↔ ∀ x ∈ xs, Encodable (f x) := by
  simp only [encodable_iff, List.mem_flatMap]
  constructor
  · intro h x hx c hc
    exact h c ⟨x, hx, hc⟩
  · rintro h c ⟨x, hx, hc⟩
    exact h x hx c hc

theorem encodable_join {sep : Str} (hsep : Encodable sep) {parts : List Str} :
    Encodable (join sep parts) ↔ ∀ t ∈ parts, Encodable t := by
  induction parts with
  | nil => simp [join, List.intercalate]
  | cons x xs ih =>
      cases xs with
      | nil => simp [join, List.intercalate]
      | cons y ys =>
          have hcons : join sep (x :: y :: ys) = x ++ (sep ++ join sep (y :: ys)) := by
            simp [join, List.intercalate]
          rw [hcons, encodable_append, encodable_append, ih, List.forall_mem_cons]
          simp [hsep]

theorem toChar?_isSome_of_lt {c : CodePoint} (h : c.val < 0xd800) : (toChar? c).isSome := by
  unfold toChar?
  rw [dif_pos (.inl h)]
  rfl

theorem encodable_of_lt {s : Str} (h : ∀ c ∈ s, c.val < 0xd800) : Encodable s :=
  encodable_iff.mpr fun c hc => toChar?_isSome_of_lt (h c hc)

@[simp] theorem encodable_lit (s : String) : Encodable (lit s) := by
  rw [encodable_iff]
  intro c hc
  obtain ⟨d, -, rfl⟩ := List.mem_map.mp hc
  have hvalid : (ofChar d).val.isValidChar := d.valid
  unfold toChar?
  rw [dif_pos hvalid]
  rfl

/-- Whitespace has an encoding, so stripping it neither helps nor harms. -/
@[simp] theorem encodable_strip {s : Str} : Encodable (strip s) ↔ Encodable s := by
  have hspace : ∀ c : CodePoint, isSpace c → (toChar? c).isSome := by
    intro c hc
    refine toChar?_isSome_of_lt ?_
    simp only [isSpace, Bool.or_eq_true, Bool.and_eq_true, decide_eq_true_eq, beq_iff_eq] at hc
    omega
  have hdrop : ∀ t : Str, Encodable (t.dropWhile isSpace) ↔ Encodable t := by
    intro t
    induction t with
    | nil => rfl
    | cons c t ih =>
        by_cases hc : isSpace c
        · rw [List.dropWhile_cons_of_pos hc, ih, encodable_cons]
          simp [hspace c hc]
        · rw [List.dropWhile_cons_of_neg (by simpa using hc)]
  have hrev : ∀ t : Str, Encodable t.reverse ↔ Encodable t := by
    intro t
    simp only [encodable_iff, List.mem_reverse]
  rw [strip, trimWith, List.rdropWhile, hrev, hdrop, hrev, hdrop]

theorem toChar?_inj {a b : CodePoint} {c : Char} (ha : toChar? a = some c)
    (hb : toChar? b = some c) : a = b := by
  simp only [toChar?] at ha hb
  split at ha <;> split at hb <;> simp_all
  have h := ha.trans hb.symm
  have hval := congrArg Char.toNat h
  exact Fin.ext (by simpa [Char.ofNatAux, Char.toNat] using hval)

private theorem mapM_toChar?_inj : ∀ {s t : Str} {cs : List Char},
    s.mapM toChar? = some cs → t.mapM toChar? = some cs → s = t := by
  intro s
  induction s with
  | nil =>
      intro t cs hs ht
      simp at hs
      subst hs
      cases t with
      | nil => rfl
      | cons b t =>
          simp only [List.mapM_cons, Option.pure_def, Option.bind_eq_bind,
            Option.bind_eq_some_iff] at ht
          obtain ⟨d, -, ds, -, ht⟩ := ht
          cases ht
  | cons a s ih =>
      intro t cs hs ht
      simp only [List.mapM_cons, Option.pure_def, Option.bind_eq_bind,
        Option.bind_eq_some_iff] at hs
      obtain ⟨c, hc, cs', hcs, hs⟩ := hs
      cases t with
      | nil =>
          simp at ht hs
          simp [← hs] at ht
      | cons b t =>
          simp only [List.mapM_cons, Option.pure_def, Option.bind_eq_bind,
            Option.bind_eq_some_iff] at ht
          obtain ⟨d, hd, ds, hds, ht⟩ := ht
          simp only [Option.some.injEq] at hs ht
          obtain ⟨rfl, rfl⟩ := List.cons.inj (hs.trans ht.symm)
          rw [toChar?_inj hc hd, ih hcs hds]

private theorem flatMap_utf8_inj {cs ds : List Char}
    (h : cs.flatMap String.utf8EncodeChar = ds.flatMap String.utf8EncodeChar) : cs = ds := by
  apply String.ofList_injective
  rw [← String.toByteArray_inj, String.toByteArray_ofList, String.toByteArray_ofList,
    List.utf8Encode, List.utf8Encode, h]

theorem encodeUtf8_inj {s t : Str} {b : Bytes} (hs : encodeUtf8 s = some b)
    (ht : encodeUtf8 t = some b) : s = t := by
  simp only [encodeUtf8, Option.map_eq_some_iff] at hs ht
  obtain ⟨cs, hcs, hb⟩ := hs
  obtain ⟨ds, hds, hb'⟩ := ht
  obtain rfl := flatMap_utf8_inj (hb.trans hb'.symm)
  exact mapM_toChar?_inj hcs hds

/-! ## Numbers and hexadecimal digests -/

/-- `str(n)` for a natural number. -/
def decimal (n : Nat) : Str :=
  if n = 0 then lit "0" else (Nat.digits 10 n).reverse.map (fun d => Fin.ofNat _ (48 + d))

/-- `str(n)` for an integer. -/
def decimalInt : Int → Str
  | .ofNat n => decimal n
  | .negSucc n => lit "-" ++ decimal (n + 1)

def hexDigit (n : Nat) : CodePoint := Fin.ofNat _ (if n < 10 then 48 + n else 87 + n)

/-- `bytes.hex()`: two lower-case digits an octet. -/
def hexdigest (b : Bytes) : Str :=
  b.flatMap (fun x => [hexDigit (x.toNat / 16), hexDigit (x.toNat % 16)])

/-- Only ASCII code points, as `hmac.compare_digest` demands of a `str`. -/
def isAscii (s : Str) : Bool := s.all (fun c => c.val < 128)

theorem hexDigit_inj {m n : Nat} (hm : m < 16) (hn : n < 16) (h : hexDigit m = hexDigit n) :
    m = n := by
  have hval := congrArg Fin.val h
  simp only [hexDigit, Fin.ofNat] at hval
  split at hval <;> split at hval <;> omega

theorem hexdigest_injective : Function.Injective hexdigest := by
  intro a
  induction a with
  | nil =>
      intro b h
      cases b with
      | nil => rfl
      | cons y b => simp [hexdigest] at h
  | cons x a ih =>
      intro b h
      cases b with
      | nil => simp [hexdigest] at h
      | cons y b =>
          simp only [hexdigest, List.flatMap_cons, List.cons_append, List.nil_append,
            List.cons.injEq] at h
          have hx := x.toNat_lt
          have hy := y.toNat_lt
          have hhi := hexDigit_inj (by omega) (by omega) h.1
          have hlo := hexDigit_inj (by omega) (by omega) h.2.1
          have hxy : x.toNat = y.toNat := by omega
          rw [UInt8.toNat_inj.mp hxy, ih h.2.2]

theorem isAscii_hexdigest (b : Bytes) : isAscii (hexdigest b) = true := by
  simp only [isAscii, hexdigest, List.all_eq_true, List.mem_flatMap, List.mem_cons,
    List.not_mem_nil, or_false, decide_eq_true_eq]
  have hdigit : ∀ n, n < 16 → (hexDigit n).val < 128 := by decide
  rintro c ⟨x, -, rfl | rfl⟩
  · exact hdigit _ (by have := x.toNat_lt; omega)
  · exact hdigit _ (by omega)

/-- No bracket in a text: neither `[` nor `{`. -/
def BracketFree (s : Str) : Prop := ∀ c ∈ s, c ≠ 91 ∧ c ≠ 123

theorem bracketFree_hexdigest (b : Bytes) : BracketFree (hexdigest b) := by
  have hdigit : ∀ n, n < 16 → hexDigit n ≠ 91 ∧ hexDigit n ≠ 123 := by decide
  intro c hc
  obtain ⟨x, -, hx⟩ := List.mem_flatMap.mp hc
  have hlt : x.toNat < 256 := x.toNat_lt
  rcases List.mem_pair.mp hx with rfl | rfl
  · exact hdigit _ (by omega)
  · exact hdigit _ (by omega)

theorem hexdigest_ne_nil {b : Bytes} (h : b ≠ []) : hexdigest b ≠ [] := by
  cases b with
  | nil => exact absurd rfl h
  | cons x b => simp [hexdigest]

@[simp] theorem encodable_hexdigest (b : Bytes) : Encodable (hexdigest b) := by
  refine encodable_of_lt fun c hc => ?_
  have hascii := List.all_eq_true.mp (isAscii_hexdigest b) c hc
  simp only [decide_eq_true_eq] at hascii
  omega

theorem decimal_ne_nil (n : Nat) : decimal n ≠ [] := by
  unfold decimal
  split
  · decide
  · simpa [Nat.digits_eq_nil_iff_eq_zero] using ‹_›

def isDigit (c : CodePoint) : Bool := 48 ≤ c.val && c.val ≤ 57

theorem all_isDigit_decimal (n : Nat) : ∀ c ∈ decimal n, isDigit c := by
  unfold decimal
  split
  · exact List.all_eq_true.mp (by decide)
  · intro c hc
    obtain ⟨d, hd, rfl⟩ := List.mem_map.mp hc
    rw [List.mem_reverse] at hd
    have hlt : d < 10 := Nat.digits_lt_base (by omega) hd
    simp only [isDigit, Fin.ofNat, Bool.and_eq_true, decide_eq_true_eq]
    omega

@[simp] theorem encodable_decimal (n : Nat) : Encodable (decimal n) := by
  refine encodable_of_lt fun c hc => ?_
  have hdigit := all_isDigit_decimal n c hc
  simp only [isDigit, Bool.and_eq_true, decide_eq_true_eq] at hdigit
  omega

private theorem digits_of_decimal (n : Nat) :
    ((decimal n).map (fun c => c.val - 48)).reverse = if n = 0 then [0] else Nat.digits 10 n := by
  unfold decimal
  split
  · decide
  · rw [List.map_map, List.map_reverse, List.reverse_reverse]
    conv_rhs => rw [← List.map_id (Nat.digits 10 n)]
    refine List.map_congr_left fun d hd => ?_
    have hlt : d < 10 := Nat.digits_lt_base (by omega) hd
    simp only [Function.comp_apply, Fin.ofNat, id_eq]
    omega

theorem decimal_injective : Function.Injective decimal := by
  intro m n h
  have hdig := (digits_of_decimal m).symm.trans ((congrArg _ (congrArg _ h)).trans
    (digits_of_decimal n))
  have hzero : ∀ k, k ≠ 0 → Nat.digits 10 k ≠ [0] := by
    intro k hk h0
    have := congrArg (Nat.ofDigits 10) h0
    rw [Nat.ofDigits_digits] at this
    exact hk (by simpa using this)
  by_cases hm : m = 0 <;> by_cases hn : n = 0
  · rw [hm, hn]
  · exact absurd (by simpa [hm, hn] using hdig.symm) (hzero n hn)
  · exact absurd (by simpa [hm, hn] using hdig) (hzero m hm)
  · rw [if_neg hm, if_neg hn] at hdig
    exact Nat.digits_inj_iff.mp hdig

theorem decimalInt_injective : Function.Injective decimalInt := by
  have hminus : ∀ m k, decimal m ≠ lit "-" ++ decimal k := by
    intro m k h
    have hmem : (45 : CodePoint) ∈ decimal m := by
      rw [h]
      exact List.mem_append_left _ (by decide)
    exact absurd (all_isDigit_decimal m _ hmem) (by decide)
  intro m n h
  cases m <;> cases n <;> simp only [decimalInt] at h
  · rw [decimal_injective h]
  · exact absurd h (hminus _ _)
  · exact absurd h.symm (hminus _ _)
  · have := decimal_injective (List.append_cancel_left h)
    rw [Nat.succ.inj this]

/-! ## Lenient URL-safe Base64 -/

/-- The six bits of an octet of the URL-safe or the standard alphabet. -/
def base64Value (b : UInt8) : Option Nat :=
  let n := b.toNat
  if 65 ≤ n ∧ n ≤ 90 then some (n - 65)
  else if 97 ≤ n ∧ n ≤ 122 then some (n - 71)
  else if 48 ≤ n ∧ n ≤ 57 then some (n + 4)
  else if n = 43 ∨ n = 45 then some 62
  else if n = 47 ∨ n = 95 then some 63
  else none

/-- State of the decoder: the position in the current quad, the bits left over from the last
character, the padding characters seen in a row, and the octets decoded so far. -/
structure Base64State where
  quadPos : Nat
  leftchar : Nat
  pads : Nat
  out : Bytes

/-- Decode the remaining octets.  Characters outside the alphabet are skipped; a padding that
completes a quad ends the input. -/
def base64Loop : Base64State → Bytes → Except Str Bytes
  | st, [] =>
      if st.quadPos = 0 then .ok st.out
      else if st.quadPos = 1 then
        .error (lit "Invalid base64-encoded string: number of data characters (" ++
          decimal (st.out.length / 3 * 4 + 1) ++
          lit ") cannot be 1 more than a multiple of 4")
      else .error (lit "Incorrect padding")
  | st, b :: rest =>
      if b.toNat = 61 then
        if 2 ≤ st.quadPos then
          if 4 ≤ st.quadPos + (st.pads + 1) then .ok st.out
          else base64Loop { st with pads := st.pads + 1 } rest
        else base64Loop st rest
      else
        match base64Value b with
        | none => base64Loop st rest
        | some v =>
            match st.quadPos with
            | 0 => base64Loop ⟨1, v, 0, st.out⟩ rest
            | 1 => base64Loop ⟨2, v % 16, 0, st.out ++ [UInt8.ofNat (st.leftchar * 4 + v / 16)]⟩ rest
            | 2 => base64Loop ⟨3, v % 4, 0, st.out ++ [UInt8.ofNat (st.leftchar * 16 + v / 4)]⟩ rest
            | _ => base64Loop ⟨0, 0, 0, st.out ++ [UInt8.ofNat (st.leftchar * 64 + v)]⟩ rest

/-- `base64.urlsafe_b64decode`; the error is the text of `binascii.Error`. -/
def urlsafeB64decode (b : Bytes) : Except Str Bytes := base64Loop ⟨0, 0, 0, []⟩ b

example : (encodeUtf8 (lit "aGVsbG8=")).map urlsafeB64decode =
    (encodeUtf8 (lit "hello")).map .ok := by rfl

end Python
