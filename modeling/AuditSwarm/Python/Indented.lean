import AuditSwarm.Python.Json

/-!
# Indented JSON text

What `json.dump(value, file, indent=2)` writes: ASCII text in which every other character is
written as a `\u` escape, and the keys, numbers and strings that stand in it.
-/

namespace Python

namespace Json

/-! ## Literals -/

/-- `\uXXXX` of a number below 65536. -/
def unicodeEscape (n : Nat) : Str :=
  lit "\\u" ++ [hexDigit (n / 4096 % 16), hexDigit (n / 256 % 16), hexDigit (n / 16 % 16),
    hexDigit (n % 16)]

/-- A character that is written as a `\u` escape, or two of them. -/
def needsUnicodeEscape (c : CodePoint) : Bool :=
  !(32 ≤ c.val && c.val ≤ 126) && !(8 ≤ c.val && c.val ≤ 10) && c.val ≠ 12 && c.val ≠ 13

def escapeAscii (c : CodePoint) : Str :=
  if c = 34 then lit "\\\""
  else if c = 92 then lit "\\\\"
  else if c = 10 then lit "\\n"
  else if c = 13 then lit "\\r"
  else if c = 9 then lit "\\t"
  else if c = 8 then lit "\\b"
  else if c = 12 then lit "\\f"
  else if 32 ≤ c.val ∧ c.val ≤ 126 then [c]
  else if c.val < 0x10000 then unicodeEscape c.val
  else
    unicodeEscape (0xd800 + (c.val - 0x10000) / 1024) ++
      unicodeEscape (0xdc00 + (c.val - 0x10000) % 1024)

def literalBody (s : Str) : Str := s.flatMap escapeAscii

def literal (s : Str) : Str := 34 :: (literalBody s ++ [34])

/-! ## Values -/

def newline (level : Nat) : Str := 10 :: List.replicate (2 * level) 32

mutual

/-- The text of a value whose container stands at a level. -/
def indented (level : Nat) : Json → Str
  | .null => lit "null"
  | .bool true => lit "true"
  | .bool false => lit "false"
  | .int n => decimalInt n
  | .float r => r.text
  | .str s => literal s
  | .arr [] => lit "[]"
  | .arr (x :: xs) =>
      91 :: (newline (level + 1) ++ (indented (level + 1) x ++
        (indentedElems (level + 1) xs ++ (newline level ++ [93]))))
  | .obj [] => lit "\x7b\x7d"
  | .obj ((k, v) :: kvs) =>
      123 :: (newline (level + 1) ++ (literal k ++ (58 :: 32 :: (indented (level + 1) v ++
        (indentedMembers (level + 1) kvs ++ (newline level ++ [125]))))))

def indentedElems (level : Nat) : List Json → Str
  | [] => []
  | x :: xs => 44 :: (newline level ++ (indented level x ++ indentedElems level xs))

def indentedMembers (level : Nat) : List (Str × Json) → Str
  | [] => []
  | (k, v) :: kvs =>
      44 :: (newline level ++ (literal k ++ (58 :: 32 :: (indented level v ++
        indentedMembers level kvs))))

end

/-! ## What stands in a value -/

/-- A piece of the text of a value. -/
inductive Atom where
  | key (k : Str)
  | number (text : Str)
  | string (s : Str)

def Atom.text : Atom → Str
  | .key k => literal k
  | .number text => text
  | .string s => literal s

mutual

/-- The keys, numbers and strings of a value, at every depth. -/
def atoms : Json → List Atom
  | .null => []
  | .bool _ => []
  | .int n => [.number (decimalInt n)]
  | .float r => [.number r.text]
  | .str s => [.string s]
  | .arr xs => atomsElems xs
  | .obj kvs => atomsMembers kvs

def atomsElems : List Json → List Atom
  | [] => []
  | x :: xs => atoms x ++ atomsElems xs

def atomsMembers : List (Str × Json) → List Atom
  | [] => []
  | (k, v) :: kvs => .key k :: (atoms v ++ atomsMembers kvs)

end

/-! ## Characters of literals -/

/-- Without `\u` escapes a character is written as itself or as a backslash and a letter or
punctuation mark. -/
theorem escapeAscii_cases {c : CodePoint} (h : needsUnicodeEscape c = false) :
    (escapeAscii c = [c] ∧ 32 ≤ c.val ∧ c.val ≤ 126) ∨
      (isDigit c = false ∧ c ≠ 45 ∧ c.val < 128 ∧
        escapeAscii c ∈ [lit "\\\"", lit "\\\\", lit "\\n", lit "\\r", lit "\\t", lit "\\b",
          lit "\\f"]) := by
  unfold escapeAscii
  by_cases h34 : c = 34
  · rw [if_pos h34, h34]
    exact .inr (by decide)
  · rw [if_neg h34]
    by_cases h92 : c = 92
    · rw [if_pos h92, h92]
      exact .inr (by decide)
    · rw [if_neg h92]
      by_cases h10 : c = 10
      · rw [if_pos h10, h10]
        exact .inr (by decide)
      · rw [if_neg h10]
        by_cases h13 : c = 13
        · rw [if_pos h13, h13]
          exact .inr (by decide)
        · rw [if_neg h13]
          by_cases h9 : c = 9
          · rw [if_pos h9, h9]
            exact .inr (by decide)
          · rw [if_neg h9]
            by_cases h8 : c = 8
            · rw [if_pos h8, h8]
              exact .inr (by decide)
            · rw [if_neg h8]
              by_cases h12 : c = 12
              · rw [if_pos h12, h12]
                exact .inr (by decide)
              · rw [if_neg h12]
                have hrange : 32 ≤ c.val ∧ c.val ≤ 126 := by
                  simp only [needsUnicodeEscape, Bool.and_eq_false_iff, Bool.not_eq_eq_eq_not,
                    Bool.not_false, Bool.and_eq_true, decide_eq_true_eq, decide_eq_false_iff_not,
                    ne_eq, not_not] at h
                  have hval : ∀ n : CodePoint, c ≠ n → c.val ≠ n.val := fun n hne heq =>
                    hne (Fin.ext heq)
                  have h10' : c.val ≠ 10 := hval 10 h10
                  have h13' : c.val ≠ 13 := hval 13 h13
                  have h9' : c.val ≠ 9 := hval 9 h9
                  have h8' : c.val ≠ 8 := hval 8 h8
                  have h12' : c.val ≠ 12 := hval 12 h12
                  omega
                rw [if_pos hrange]
                exact .inl ⟨rfl, hrange⟩

end Json

end Python
