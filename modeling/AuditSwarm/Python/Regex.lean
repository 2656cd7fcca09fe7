import AuditSwarm.Python.Text

/-!
# Regular expressions

A backtracking matcher for the part of `re` that the program uses: greedy repetition, one group,
word boundaries and look-around of one character.  A match attempt lists the ways it can end, in
the order in which `re` tries them.
-/

namespace Python

/-- What `re` takes from the Unicode database. -/
structure CharClasses where
  /-- `\d` -/
  digit : CodePoint → Bool
  /-- `\w` -/
  word : CodePoint → Bool
  /-- Two characters that `re.IGNORECASE` does not tell apart -/
  sameLetter : CodePoint → CodePoint → Bool

def CharClasses.ascii : CharClasses where
  digit c := 48 ≤ c.val && c.val ≤ 57
  word c := (48 ≤ c.val && c.val ≤ 57) || (65 ≤ c.val && c.val ≤ 90) || c.val = 95 ||
    (97 ≤ c.val && c.val ≤ 122)
  sameLetter a b :=
    let lower (c : CodePoint) := if 65 ≤ c.val && c.val ≤ 90 then c.val + 32 else c.val
    lower a = lower b

inductive Regex where
  | empty
  | one (p : CodePoint → Bool)
  | seq (r s : Regex)
  | alt (r s : Regex)
  | star (r : Regex)
  | group (r : Regex)
  /-- `\b` -/
  | boundary
  /-- No character that passes the test stands before. -/
  | notAfter (p : CodePoint → Bool)
  /-- No character that passes the test follows. -/
  | notBefore (p : CodePoint → Bool)

namespace Regex

/-! ## Matching -/

/-- A place in a text, with the text of the group matched so far. -/
structure Cursor where
  before : Option CodePoint
  rest : Str
  group : Option Str

/-- Repeat a match as often as possible, then less often; each round passes a character. -/
def repeatFrom (step : Cursor → List Cursor) : Nat → Cursor → List Cursor
  | 0, c => [c]
  | n + 1, c =>
      ((step c).filter fun d => d.rest.length < c.rest.length).flatMap (repeatFrom step n) ++ [c]

def run (word : CodePoint → Bool) : Regex → Cursor → List Cursor
  | empty, c => [c]
  | one p, c =>
      match c.rest with
      | [] => []
      | x :: t => if p x then [{ c with before := some x, rest := t }] else []
  | seq r s, c => (run word r c).flatMap (run word s)
  | alt r s, c => run word r c ++ run word s c
  | star r, c => repeatFrom (run word r) c.rest.length c
  | group r, c =>
      (run word r c).map fun d =>
        { d with group := some (c.rest.take (c.rest.length - d.rest.length)) }
  | boundary, c => if c.before.any word ≠ c.rest.head?.any word then [c] else []
  | notAfter p, c => if c.before.any p then [] else [c]
  | notBefore p, c => if c.rest.head?.any p then [] else [c]

def searchFrom (word : CodePoint → Bool) (r : Regex) : Option CodePoint → Str → Option Cursor
  | before, [] => (run word r ⟨before, [], none⟩).head?
  | before, x :: t =>
      match (run word r ⟨before, x :: t, none⟩).head? with
      | some d => some d
      | none => searchFrom word r (some x) t

/-- `re.search` -/
def search (word : CodePoint → Bool) (r : Regex) (text : Str) : Option Cursor :=
  searchFrom word r none text

/-- `re.search(…) is not None` -/
def occursIn (word : CodePoint → Bool) (r : Regex) (text : Str) : Bool :=
  (search word r text).isSome

/-- `re.search(…).group(1)` -/
def firstGroup (word : CodePoint → Bool) (r : Regex) (text : Str) : Option Str :=
  (search word r text).bind Cursor.group

/-- `re.findall` of a pattern with a group that matches no empty text. -/
def findAllFrom (word : CodePoint → Bool) (r : Regex) : Nat → Option CodePoint → Str → List Str
  | 0, _, _ => []
  | n + 1, before, text =>
      match searchFrom word r before text with
      | none => []
      | some d => (d.group.getD []) :: findAllFrom word r n d.before d.rest

def findAll (word : CodePoint → Bool) (r : Regex) (text : Str) : List Str :=
  findAllFrom word r text.length none text

/-- `re.fullmatch(…) is not None` -/
def matchesAll (word : CodePoint → Bool) (r : Regex) (text : Str) : Bool :=
  (run word r ⟨none, text, none⟩).any fun d => d.rest = []

/-! ## Building patterns -/

def concat : List Regex → Regex
  | [] => empty
  | [r] => r
  | r :: rs => seq r (concat rs)

def anyOf : List Regex → Regex
  | [] => one fun _ => false
  | [r] => r
  | r :: rs => alt r (anyOf rs)

/-- `r+` -/
def plus (r : Regex) : Regex := seq r (star r)

/-- `r?` -/
def opt (r : Regex) : Regex := alt r empty

/-- `r{n}` -/
def times (n : Nat) (r : Regex) : Regex := concat (List.replicate n r)

/-- `r{0,n}` -/
def upTo (r : Regex) : Nat → Regex
  | 0 => empty
  | n + 1 => opt (seq r (upTo r n))

/-- A text of the pattern, with the characters it takes for each of its own. -/
def text (same : CodePoint → CodePoint → Bool) (s : String) : Regex :=
  concat ((lit s).map fun c => one (same c))

def exactly (s : String) : Regex := text (fun a b => a = b) s

/-- `[…]` -/
def oneOf (s : String) : Regex := one fun c => c ∈ lit s

/-- `\s` -/
def space : Regex := one isSpace

end Regex

example : Regex.findAll CharClasses.ascii.word (.concat [.boundary,
    .group (.plus (.one CharClasses.ascii.digit)), .boundary]) (lit "12 a3 45") =
    [lit "12", lit "45"] := by decide +kernel

end Python
