import AuditSwarm.Model.Dump

/-!
# Account-ID redaction

`evidence.py`: `_ACCOUNT_ID_RE`, which finds twelve-digit account IDs in a text, `_UUID_RE`, and the
redaction of a text and of collection metadata.
-/

namespace AuditSwarm

open Python

/-- What `evidence.py` uses of the `re` module and of the `cryptography` package. -/
structure VaultLibrary where
  /-- `\d`: a Unicode decimal digit -/
  digit : CodePoint → Bool
  /-- `Fernet(key).encrypt(data).decode("ascii")`; the number stands for the time and the random
  vector a token is made with -/
  encrypt : Bytes → Nat → Bytes → Str
  /-- `Fernet(key).decrypt(token)`; `none` is an `InvalidToken` -/
  decrypt : Bytes → Str → Option Bytes
  /-- On ASCII text `\d` is a digit from 0 to 9. -/
  digit_ascii : ∀ c : CodePoint, c.val < 128 → digit c = isDigit c
  /-- A token is base64 text. -/
  isAscii_encrypt : ∀ key n data, isAscii (encrypt key n data) = true
  /-- Decryption undoes encryption. -/
  decrypt_encrypt : ∀ key n data, decrypt key (encrypt key n data) = some data

namespace Evidence

variable (lib : VaultLibrary)

/-! ## Patterns -/

/-- What is left of a text after one character for each test. -/
def afterTests : List (CodePoint → Bool) → Str → Option Str
  | [], t => some t
  | _ :: _, [] => none
  | p :: ps, c :: t => if p c then afterTests ps t else none

/-- A hexadecimal digit of `_UUID_RE`. -/
def isHexDigit (c : CodePoint) : Bool :=
  isDigit c || (65 ≤ c.val && c.val ≤ 70) || (97 ≤ c.val && c.val ≤ 102)

def isHyphen (c : CodePoint) : Bool := c = 45

def grouped (p : CodePoint → Bool) (first : Nat) (rest : List Nat) : List (CodePoint → Bool) :=
  List.replicate first p ++ rest.flatMap fun n => isHyphen :: List.replicate n p

/-- `_UUID_RE.fullmatch` -/
def isUuid (s : Str) : Bool := afterTests (grouped isHexDigit 8 [4, 4, 4, 12]) s = some []

/-- Tests passed up to a place that no digit follows. -/
def matchesAt (tests : List (CodePoint → Bool)) (t : Str) : Bool :=
  match afterTests tests t with
  | none => false
  | some rest => !rest.head?.any lib.digit

/-- The number of characters of the account ID a text starts with: twelve digits, bare or in three
groups. -/
def accountIdLength (t : Str) : Option Nat :=
  if matchesAt lib (grouped lib.digit 12 []) t then some 12
  else if matchesAt lib (grouped lib.digit 4 [4, 4]) t then some 14
  else none

/-! ## Redaction -/

def redacted : Str := lit "[REDACTED]"

/-- `re.sub` from a place in a text: whether a digit stands before it, and how many characters of
a match are still to be passed. -/
def redactFrom : Bool → Nat → Str → Str
  | _, _, [] => []
  | _, skip + 1, c :: t => redactFrom (lib.digit c) skip t
  | afterDigit, 0, c :: t =>
      match if afterDigit then none else accountIdLength lib (c :: t) with
      | none => c :: redactFrom (lib.digit c) 0 t
      | some n => redacted ++ redactFrom (lib.digit c) (n - 1) t

def redactAccountIds (text : Str) : Str := redactFrom lib false 0 text

mutual

def sanitizeMetadata : Json → Json
  | .str s => .str (redactAccountIds lib s)
  | .obj kvs => .obj (sanitizeMembers kvs)
  | .arr xs => .arr (sanitizeElems xs)
  | .null => .null
  | .bool b => .bool b
  | .int n => .int n
  | .float r => .float r

def sanitizeElems : List Json → List Json
  | [] => []
  | x :: xs => sanitizeMetadata x :: sanitizeElems xs

def sanitizeMembers : List (Str × Json) → List (Str × Json)
  | [] => []
  | (k, v) :: kvs => (k, sanitizeMetadata v) :: sanitizeMembers kvs

end

end Evidence

end AuditSwarm
