import AuditSwarm.Python.Json

/-!
# The Python runtime

Functions of the standard library and of third-party packages that the program calls and whose
definition is not in the repository.  They are fields of a `Runtime`, which the whole model takes
as a parameter.
-/

namespace Python

inductive IntOfFloat where
  | value (n : Int)
  | valueError
  | overflowError
  deriving DecidableEq

abbrev Digest := { d : Bytes // d ≠ [] }

structure Runtime where
  /-- `hashlib.sha256(data).digest()` -/
  sha256 : Bytes → Digest
  /-- `hmac.new(key, msg, hashlib.sha256).digest()` -/
  hmacSha256 : Bytes → Bytes → Digest
  /-- `str.casefold` -/
  casefold : Str → Str
  /-- `str.lower` -/
  lower : Str → Str
  /-- `repr` of a `str` -/
  reprStr : Str → Str
  /-- `str` of a `list` or a `dict`, after its opening bracket -/
  containerText : Json → Str
  /-- `int(s)` for a `str`; `none` is a `ValueError` -/
  intOfStr : Str → Option Int
  /-- `int(x)` for a `float` -/
  intOfFloat : FloatRepr → IntOfFloat
  /-- `date.fromisoformat(s).isoformat()`; `none` is a `ValueError` -/
  isoDate : Str → Option Str
  /-- The `loc` and `msg` of the errors pydantic reports when the model of the given class does
  not accept the given values -/
  validationErrors : Str → Dict Str Json → List (Str × Str)
  /-- The text of pydantic's `ValidationError` for an assignment to the given field -/
  assignmentError : Str → Str

/-- What a digest is computed over: a message alone, or a message under a key. -/
inductive DigestInput where
  | plain (message : Bytes)
  | keyed (key message : Bytes)
  deriving DecidableEq

namespace DigestInput

def message : DigestInput → Bytes
  | plain m => m
  | keyed _ m => m

end DigestInput

namespace Runtime

variable (rt : Runtime)

/-- The digest of an input: SHA-256, or HMAC-SHA-256 under a key. -/
def digest : DigestInput → Bytes
  | .plain m => (rt.sha256 m).val
  | .keyed k m => (rt.hmacSha256 k m).val

theorem digest_ne_nil (x : DigestInput) : rt.digest x ≠ [] := by
  cases x with
  | plain m => exact (rt.sha256 m).property
  | keyed k m => exact (rt.hmacSha256 k m).property

/-- Digests are collision-free: equal digests are digests of equal messages. -/
def CollisionFree : Prop :=
  ∀ x y : DigestInput, rt.digest x = rt.digest y → x.message = y.message

/-- `str(x)`. -/
def textOf : Json → Str
  | .null => lit "None"
  | .bool true => lit "True"
  | .bool false => lit "False"
  | .int n => decimalInt n
  | .float r => r.text
  | .str s => s
  | .arr xs => 91 :: rt.containerText (.arr xs)
  | .obj kvs => 123 :: rt.containerText (.obj kvs)

@[simp] theorem textOf_str (s : Str) : rt.textOf (.str s) = s := rfl

/-- A value that is neither a list nor a dictionary. -/
def Scalar : Json → Prop
  | .arr _ => False
  | .obj _ => False
  | _ => True

/-- Only a list or a dictionary is rendered with a bracket. -/
theorem scalar_of_textOf {j : Json} (h : BracketFree (rt.textOf j)) : Scalar j := by
  cases j with
  | arr xs => exact absurd rfl (h 91 (by simp [textOf])).1
  | obj kvs => exact absurd rfl (h 123 (by simp [textOf])).2
  | _ => trivial

theorem eq_of_same_scalar {a b : Json} (ha : Scalar a) (h : Json.Same a b) : a = b := by
  unfold Json.Same at h
  cases a with
  | arr xs => cases ha
  | obj kvs => cases ha
  | _ => cases b <;> simp_all [Json.sortKeys]

/-! ## Runtimes to compute with -/

/-- `str.lower` on an ASCII code point. -/
def lowerAscii (c : CodePoint) : CodePoint :=
  if 65 ≤ c.val ∧ c.val ≤ 90 then Fin.ofNat _ (c.val + 32) else c

def intOfDigits (s : Str) : Option Int :=
  if s ≠ [] ∧ s.all isDigit then some (s.foldl (fun n c => 10 * n + (c.val - 48 : Nat)) 0 : Nat)
  else none

/-- A runtime with the given digests that reads and writes ASCII text. -/
def ascii (digest : DigestInput → Digest) : Runtime where
  sha256 m := digest (.plain m)
  hmacSha256 k m := digest (.keyed k m)
  casefold s := s.map lowerAscii
  lower s := s.map lowerAscii
  reprStr s := lit "'" ++ s ++ lit "'"
  containerText _ := []
  intOfStr := intOfDigits
  intOfFloat _ := .valueError
  isoDate s := some s
  validationErrors _ _ := []
  assignmentError field := lit "Input should be a valid " ++ field

/-- Digests that show what they cover: no two are equal. -/
def transparentDigest : DigestInput → Digest
  | .plain m => ⟨2 :: m, by simp⟩
  | .keyed k m => ⟨1 :: (k.flatMap (fun b => [1, b]) ++ 0 :: m), by simp⟩

def shortDigest (x : DigestInput) : Digest :=
  let mix (h : Nat) (b : UInt8) := (h * 257 + b.toNat + 1) % 18446744073709551557
  let h := match x with
    | .plain m => m.foldl mix 7
    | .keyed k m => m.foldl mix (k.foldl mix 11)
  ⟨(List.range 8).map fun i => UInt8.ofNat (h / 256 ^ i), by simp⟩

theorem keyed_framing {k k' m m' : Bytes}
    (h : k.flatMap (fun b => [1, b]) ++ 0 :: m = k'.flatMap (fun b => [1, b]) ++ 0 :: m') :
    k = k' ∧ m = m' := by
  induction k generalizing k' with
  | nil =>
      cases k' with
      | nil => exact ⟨rfl, (List.cons.inj h).2⟩
      | cons b k' =>
          rw [List.flatMap_cons] at h
          exact absurd (List.cons.inj h).1 (by decide)
  | cons b k ih =>
      cases k' with
      | nil =>
          rw [List.flatMap_cons] at h
          exact absurd (List.cons.inj h).1 (by decide)
      | cons b' k' =>
          simp only [List.flatMap_cons, List.cons_append, List.nil_append, List.cons.injEq,
            true_and] at h
          obtain ⟨hk, hm⟩ := ih h.2
          exact ⟨by rw [h.1, hk], hm⟩

theorem transparentDigest_injective : Function.Injective transparentDigest := by
  intro x y hxy
  have h := congrArg Subtype.val hxy
  cases x with
  | plain m =>
      cases y with
      | plain m' => rw [(List.cons.inj h).2]
      | keyed k' m' => exact absurd (List.cons.inj h).1 (by decide)
  | keyed k m =>
      cases y with
      | plain m' => exact absurd (List.cons.inj h).1 (by decide)
      | keyed k' m' =>
          obtain ⟨rfl, rfl⟩ := keyed_framing (List.cons.inj h).2
          rfl

theorem collisionFree_transparent : (ascii transparentDigest).CollisionFree := by
  intro x y h
  have hdigest : ∀ z, (ascii transparentDigest).digest z = (transparentDigest z).val := by
    intro z
    cases z <;> rfl
  rw [hdigest, hdigest] at h
  rw [transparentDigest_injective (Subtype.ext h)]

end Runtime

namespace Json

/-- Truth of a value, as `if x:` and `x or y` read it. -/
def truthy : Json → Bool
  | .null => false
  | .bool b => b
  | .int n => n != 0
  | .float r => r.text != lit "0.0" && r.text != lit "-0.0"
  | .str s => !s.isEmpty
  | .arr xs => !xs.isEmpty
  | .obj kvs => !kvs.isEmpty

end Json

end Python
