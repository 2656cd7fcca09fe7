import AuditSwarm.Lib.Dict
import AuditSwarm.Model.Delimiters
import AuditSwarm.Python.Runtime

/-!
# Findings of security tools

What the two imports of `findings_checks.py` share: the cleaning of a field, severities and counts.
-/

namespace AuditSwarm

open Python

/-- What the imports take from the Unicode database. -/
structure FindingsLibrary where
  /-- `unicodedata.category(ch).startswith("C")` -/
  otherCategory : CodePoint → Bool
  /-- `str.upper` -/
  upper : Str → Str

/-- `str.upper` on an ASCII code point. -/
def upperAscii (c : CodePoint) : CodePoint :=
  if 97 ≤ c.val ∧ c.val ≤ 122 then Fin.ofNat _ (c.val - 32) else c

def FindingsLibrary.ascii : FindingsLibrary where
  otherCategory c := c.val < 32 || c.val = 127
  upper s := s.map upperAscii

namespace Findings

variable (rt : Runtime) (flib : FindingsLibrary)

def maxDetailLines : Nat := 300

def truncateDetail : Nat := 240
def truncateShort : Nat := 64
def truncateResource : Nat := 512

def honestyNote : Str :=
  lit "This import reflects what the scanning tool reported at the time it " ++
    lit "ran (or, for Security Hub, at the time this read was made): a PASS/" ++
    lit "PASSED result is configuration and implementation evidence (test of " ++
    lit "design), not proof that the control operated effectively over a " ++
    lit "period. Severities and pass/fail results are the tool's own " ++
    lit "classification, not an audit deficiency rating — that classification " ++
    lit "is made later by the auditor, and (per engagement severity) by " ++
    lit "Reporting."

/-! ## Fields -/

/-- What `clean_field` keeps of a character. -/
def cleanChar (c : CodePoint) : Option CodePoint :=
  if isSpace c then some 32 else if flib.otherCategory c then none else some c

def cleanText (text : Str) (limit : Nat) : Str :=
  (join (lit " ") (words (shortenRuns ((text.take (limit * 4 + 64)).filterMap
    (cleanChar flib))))).take limit

def cleanField (value : Json) (limit : Nat) : Str := cleanText flib (rt.textOf value) limit

def cleanOptional (value : Option Json) (limit : Nat) : Option Str :=
  match value with
  | none | some .null | some (.str []) => none
  | some v => if cleanField rt flib v limit = [] then none else some (cleanField rt flib v limit)

/-- `a or b` -/
def orElse (a b : Option Json) : Option Json := if a.any Json.truthy then a else b

/-- `a or "…"` -/
def orText (a : Option Json) (text : Str) : Json := (orElse a none).getD (.str text)

/-- `a or "…"` for a text that may be missing -/
def orDefault (a : Option Str) (text : Str) : Str := if a.getD [] = [] then text else a.getD []

def dictField (rec : Dict Str Json) (key : Str) : Dict Str Json :=
  match rec.get? key with
  | some (.obj value) => value
  | _ => []

def listField (rec : Dict Str Json) (key : Str) : List Json :=
  match rec.get? key with
  | some (.arr value) => value
  | _ => []

def firstResource : List Json → Dict Str Json
  | .obj resource :: _ => resource
  | _ => []

def listText (xs : List Str) : Str :=
  lit "[" ++ join (lit ", ") (xs.map rt.reprStr) ++ lit "]"

def severityRanks : Dict Str Nat :=
  [(lit "critical", 0), (lit "high", 1), (lit "medium", 2), (lit "low", 3),
    (lit "informational", 4), (lit "info", 4)]

def severityRank (severity : Str) : Nat :=
  (severityRanks.get? (rt.lower severity)).getD severityRanks.length

/-! ## Counts -/

def statusCounts (statuses : List Str) : Dict Str Nat :=
  statuses.foldl (fun counts s => counts.set s ((counts.get? s).getD 0 + 1)) []

/-- `", ".join(f"{v} {k}" for k, v in sorted(counts.items()))` -/
def countsText (counts : Dict Str Nat) : Str :=
  join (lit ", ") (counts.sortByKey.map fun kv => decimal kv.2 ++ lit " " ++ kv.1)

/-- `groups.setdefault(key(x), []).append(x)` for each element -/
def groupBy {α : Type} (key : α → Str) (xs : List α) : Dict Str (List α) :=
  xs.foldl (fun groups x => groups.set (key x) ((groups.get? (key x)).getD [] ++ [x])) []

end Findings

end AuditSwarm
