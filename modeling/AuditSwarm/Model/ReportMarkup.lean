import AuditSwarm.Lib.Replace
import AuditSwarm.Python.Regex

/-!
# Images in exported reports

`sanitize_report` of `exports.py`, which takes the images out of model-written text.
-/

namespace AuditSwarm

open Python

namespace Exports

def afterFirst (c : CodePoint) : Str → Option Str
  | [] => none
  | d :: s => if d = c then some s else afterFirst c s

/-- What follows `\([^)]*\)` or `\[[^\]]*\]`, the two targets of `_MD_IMAGE`. -/
def mdTargetAt : Str → Option Str
  | 40 :: s => afterFirst 41 s
  | 91 :: s => afterFirst 93 s
  | _ => none

/-- `_MD_IMAGE` at the start of a text, as the text after the match.  Each class of the pattern
leaves out the character that ends it, so that there is one way to match. -/
def mdImageAt : Str → Option Str
  | 33 :: 91 :: s => (afterFirst 93 s).bind mdTargetAt
  | _ => none

/-- `_HTML_IMG` at the start of a text, as the text after the match; a `\b` after a letter. -/
def htmlImageAt (cls : CharClasses) : Str → Option Str
  | 60 :: i :: m :: g :: s =>
      if cls.sameLetter 105 i && cls.sameLetter 109 m && cls.sameLetter 103 g &&
          !(s.head?.any cls.word) then
        afterFirst 62 s
      else none
  | _ => none

def imageRemoved : Str := lit "[Image removed for security]"

def sanitizeReport (cls : CharClasses) (text : Str) : Str :=
  Replace.replaceAll (htmlImageAt cls) imageRemoved
    (Replace.replaceAll mdImageAt imageRemoved text)

example : sanitizeReport CharClasses.ascii (lit "a ![x](y) <IMG src=z> b") =
    lit "a [Image removed for security] [Image removed for security] b" := by decide +kernel

end Exports

end AuditSwarm
