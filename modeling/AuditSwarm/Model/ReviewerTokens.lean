import AuditSwarm.Lib.Run
import AuditSwarm.Model.Policy
import AuditSwarm.Python.Lines

/-!
# Reviewer tokens

`reviewer_tokens.py`: the tokens file, the lookup of a token and the commands that issue, replace
and revoke one.  The file is modelled by the JSON value it holds; the text of a command line has no
surrogate pair, so that such a value reads back as it was written.
-/

namespace AuditSwarm

open Python

inductive TokensError where
  | reviewerTokens (message : Str)
  | unicodeEncode
  deriving DecidableEq

structure ReviewerEntry where
  name : Str
  tokenHash : Str
  createdAt : Str
  deriving DecidableEq

structure ReviewerRegistry where
  entries : List ReviewerEntry
  deriving DecidableEq

namespace ReviewerTokens

def maxTokenLength : Nat := 256
def maxNameLength : Nat := 200

structure UrlsafeText where
  text : Str
  ascii : isAscii text = true
  length_eq : text.length = 43
  deriving DecidableEq

/-- `generate_token`, given what `secrets` returns -/
def generateToken (random : UrlsafeText) : Str := lit "grcrt_" ++ random.text

def cleanName (value : Str) : Str := join (lit " ") (words value)

/-- `_clean_name` -/
def cleanField : Option Json → Str
  | some (.str s) => cleanName s
  | _ => []

/-- `[0-9a-f]` -/
def isHashDigit (c : CodePoint) : Bool :=
  (48 ≤ c.val && c.val ≤ 57) || (97 ≤ c.val && c.val ≤ 102)

/-- `_HASH_RE`, whose `$` also stands before a line feed at the end -/
def isTokenHash (s : Str) : Bool :=
  (lit "sha256:").isPrefixOf s && ((s.drop 7).take 64).all isHashDigit &&
    (s.length = 71 || (s.length = 72 && s.getLast? = some 10))

section
variable (rt : Runtime)

def hashToken (token : Str) : Except TokensError Str :=
  match encodeUtf8 token with
  | none => .error .unicodeEncode
  | some data => .ok (lit "sha256:" ++ hexdigest (rt.sha256 data).val)

/-- `normalise_identity` -/
def nameKey (name : Str) : Str := Policy.normaliseIdentity rt (some name)

/-! ## Lookup -/

/-- The loop of `authenticate`: `match` is the last entry that matched. -/
def lookup (provided : Str) : Option Str → List ReviewerEntry → Except TokensError (Option Str)
  | found, [] => .ok found
  | found, e :: entries =>
      if isAscii e.tokenHash then
        lookup provided (if provided = e.tokenHash then some e.name else found) entries
      else .error .unicodeEncode

def authenticate (registry : ReviewerRegistry) (token : Option Str) :
    Except TokensError (Option Str) :=
  let given := token.getD []
  if given = [] ∨ maxTokenLength < given.length then .ok none
  else (hashToken rt given).bind fun provided => lookup provided none registry.entries

/-! ## The tokens file -/

def isFileVersion : Option Json → Bool
  | some (.int n) => n = 1
  | some (.bool b) => b
  | some (.float r) => r.text = lit "1.0"
  | _ => false

/-- `repr` of a value that was read -/
def reprOf : Option Json → Str
  | none => lit "None"
  | some (.str s) => rt.reprStr s
  | some v => rt.textOf v

/-- `reviewers[{i}]` -/
def itemLabel (i : Nat) : Str := lit "reviewers[" ++ decimal i ++ lit "]"

def invalid {α : Type} (message : Str) : Except TokensError α := .error (.reviewerTokens message)

/-- One entry of the file, given the keys and the digests of those before it. -/
def parseItem (i : Nat) (names hashes : List Str) : Json → Except TokensError ReviewerEntry
  | .obj item =>
      let name := cleanField (Dict.get? item (lit "name"))
      if name = [] then invalid (itemLabel i ++ lit " has no name")
      else if maxNameLength < name.length then invalid (itemLabel i ++ lit " name is too long")
      else
        match Dict.get? item (lit "token_hash") with
        | some (.str tokenHash) =>
            if isTokenHash tokenHash then
              if nameKey rt name ∈ names then invalid (itemLabel i ++ lit ": duplicate name")
              else if tokenHash ∈ hashes then
                invalid (itemLabel i ++ lit ": duplicate token_hash")
              else
                .ok ⟨name, tokenHash,
                  match Dict.get? item (lit "created_at") with
                  | some (.str created) => created
                  | _ => []⟩
            else invalid (itemLabel i ++ lit " token_hash must be 'sha256:' and 64 hex digits")
        | _ => invalid (itemLabel i ++ lit " token_hash must be 'sha256:' and 64 hex digits")
  | _ => invalid (itemLabel i ++ lit " must be an object")

/-- The loop of `parse_registry`. -/
def parseFrom : Nat → List Str → List Str → List Json → Except TokensError (List ReviewerEntry)
  | _, _, _, [] => .ok []
  | i, names, hashes, item :: raw =>
      (parseItem rt i names hashes item).bind fun e =>
        (parseFrom (i + 1) (nameKey rt e.name :: names) (e.tokenHash :: hashes) raw).map (e :: ·)

def parseRegistry : Json → Except TokensError ReviewerRegistry
  | .obj data =>
      let version := Dict.get? data (lit "version")
      if isFileVersion version then
        match Dict.get? data (lit "reviewers") with
        | some (.arr raw) => (parseFrom rt 0 [] [] raw).map (⟨·⟩)
        | _ => invalid (lit "'reviewers' must be a list")
      else
        invalid (lit "unsupported tokens file version " ++ reprOf rt version ++
          lit " (expected 1)")
  | _ => invalid (lit "the tokens file must hold a JSON object")

/-- The registry of a file; without a file there are no entries. -/
def currentRegistry : Option Json → Except TokensError ReviewerRegistry
  | none => .ok ⟨[]⟩
  | some data => parseRegistry rt data

def itemOf (e : ReviewerEntry) : Json :=
  .obj [(lit "created_at", .str e.createdAt), (lit "name", .str e.name),
    (lit "token_hash", .str e.tokenHash)]

def fileOf (reviewers : List ReviewerEntry) : Json :=
  .obj [(lit "reviewers", .arr (reviewers.map itemOf)), (lit "version", .int 1)]

def writeAtomic (reviewers : List ReviewerEntry) : Except TokensError Json :=
  (parseRegistry rt (fileOf reviewers)).map fun _ => fileOf reviewers

/-! ## Commands -/

/-- The entries of another reviewer than the one with the given key. -/
def others (key : Str) (reviewers : List ReviewerEntry) : List ReviewerEntry :=
  reviewers.filter fun r => nameKey rt r.name ≠ key

/-- `add_reviewer`: the token and the new content of the file -/
def addReviewer (file : Option Json) (name : Str) (replace : Bool) (random : UrlsafeText)
    (now : Str) : Except TokensError (Str × Json) :=
  let name := cleanName name
  if name = [] then invalid (lit "the reviewer name must not be blank")
  else if maxNameLength < name.length then invalid (lit "the reviewer name is too long")
  else
    (currentRegistry rt file).bind fun registry =>
      match registry.entries.find? (nameKey rt ·.name = nameKey rt name), replace with
      | some existing, false =>
          invalid (lit "'" ++ existing.name ++ lit "' already has a token; use --replace to " ++
            lit "issue a new one (the old token stops working)")
      | _, _ =>
          let token := generateToken random
          (hashToken rt token).bind fun tokenHash =>
            (writeAtomic rt (others rt (nameKey rt name) registry.entries ++
              [⟨name, tokenHash, now⟩])).map fun data => (token, data)

/-- `remove_reviewer`: the new content of the file, if the name had a token -/
def removeReviewer (file : Option Json) (name : Str) : Except TokensError (Option Json) :=
  (currentRegistry rt file).bind fun registry =>
    let kept := others rt (nameKey rt name) registry.entries
    if kept.length = registry.entries.length then .ok none
    else (writeAtomic rt kept).map some

/-- A command, with what `secrets` and the clock return to it. -/
inductive Command where
  | add (name : Str) (replace : Bool) (random : UrlsafeText) (now : Str)
  | remove (name : Str)

inductive Outcome where
  | issued (token : Str)
  | removed
  | noToken
  | refused (e : TokensError)

/-- `main` with one command: what it reports and the file after it. -/
def runCommand (file : Option Json) : Command → Outcome × Option Json
  | .add name replace random now =>
      match addReviewer rt file name replace random now with
      | .ok (token, data) => (.issued token, some data)
      | .error e => (.refused e, file)
  | .remove name =>
      match removeReviewer rt file name with
      | .ok (some data) => (.removed, some data)
      | .ok none => (.noToken, file)
      | .error e => (.refused e, file)

end

end ReviewerTokens

end AuditSwarm
