import AuditSwarm.Lib.Links
import AuditSwarm.Model.Vault

/-!
# Migration of legacy digests

`migrate_legacy_digests` of `evidence.py`: the records of the vault directory one after the other,
with the plain SHA-256 of each encrypted record replaced by the keyed digest.  The names of the
directory may be links: a record is read where its links end, and written under its own name.
-/

namespace Dict

variable {κ V : Type} [DecidableEq κ]

/-- What a partial function says of some keys. -/
def tabulate (keys : List κ) (f : κ → Option V) : Dict κ V :=
  keys.filterMap fun k => (f k).map (k, ·)

omit [DecidableEq κ] in
theorem keys_tabulate (keys : List κ) (f : κ → Option V) :
    (tabulate keys f).map Prod.fst = keys.filter fun k => (f k).isSome := by
  unfold tabulate
  induction keys with
  | nil => rfl
  | cons k keys ih =>
      cases h : f k with
      | none => simp [h, ih]
      | some v => simp [h, ih]

omit [DecidableEq κ] in
theorem nodup_keys_tabulate {keys : List κ} (f : κ → Option V) (h : keys.Nodup) :
    ((tabulate keys f).map Prod.fst).Nodup := by
  rw [keys_tabulate]
  exact h.filter _

theorem get?_tabulate (keys : List κ) (f : κ → Option V) (k : κ) :
    (tabulate keys f).get? k = if k ∈ keys then f k else none := by
  unfold tabulate
  induction keys with
  | nil => rfl
  | cons k' keys ih =>
      by_cases hk : k' = k
      · subst hk
        cases h : f k' with
        | none => simp [h, ih]
        | some v => simp [h, get?_cons]
      · have hne : k ≠ k' := Ne.symm hk
        cases h : f k' with
        | none => simp [h, ih, hne]
        | some v => simp [h, ih, get?_cons, hk, hne]

end Dict

namespace AuditSwarm

open Python

namespace Evidence

/-! ## The directory -/

/-- What a name of the vault directory is: a file or directory of its own, a link with what it leads
to elsewhere, or a link to a name of the directory. -/
inductive DirectoryItem where
  | own (entry : VaultEntry)
  | outer (entry : VaultEntry)
  | link (target : Str)

def DirectoryItem.entry? : DirectoryItem → Option VaultEntry
  | own entry => some entry
  | outer entry => some entry
  | link _ => none

def DirectoryItem.isLink : DirectoryItem → Bool
  | own _ => false
  | outer _ => true
  | link _ => true

/-- The vault directory with its links: each of its names once. -/
structure Directory where
  items : Dict Str DirectoryItem
  nodup : (items.map Prod.fst).Nodup

namespace Directory

def empty : Directory := ⟨[], List.nodup_nil⟩

def get? (directory : Directory) (name : Str) : Option DirectoryItem := directory.items.get? name

def put (directory : Directory) (name : Str) (item : DirectoryItem) : Directory :=
  ⟨directory.items.set name item, Dict.nodup_keys_set directory.nodup name item⟩

def remove (directory : Directory) (name : Str) : Directory :=
  ⟨directory.items.filterKeys (· ≠ name),
    directory.nodup.sublist (List.filter_sublist.map Prod.fst)⟩

/-- `sorted(os.listdir(evidence_dir))` -/
def names (directory : Directory) : List Str := (Dict.sortByKey directory.items).map Prod.fst

/-- The name a link leads to. -/
def next (directory : Directory) (name : Str) : Option Str :=
  match directory.get? name with
  | some (.link target) => some target
  | _ => none

/-- The name at the end of the links from a name; `none` for links that lead in a circle. -/
def resolve (directory : Directory) (name : Str) : Option Str :=
  Links.endOf directory.next (directory.items.length + 1) name

/-- What opening a name for reading opens. -/
def read (directory : Directory) (name : Str) : Option VaultEntry := do
  let last ← directory.resolve name
  let item ← directory.get? last
  item.entry?

/-- `os.path.exists` -/
def exists? (directory : Directory) (name : Str) : Bool := (directory.read name).isSome

/-- `open(path, "w")` and what is written to the file at the end of the links; `none` is an
`OSError`. -/
def write (directory : Directory) (name : Str) (file : Bool → VaultFile) : Option Directory :=
  match directory.resolve name with
  | none => none
  | some last =>
      match directory.get? last with
      | none => some (directory.put last (.own (.file (file true))))
      | some (.own (.file old)) => some (directory.put last (.own (.file (file old.inside))))
      | some (.outer (.file old)) => some (directory.put last (.outer (.file (file old.inside))))
      | some _ => none

/-- `os.replace`, for a target that is no directory. -/
def move (directory : Directory) (source target : Str) : Directory :=
  match directory.get? source with
  | none => directory
  | some item => (directory.remove source).put target item

/-- `if os.path.exists(path): os.remove(path)`.  To remove a directory is an `OSError`, which
leaves it. -/
def clear (directory : Directory) (name : Str) : Directory :=
  match directory.get? name with
  | some (.own .directory) => directory
  | _ => if directory.exists? name then directory.remove name else directory

/-- The files that the names of the directory lead to. -/
def vault (directory : Directory) : Vault where
  entries := Dict.tabulate (directory.items.map Prod.fst) directory.read
  nodup := Dict.nodup_keys_tabulate directory.read directory.nodup

end Directory

/-! ## Counts -/

/-- The count a record is reported in. -/
inductive Category where
  | migrated
  | alreadyKeyed
  | unencrypted
  | failed
  deriving DecidableEq, Repr

structure Counts where
  migrated : Nat
  alreadyKeyed : Nat
  unencrypted : Nat
  failed : Nat
  deriving DecidableEq

namespace Counts

def zero : Counts := ⟨0, 0, 0, 0⟩

def count (c : Counts) : Category → Counts
  | .migrated => { c with migrated := c.migrated + 1 }
  | .alreadyKeyed => { c with alreadyKeyed := c.alreadyKeyed + 1 }
  | .unencrypted => { c with unencrypted := c.unencrypted + 1 }
  | .failed => { c with failed := c.failed + 1 }

def of (c : Counts) : Category → Nat
  | .migrated => c.migrated
  | .alreadyKeyed => c.alreadyKeyed
  | .unencrypted => c.unencrypted
  | .failed => c.failed

end Counts

/-! ## The loop -/

variable (rt : Runtime) (lib : VaultLibrary)

/-- What reading a record leads to: a count, or the record to be written in its place. -/
inductive Examined where
  | counted (category : Category)
  | rewritten (record : Dict Str Json)

/-- A record with its plain digest replaced by a keyed one. -/
def rekeyed (record : Dict Str Json) (digest : Str) : Dict Str Json :=
  (record.filterKeys (· ≠ lit "sha256")).set (lit "hmac_sha256") (.str digest)

/-- The part of the loop body that reads the fields of a record. -/
def examineFields (keyB64 : Str) (key : Bytes) (record : Dict Str Json) :
    Except VaultError Examined :=
  if (truthyField record (lit "encrypted")).isNone then .ok (.counted .unencrypted)
  else if record.contains (lit "hmac_sha256") then .ok (.counted .alreadyKeyed)
  else do
    let payload ← Except.orRaise (record.get? (lit "raw_payload")) VaultError.keyError
    let text ← decryptPayload lib key payload
    let input := digestInput text (record.getD (lit "metadata") .null)
    let plain ← plainDigest rt (.str input)
    let stored ← Except.orRaise (record.get? (lit "sha256")) VaultError.keyError
    if !(← compareDigest plain (rt.textOf stored)) then return .counted .failed
    let digest ← keyedDigest rt (.str input) keyB64
    return .rewritten (rekeyed record digest)

/-- The part of the loop body that reads a record. -/
def examine (keyB64 : Str) (key : Bytes) (loaded : Json) : Except VaultError Examined :=
  match loaded with
  | .obj record => examineFields rt lib keyB64 key record
  | _ => .error .attributeError

/-- What the loop body makes of the record under a name. -/
def examinedAt (keyB64 : Str) (key : Bytes) (directory : Directory) (name : Str) :
    Except VaultError Examined := do
  let entry ← Except.orRaise (directory.read name) VaultError.osError
  let loaded ← Vault.load entry
  examine rt lib keyB64 key loaded

def temporaryName (name : Str) : Str := name ++ lit ".tmp"

/-- `json.dump(record, f, indent=2)` to the file under a name.  A record nested too deep for the
encoder (`.error`, with what it had written by then) is a `RecursionError`. -/
def writeRecord (dump : Json → Except Bytes Bytes) (directory : Directory) (name : Str)
    (record : Dict Str Json) : Except VaultError Unit × Directory :=
  match dump (.obj record) with
  | .ok bytes =>
      match directory.write name fun inside => ⟨inside, bytes, .ok (.obj record)⟩ with
      | none => (.error .osError, directory)
      | some directory' => (.ok (), directory')
  | .error bytes =>
      match directory.write name fun inside => ⟨inside, bytes, .error .notJson⟩ with
      | none => (.error .osError, directory)
      | some directory' => (.error .runtimeError, directory')

/-- Write a record to a temporary file next to its own, move it over, and clear up. -/
def replaceRecord (dump : Json → Except Bytes Bytes) (directory : Directory) (name : Str)
    (record : Dict Str Json) : Except VaultError Unit × Directory :=
  match writeRecord dump directory (temporaryName name) record with
  | (.ok (), directory') =>
      (.ok (), (directory'.move (temporaryName name) name).clear (temporaryName name))
  | (.error e, directory') => (.error e, directory'.clear (temporaryName name))

/-- The `except` clause of the loop body. -/
def countFailed (e : VaultError) : Except VaultError Category :=
  if e.counted then .ok .failed else .error e

def migrateRecord (dump : Json → Except Bytes Bytes) (keyB64 : Str) (key : Bytes)
    (directory : Directory) (name : Str) : Except VaultError Category × Directory :=
  match examinedAt rt lib keyB64 key directory name with
  | .error e => (countFailed e, directory)
  | .ok (.counted category) => (.ok category, directory)
  | .ok (.rewritten record) =>
      match replaceRecord dump directory name record with
      | (.error e, directory') => (countFailed e, directory')
      | (.ok (), directory') => (.ok .migrated, directory')

/-- `name.endswith(".json") and _UUID_RE.fullmatch(name[:-5])` -/
def isRecordName (name : Str) : Bool :=
  lit ".json" <:+ name && isUuid (name.take (name.length - 5))

/-- The records of a vault, in the order they are visited. -/
def recordNames (directory : Directory) : List Str := directory.names.filter isRecordName

def migrateLoop (dump : Json → Except Bytes Bytes) (keyB64 : Str) (key : Bytes) :
    List Str → Counts → Directory → Except VaultError Counts × Directory
  | [], counts, directory => (.ok counts, directory)
  | name :: rest, counts, directory =>
      match migrateRecord rt lib dump keyB64 key directory name with
      | (.error e, directory) => (.error e, directory)
      | (.ok category, directory) =>
          migrateLoop dump keyB64 key rest (counts.count category) directory

/-- `migrate_legacy_digests`: its counts, or what it raises, and the directory it leaves. -/
def migrateLegacyDigests (environ : Environ) (dump : Json → Except Bytes Bytes)
    (directory : Directory) : Except VaultError Counts × Directory :=
  match configuredKey environ with
  | none => (.error .runtimeError, directory)
  | some keyB64 =>
      match buildFernet keyB64 with
      | .error e => (.error e, directory)
      | .ok key =>
          migrateLoop rt lib dump keyB64 key (recordNames directory) .zero directory

end Evidence

end AuditSwarm
