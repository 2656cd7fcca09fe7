import AuditSwarm.Lib.Returns
import AuditSwarm.Model.Migration
import AuditSwarm.Vault.Registration

/-!
# What the migration loop does

Lookups in a directory with links, what it takes to write a record through its temporary name, and
what a run of the loop leaves of the temporary names.
-/

namespace AuditSwarm

open Python

namespace Evidence

/-! ## Lookups -/

namespace Directory

variable {d d' : Directory} {name other last : Str} {item : DirectoryItem} {entry : VaultEntry}

@[simp] theorem get?_put_self (d : Directory) (name : Str) (item : DirectoryItem) :
    (d.put name item).get? name = some item :=
  Dict.get?_set_self d.items name item

theorem get?_put_of_ne (d : Directory) (item : DirectoryItem) (h : other ≠ name) :
    (d.put name item).get? other = d.get? other :=
  Dict.get?_set_of_ne d.items item h

@[simp] theorem get?_remove_self (d : Directory) (name : Str) :
    (d.remove name).get? name = none := by
  change (d.items.filterKeys (· ≠ name)).get? name = none
  apply Dict.get?_filterKeys_of_neg
  simp

theorem get?_remove_of_ne (d : Directory) (h : other ≠ name) :
    (d.remove name).get? other = d.get? other := by
  change (d.items.filterKeys (· ≠ name)).get? other = d.items.get? other
  apply Dict.get?_filterKeys_of_pos
  simpa using h

theorem mem_keys_iff : name ∈ d.items.map Prod.fst ↔ ∃ item, d.get? name = some item := by
  rw [List.mem_map]
  constructor
  · rintro ⟨⟨n, item⟩, hmem, rfl⟩
    exact ⟨item, (Dict.mem_iff_get? d.nodup).mp hmem⟩
  · rintro ⟨item, hitem⟩
    exact ⟨(name, item), Dict.mem_of_get? hitem, rfl⟩

theorem next_eq_some_iff {target : Str} :
    d.next name = some target ↔ d.get? name = some (.link target) := by
  unfold next
  split
  · simp [*]
  · rename_i hlink
    constructor
    · intro h
      cases h
    · exact fun h => absurd h (hlink target)

theorem next_eq_none (h : d.get? name = some item) (hitem : item.entry? = some entry) :
    d.next name = none := by
  unfold next
  rw [h]
  cases item with
  | own _ => rfl
  | outer _ => rfl
  | link _ => cases hitem

theorem next_eq_none_of_get? (h : d.get? name = none) : d.next name = none := by
  unfold next
  rw [h]

/-! ## Following links -/

theorem mem_keys_of_next (h : d.next name ≠ none) : name ∈ d.items.map Prod.fst := by
  rcases Option.ne_none_iff_exists'.mp h with ⟨target, htarget⟩
  exact mem_keys_iff.mpr ⟨_, next_eq_some_iff.mp htarget⟩

theorem resolve_eq_some_iff : d.resolve name = some last ↔ Links.Ends d.next name last := by
  unfold resolve
  rw [← List.length_map (f := Prod.fst)]
  exact Links.endOf_eq_some_iff fun m => mem_keys_of_next

theorem resolve_eq_none_iff : d.resolve name = none ↔ ∀ last, ¬ Links.Ends d.next name last := by
  simp only [Option.eq_none_iff_forall_ne_some, ne_eq, resolve_eq_some_iff]

theorem resolve_self (h : d.next name = none) : d.resolve name = some name :=
  resolve_eq_some_iff.mpr ⟨.refl, h⟩

theorem read_of_ends (h : Links.Ends d.next name last) :
    d.read name = (d.get? last).bind DirectoryItem.entry? := by
  unfold read
  rw [resolve_eq_some_iff.mpr h]
  rfl

theorem read_of_circle (h : d.resolve name = none) : d.read name = none := by
  unfold read
  rw [h]
  rfl

theorem read_of_get? (h : d.get? name = some item) (hitem : item.entry? = some entry) :
    d.read name = some entry := by
  rw [read_of_ends ⟨.refl, next_eq_none h hitem⟩, h]
  exact hitem

theorem read_eq_none_of_get? (h : d.get? name = none) : d.read name = none := by
  rw [read_of_ends ⟨.refl, next_eq_none_of_get? h⟩, h]
  rfl

theorem exists_of_read (h : d.read name = some entry) :
    ∃ last item, Links.Ends d.next name last ∧ d.get? last = some item ∧
      item.entry? = some entry := by
  cases hresolve : d.resolve name with
  | none =>
      rw [read_of_circle hresolve] at h
      cases h
  | some last =>
      have hends := resolve_eq_some_iff.mp hresolve
      rw [read_of_ends hends, Option.bind_eq_some_iff] at h
      rcases h with ⟨item, hitem, hentry⟩
      exact ⟨last, item, hends, hitem, hentry⟩

/-- What a name leads to is what every name on the way leads to. -/
theorem read_eq_of_passes (h : Links.Passes d.next name other) : d.read name = d.read other := by
  cases hresolve : d.resolve other with
  | some last =>
      have hends := resolve_eq_some_iff.mp hresolve
      rw [read_of_ends hends, read_of_ends ⟨h.trans hends.passes, hends.last⟩]
  | none =>
      rw [read_of_circle hresolve]
      apply read_of_circle
      rw [resolve_eq_none_iff] at hresolve ⊢
      exact fun last hends => hresolve last (hends.of_passes h)

theorem get?_vault (d : Directory) (name : Str) : d.vault.get? name = d.read name := by
  change (Dict.tabulate (d.items.map Prod.fst) d.read).get? name = d.read name
  rw [Dict.get?_tabulate]
  split
  · rfl
  · rename_i hmem
    cases hget : d.get? name with
    | none => rw [read_eq_none_of_get? hget]
    | some item => exact absurd (mem_keys_iff.mpr ⟨item, hget⟩) hmem

/-! ## Writing -/

/-- The name is a link. -/
def Linked (d : Directory) (name : Str) : Prop :=
  ∃ item, d.get? name = some item ∧ item.isLink = true

theorem next_put_file (h : d.next last = none) (hitem : item.entry? = some entry) :
    (d.put last item).next = d.next := by
  funext n
  by_cases hn : n = last
  · subst hn
    rw [h]
    exact next_eq_none (get?_put_self d n item) hitem
  · unfold next
    rw [get?_put_of_ne d item hn]

/-- What writing under a name changes: a file at the end of its links. -/
structure Wrote (d d' : Directory) (name last : Str) : Prop where
  ends : Links.Ends d.next name last
  file : ∃ item f, d' = d.put last item ∧ item.entry? = some (.file f) ∧
    (item.isLink = true → d.Linked last)

theorem exists_of_write {file : Bool → VaultFile} (h : d.write name file = some d') :
    ∃ last, Wrote d d' name last := by
  unfold write at h
  cases hresolve : d.resolve name with
  | none =>
      rw [hresolve] at h
      cases h
  | some last =>
      rw [hresolve] at h
      dsimp only at h
      refine ⟨last, resolve_eq_some_iff.mp hresolve, ?_⟩
      split at h
      · cases h
        exact ⟨_, _, rfl, rfl, fun hlink => by cases hlink⟩
      · cases h
        exact ⟨_, _, rfl, rfl, fun hlink => by cases hlink⟩
      · rename_i old hold
        cases h
        exact ⟨_, _, rfl, rfl, fun _ => ⟨_, hold, rfl⟩⟩
      · cases h

theorem Wrote.next_eq (h : Wrote d d' name last) : d'.next = d.next := by
  rcases h.file with ⟨item, f, rfl, hitem, -⟩
  exact next_put_file h.ends.last hitem

theorem Wrote.get?_of_ne (h : Wrote d d' name last) (hne : other ≠ last) :
    d'.get? other = d.get? other := by
  rcases h.file with ⟨item, f, rfl, -, -⟩
  exact get?_put_of_ne d item hne

theorem Wrote.linked (h : Wrote d d' name last) (hlinked : d'.Linked other) : d.Linked other := by
  rcases h.file with ⟨item, f, rfl, -, hlink⟩
  rcases hlinked with ⟨item', hitem', hlink'⟩
  by_cases hne : other = last
  · subst hne
    rw [get?_put_self, Option.some.injEq] at hitem'
    exact hlink (hitem' ▸ hlink')
  · rw [get?_put_of_ne d item hne] at hitem'
    exact ⟨item', hitem', hlink'⟩

theorem Wrote.read_eq (h : Wrote d d' name last) : ∃ f, d'.read name = some (.file f) := by
  have hnext := h.next_eq
  rcases h.file with ⟨item, f, rfl, hitem, -⟩
  have hends := h.ends
  rw [← hnext] at hends
  rw [read_of_ends hends, get?_put_self]
  exact ⟨f, hitem⟩

/-- The name that was written under exists. -/
theorem Wrote.get?_self (h : Wrote d d' name last) :
    ∃ item, d'.get? name = some item ∧ item ≠ .own .directory := by
  rcases h.file with ⟨item, f, rfl, hitem, -⟩
  by_cases hne : name = last
  · subst hne
    refine ⟨item, get?_put_self d name item, ?_⟩
    rintro rfl
    cases hitem
  · have hnext : d.next name ≠ none := fun hnone =>
      hne (h.ends.passes.eq_of_next_eq_none hnone).symm
    rcases Option.ne_none_iff_exists'.mp hnext with ⟨target, htarget⟩
    refine ⟨.link target, ?_, by simp⟩
    rw [get?_put_of_ne d item hne]
    exact next_eq_some_iff.mp htarget

/-! ## Clearing up -/

theorem clear_of_not_exists (h : d.exists? name = false) : d.clear name = d := by
  unfold clear
  rw [h]
  split
  · rfl
  · rfl

theorem clear_of_exists (h : d.exists? name = true) (hdir : d.get? name ≠ some (.own .directory)) :
    d.clear name = d.remove name := by
  unfold clear
  rw [h]
  split
  · exact absurd ‹_› hdir
  · rfl

theorem Linked.of_remove (h : (d.remove name).Linked other) : d.Linked other := by
  rcases h with ⟨item, hitem, hlink⟩
  by_cases hne : other = name
  · subst hne
    rw [get?_remove_self] at hitem
    cases hitem
  · rw [get?_remove_of_ne d hne] at hitem
    exact ⟨item, hitem, hlink⟩

theorem move_of_get? {source target : Str} (h : d.get? source = some item) :
    d.move source target = (d.remove source).put target item := by
  unfold move
  rw [h]

end Directory

/-! ## Replacing a record -/

variable {rt : Runtime} {lib : VaultLibrary} {dump : Json → Except Bytes Bytes} {keyB64 : Str}
  {key : Bytes} {d d' : Directory} {name m : Str} {r : Dict Str Json}

/-- The temporary name of a record cannot be written under, and stays as it is: it is a directory,
or a link that leads in a circle. -/
def Blocked (d : Directory) (name : Str) : Prop :=
  d.get? (temporaryName name) = some (.own .directory) ∨ d.resolve (temporaryName name) = none

theorem temporaryName_ne (name : Str) : temporaryName name ≠ name := by
  intro h
  have hlength := congrArg List.length h
  rw [temporaryName, List.length_append] at hlength
  have hpos : 0 < (lit ".tmp").length := by decide
  omega

theorem temporaryName_injective {m n : Str} (h : temporaryName m = temporaryName n) : m = n :=
  List.append_cancel_right h

theorem isRecordName_suffix (h : isRecordName name = true) : lit ".json" <:+ name := by
  unfold isRecordName at h
  simp only [Bool.and_eq_true, decide_eq_true_eq] at h
  exact h.1

theorem isRecordName_temporaryName (name : Str) : isRecordName (temporaryName name) = false := by
  by_contra h
  obtain ⟨l, hl⟩ := isRecordName_suffix (Bool.eq_true_of_not_eq_false h)
  have hlast := congrArg List.getLast? hl
  have hjson : (lit ".json").getLast? = some 110 := by decide
  have htmp : (lit ".tmp").getLast? = some 112 := by decide
  rw [temporaryName, List.getLast?_append, List.getLast?_append, hjson, htmp, Option.some_or,
    Option.some_or] at hlast
  exact absurd hlast (by decide)

theorem temporaryName_ne_of_record {n : Str} (h : isRecordName n = true) : temporaryName m ≠ n := by
  rintro rfl
  rw [isRecordName_temporaryName] at h
  cases h

theorem write_of_blocked (h : Blocked d name) (file : Bool → VaultFile) :
    d.write (temporaryName name) file = none := by
  unfold Directory.write
  rcases h with hdir | hcircle
  · rw [Directory.resolve_self (Directory.next_eq_none hdir rfl)]
    dsimp only
    rw [hdir]
  · rw [hcircle]

theorem clear_of_blocked (h : Blocked d name) :
    d.clear (temporaryName name) = d := by
  rcases h with hdir | hcircle
  · unfold Directory.clear
    rw [hdir]
  · apply Directory.clear_of_not_exists
    rw [Directory.exists?, Directory.read_of_circle hcircle]
    rfl

/-- What a blocked record comes to. -/
theorem replaceRecord_of_blocked (h : Blocked d name) (dump : Json → Except Bytes Bytes)
    (r : Dict Str Json) : replaceRecord dump d name r = (.error .osError, d) := by
  unfold replaceRecord writeRecord
  cases dump (.obj r) with
  | ok bytes => simp only [write_of_blocked h, clear_of_blocked h]
  | error bytes => simp only [write_of_blocked h, clear_of_blocked h]

/-- A write that fails although the name is not blocked: it leads to a directory. -/
theorem exists_of_write_eq_none {file : Bool → VaultFile} (h : ¬ Blocked d name)
    (hwrite : d.write (temporaryName name) file = none) :
    d.exists? (temporaryName name) = true ∧
      d.get? (temporaryName name) ≠ some (.own .directory) := by
  refine ⟨?_, fun hdir => h (.inl hdir)⟩
  unfold Directory.write at hwrite
  cases hresolve : d.resolve (temporaryName name) with
  | none => exact absurd (.inr hresolve) h
  | some last =>
      rw [hresolve] at hwrite
      dsimp only at hwrite
      have hends := Directory.resolve_eq_some_iff.mp hresolve
      cases hitem : d.get? last with
      | none =>
          rw [hitem] at hwrite
          cases hwrite
      | some item =>
          cases item with
          | link target =>
              have hnext := hends.last
              rw [Directory.next_eq_some_iff.mpr hitem] at hnext
              cases hnext
          | own entry =>
              rw [Directory.exists?, Directory.read_of_ends hends, hitem]
              rfl
          | outer entry =>
              rw [Directory.exists?, Directory.read_of_ends hends, hitem]
              rfl

/-- How an attempt to replace a record that is not blocked ends: nothing is written and the
temporary name is removed, or a file is written, and then moved over the record or removed. -/
inductive Replaced (d : Directory) (name : Str) : Directory → Prop where
  | removed : Replaced d name (d.remove (temporaryName name))
  | written (last : Str) (d' : Directory) (hwrote : d.Wrote d' (temporaryName name) last) :
      Replaced d name (d'.remove (temporaryName name))
  | moved (last : Str) (d' : Directory) (hwrote : d.Wrote d' (temporaryName name) last)
      (item : DirectoryItem) (hitem : d'.get? (temporaryName name) = some item) :
      Replaced d name ((d'.remove (temporaryName name)).put name item)

theorem clear_move {item : DirectoryItem} (hitem : d.get? (temporaryName name) = some item) :
    (d.move (temporaryName name) name).clear (temporaryName name) =
      (d.remove (temporaryName name)).put name item := by
  rw [Directory.move_of_get? hitem]
  apply Directory.clear_of_not_exists
  have hnone : ((d.remove (temporaryName name)).put name item).get? (temporaryName name) =
      none := by
    rw [Directory.get?_put_of_ne _ _ (temporaryName_ne name), Directory.get?_remove_self]
  rw [Directory.exists?, Directory.read_eq_none_of_get? hnone]
  rfl

theorem replaceRecord_replaced (h : ¬ Blocked d name) (dump : Json → Except Bytes Bytes)
    (r : Dict Str Json) : Replaced d name (replaceRecord dump d name r).2 := by
  unfold replaceRecord writeRecord
  cases dump (.obj r) with
  | ok bytes =>
      dsimp only
      split
      · rename_i hresult
        split at hresult
        · cases hresult
        · rename_i d₁ hwrite
          cases hresult
          rcases Directory.exists_of_write hwrite with ⟨last, hwrote⟩
          rcases hwrote.get?_self with ⟨item, hitem, -⟩
          dsimp only
          rw [clear_move hitem]
          exact .moved last _ hwrote item hitem
      · rename_i hresult
        split at hresult
        · rename_i hwrite
          cases hresult
          rcases exists_of_write_eq_none h hwrite with ⟨hexists, hdir⟩
          dsimp only
          rw [Directory.clear_of_exists hexists hdir]
          exact .removed
        · cases hresult
  | error bytes =>
      dsimp only
      split
      · rename_i hresult
        split at hresult
        · cases hresult
        · cases hresult
      · rename_i hresult
        split at hresult
        · rename_i hwrite
          cases hresult
          rcases exists_of_write_eq_none h hwrite with ⟨hexists, hdir⟩
          dsimp only
          rw [Directory.clear_of_exists hexists hdir]
          exact .removed
        · rename_i d₁ hwrite
          cases hresult
          rcases Directory.exists_of_write hwrite with ⟨last, hwrote⟩
          rcases hwrote.get?_self with ⟨item, hitem, hdir⟩
          rcases hwrote.read_eq with ⟨f, hread⟩
          dsimp only
          rw [Directory.clear_of_exists]
          · exact .written last _ hwrote
          · rw [Directory.exists?, hread]
            rfl
          · rw [hitem]
            simpa using hdir

/-- Nothing is left under the temporary name. -/
theorem Replaced.free (h : Replaced d name d') : d'.get? (temporaryName name) = none := by
  cases h with
  | removed => exact Directory.get?_remove_self _ _
  | written last d' _ => exact Directory.get?_remove_self _ _
  | moved last d' _ item _ =>
      rw [Directory.get?_put_of_ne _ _ (temporaryName_ne name), Directory.get?_remove_self]

/-- No link appears under a temporary name. -/
theorem Replaced.linked (h : Replaced d name d') (hname : isRecordName name = true)
    (hlinked : d'.Linked (temporaryName m)) : d.Linked (temporaryName m) := by
  cases h with
  | removed => exact hlinked.of_remove
  | written last d' hwrote => exact hwrote.linked hlinked.of_remove
  | moved last d' hwrote item _ =>
      rcases hlinked with ⟨item', hitem', hlink⟩
      rw [Directory.get?_put_of_ne _ _ (temporaryName_ne_of_record hname)] at hitem'
      exact hwrote.linked (Directory.Linked.of_remove ⟨item', hitem', hlink⟩)

/-- With no link under the temporary name, no other name but that of the record is touched. -/
theorem Replaced.get?_of_ne (h : Replaced d name d') (hlinked : ¬ d.Linked (temporaryName name))
    (hne : m ≠ name) (htmp : m ≠ temporaryName name) : d'.get? m = d.get? m := by
  have hself : ∀ last d', d.Wrote d' (temporaryName name) last → d'.get? m = d.get? m := by
    intro last d' hwrote
    have hnext : d.next (temporaryName name) = none := by
      by_contra hsome
      rcases Option.ne_none_iff_exists'.mp hsome with ⟨target, htarget⟩
      exact hlinked ⟨.link target, Directory.next_eq_some_iff.mp htarget, rfl⟩
    apply hwrote.get?_of_ne
    rwa [hwrote.ends.passes.eq_of_next_eq_none hnext]
  cases h with
  | removed => exact Directory.get?_remove_of_ne d htmp
  | written last d' hwrote =>
      rw [Directory.get?_remove_of_ne _ htmp]
      exact hself last d' hwrote
  | moved last d' hwrote item _ =>
      rw [Directory.get?_put_of_ne _ _ hne, Directory.get?_remove_of_ne _ htmp]
      exact hself last d' hwrote

/-- The file a record is written to. -/
def recordFile (bytes : Bytes) (r : Dict Str Json) : VaultFile := ⟨true, bytes, .ok (.obj r)⟩

/-- Replacing a record with nothing under its temporary name. -/
theorem replaceRecord_of_free {bytes : Bytes} (h : d.get? (temporaryName name) = none)
    (hdump : dump (.obj r) = .ok bytes) :
    ∃ d', replaceRecord dump d name r = (.ok (), d') ∧
      d'.get? name = some (.own (.file (recordFile bytes r))) ∧
      ∀ m, m ≠ name → d'.get? m = d.get? m := by
  have hwrite : ∀ file : Bool → VaultFile, d.write (temporaryName name) file =
      some (d.put (temporaryName name) (.own (.file (file true)))) := by
    intro file
    unfold Directory.write
    rw [Directory.resolve_self (Directory.next_eq_none_of_get? h)]
    dsimp only
    rw [h]
  refine ⟨((d.put (temporaryName name) (.own (.file (recordFile bytes r)))).remove
    (temporaryName name)).put name (.own (.file (recordFile bytes r))), ?_, ?_, ?_⟩
  · unfold replaceRecord writeRecord
    simp only [hdump, hwrite]
    rw [clear_move (Directory.get?_put_self _ _ _)]
    rfl
  · exact Directory.get?_put_self _ _ _
  · intro m hm
    rw [Directory.get?_put_of_ne _ _ hm]
    by_cases htmp : m = temporaryName name
    · subst htmp
      rw [Directory.get?_remove_self, h]
    · rw [Directory.get?_remove_of_ne _ htmp, Directory.get?_put_of_ne _ _ htmp]

/-- A record that is nested too deep to be written raises. -/
theorem replaceRecord_of_tooDeep {bytes : Bytes} (h : d.get? (temporaryName name) = none)
    (hdump : dump (.obj r) = .error bytes) :
    (replaceRecord dump d name r).1 = .error .runtimeError := by
  unfold replaceRecord writeRecord Directory.write
  rw [hdump, Directory.resolve_self (Directory.next_eq_none_of_get? h)]
  dsimp only
  rw [h]

/-! ## One record -/

theorem migrateRecord_of_error {e : VaultError}
    (h : examinedAt rt lib keyB64 key d name = .error e) :
    migrateRecord rt lib dump keyB64 key d name = (countFailed e, d) := by
  rw [migrateRecord, h]

theorem migrateRecord_of_counted {c : Category}
    (h : examinedAt rt lib keyB64 key d name = .ok (.counted c)) :
    migrateRecord rt lib dump keyB64 key d name = (.ok c, d) := by
  rw [migrateRecord, h]

theorem migrateRecord_of_blocked (h : examinedAt rt lib keyB64 key d name = .ok (.rewritten r))
    (hblocked : Blocked d name) :
    migrateRecord rt lib dump keyB64 key d name = (.ok .failed, d) := by
  rw [migrateRecord, h]
  dsimp only
  rw [replaceRecord_of_blocked hblocked]
  rfl

theorem migrateRecord_replaced (h : examinedAt rt lib keyB64 key d name = .ok (.rewritten r))
    (hblocked : ¬ Blocked d name) :
    Replaced d name (migrateRecord rt lib dump keyB64 key d name).2 := by
  have hreplaced := replaceRecord_replaced hblocked dump r
  rw [migrateRecord, h]
  dsimp only
  split
  · rename_i heq
    rwa [heq] at hreplaced
  · rename_i heq
    rwa [heq] at hreplaced

theorem countFailed_eq_ok_iff {e : VaultError} {c : Category} :
    countFailed e = .ok c ↔ e.counted = true ∧ c = .failed := by
  unfold countFailed
  cases e.counted with
  | true => simp [eq_comm]
  | false => simp

/-- A record leaves the directory as it is, or is replaced. -/
theorem migrateRecord_cases (rt : Runtime) (lib : VaultLibrary) (dump : Json → Except Bytes Bytes)
    (keyB64 : Str) (key : Bytes) (d : Directory) (name : Str) :
    (migrateRecord rt lib dump keyB64 key d name).2 = d ∨
      Replaced d name (migrateRecord rt lib dump keyB64 key d name).2 := by
  cases hexamined : examinedAt rt lib keyB64 key d name with
  | error e => exact .inl (by rw [migrateRecord_of_error hexamined])
  | ok examined =>
      cases examined with
      | counted c => exact .inl (by rw [migrateRecord_of_counted hexamined])
      | rewritten r =>
          by_cases hblocked : Blocked d name
          · exact .inl (by rw [migrateRecord_of_blocked hexamined hblocked])
          · exact .inr (migrateRecord_replaced hexamined hblocked)

theorem migrateRecord_linked (hname : isRecordName name = true)
    (h : (migrateRecord rt lib dump keyB64 key d name).2.Linked (temporaryName m)) :
    d.Linked (temporaryName m) := by
  rcases migrateRecord_cases rt lib dump keyB64 key d name with heq | hreplaced
  · rwa [heq] at h
  · exact hreplaced.linked hname h

/-! ## Temporary names in a run -/

section Loop

variable {names : List Str} {counts : Counts}

/-- The directory after the first records of a run. -/
theorem migrateLoop_cons (name : Str) (rest : List Str) (counts : Counts) (d : Directory) :
    (∃ e, (migrateRecord rt lib dump keyB64 key d name).1 = .error e ∧
      migrateLoop rt lib dump keyB64 key (name :: rest) counts d =
        (.error e, (migrateRecord rt lib dump keyB64 key d name).2)) ∨
    ∃ c, (migrateRecord rt lib dump keyB64 key d name).1 = .ok c ∧
      migrateLoop rt lib dump keyB64 key (name :: rest) counts d =
        migrateLoop rt lib dump keyB64 key rest (counts.count c)
          (migrateRecord rt lib dump keyB64 key d name).2 := by
  rw [migrateLoop]
  cases migrateRecord rt lib dump keyB64 key d name with
  | mk result d' =>
      cases result with
      | error e => exact .inl ⟨e, rfl, rfl⟩
      | ok c => exact .inr ⟨c, rfl, rfl⟩

/-- No run leaves a link under a temporary name that had none. -/
theorem migrateLoop_linked (hnames : ∀ n ∈ names, isRecordName n = true)
    (h : (migrateLoop rt lib dump keyB64 key names counts d).2.Linked (temporaryName m)) :
    d.Linked (temporaryName m) := by
  induction names generalizing counts d with
  | nil => exact h
  | cons name rest ih =>
      have hname := hnames name List.mem_cons_self
      rcases @migrateLoop_cons rt lib dump keyB64 key name rest counts d with
        ⟨e, -, heq⟩ | ⟨c, -, heq⟩
      · rw [heq] at h
        exact migrateRecord_linked hname h
      · rw [heq] at h
        exact migrateRecord_linked hname (ih (fun n hn => hnames n (List.mem_cons_of_mem _ hn)) h)

/-- A run that keeps the links under temporary names leaves nothing new under any of them. -/
theorem migrateLoop_free (hnames : ∀ n ∈ names, isRecordName n = true)
    (hlinked : ∀ m, d.Linked (temporaryName m) →
      (migrateLoop rt lib dump keyB64 key names counts d).2.Linked (temporaryName m))
    (h : d.get? (temporaryName m) = none) :
    (migrateLoop rt lib dump keyB64 key names counts d).2.get? (temporaryName m) = none := by
  induction names generalizing counts d with
  | nil => exact h
  | cons name rest ih =>
      have hname := hnames name List.mem_cons_self
      have hrest : ∀ n ∈ rest, isRecordName n = true :=
        fun n hn => hnames n (List.mem_cons_of_mem _ hn)
      -- a link consumed by this record would be missing in the end
      have hfirst : (migrateLoop rt lib dump keyB64 key (name :: rest) counts d).2.Linked
            (temporaryName name) →
          (migrateRecord rt lib dump keyB64 key d name).2.Linked (temporaryName name) := by
        intro hend
        rcases @migrateLoop_cons rt lib dump keyB64 key name rest counts d with
          ⟨e, -, heq⟩ | ⟨c, -, heq⟩
        · rwa [heq] at hend
        · rw [heq] at hend
          exact migrateLoop_linked hrest hend
      have hstep : (migrateRecord rt lib dump keyB64 key d name).2.get? (temporaryName m) =
          none := by
        rcases migrateRecord_cases rt lib dump keyB64 key d name with heq | hreplaced
        · rwa [heq]
        · by_cases hm : m = name
          · rw [hm]
            exact hreplaced.free
          · have hunlinked : ¬ d.Linked (temporaryName name) := by
              intro hlink
              rcases hfirst (hlinked name hlink) with ⟨item, hitem, -⟩
              rw [hreplaced.free] at hitem
              cases hitem
            rw [hreplaced.get?_of_ne hunlinked (temporaryName_ne_of_record hname)
              fun heq => hm (temporaryName_injective heq)]
            exact h
      rcases @migrateLoop_cons rt lib dump keyB64 key name rest counts d with
        ⟨e, -, heq⟩ | ⟨c, -, heq⟩
      · rwa [heq]
      · rw [heq] at hlinked ⊢
        exact ih hrest (fun n hn => hlinked n (migrateRecord_linked hname hn)) hstep

end Loop

end Evidence

end AuditSwarm
