import AuditSwarm.Vault.Legacy

/-!
# Runs of the migration

After some of the records have been visited, those of them that can be migrated are rewritten, and
every other name of the directory is as it was.
-/

namespace AuditSwarm

open Python

namespace Evidence

variable {rt : Runtime} {lib : VaultLibrary} {dump : Json → Except Bytes Bytes} {keyB64 : Str}
  {key : Bytes} {d d' d'' : Directory} {name : Str} {done rest : List Str} {record : Dict Str Json}
  {text : Str}

/-! ## The records of a directory -/

theorem mem_names_iff : name ∈ d.names ↔ ∃ item, d.get? name = some item := by
  have hperm : (Dict.sortByKey d.items).Perm d.items := List.perm_insertionSort _ _
  unfold Directory.names
  rw [(hperm.map Prod.fst).mem_iff]
  exact Directory.mem_keys_iff

theorem mem_recordNames_iff :
    name ∈ recordNames d ↔ (∃ item, d.get? name = some item) ∧ isRecordName name = true := by
  rw [recordNames, List.mem_filter, mem_names_iff]

theorem isRecordName_of_mem : ∀ n ∈ recordNames d, isRecordName n = true :=
  fun _ hn => (mem_recordNames_iff.mp hn).2

/-- The records are visited in the order of their names. -/
theorem pairwise_recordNames (d : Directory) : (recordNames d).Pairwise (· < ·) := by
  have hperm : (Dict.sortByKey d.items).Perm d.items := List.perm_insertionSort _ _
  have hnodup : d.names.Nodup := ((hperm.map Prod.fst).nodup_iff).mpr d.nodup
  have hsorted : d.names.Pairwise (· ≤ ·) := by
    unfold Directory.names Dict.sortByKey
    rw [List.pairwise_map]
    have : Std.Total fun p q : Str × DirectoryItem => p.1 ≤ q.1 := ⟨fun p q => le_total p.1 q.1⟩
    have : IsTrans (Str × DirectoryItem) fun p q => p.1 ≤ q.1 := ⟨fun _ _ _ => le_trans⟩
    exact List.pairwise_insertionSort _ _
  have hstrict : d.names.Pairwise (· < ·) :=
    (hsorted.and hnodup).imp fun h => lt_of_le_of_ne h.1 h.2
  exact hstrict.filter _

theorem mem_done_iff (hsplit : recordNames d = done ++ name :: rest) {m : Str} :
    m ∈ done ↔ m ∈ recordNames d ∧ m < name := by
  have hsorted := pairwise_recordNames d
  rw [hsplit, List.pairwise_append, List.pairwise_cons] at hsorted
  rcases hsorted with ⟨-, ⟨hrest, -⟩, hdone⟩
  rw [hsplit, List.mem_append, List.mem_cons]
  constructor
  · exact fun hm => ⟨.inl hm, hdone m hm name List.mem_cons_self⟩
  · rintro ⟨hm | rfl | hm, hlt⟩
    · exact hm
    · exact absurd hlt (lt_irrefl m)
    · exact absurd (hrest m hm) (lt_asymm hlt)

theorem Migratable.ne_temporaryName {m : Str} (h : Migratable rt lib key d name) :
    name ≠ temporaryName m :=
  (temporaryName_ne_of_record (isRecordName_of_mem name h.record)).symm

/-- A name that leads to a record that can be migrated leads to a legacy record. -/
theorem Migratable.exists_legacy {m : Str} (h : Migratable rt lib key d m)
    (hway : Links.Passes d.next name m) : ∃ record text, Legacy rt lib key d name record text := by
  rcases h.legacy with ⟨record, text, hlegacy⟩
  rcases hlegacy.holds with ⟨entry, hentry, hload⟩
  refine ⟨record, text, ⟨entry, ?_, hload⟩, hlegacy.sealedPlain⟩
  rw [Directory.read_eq_of_passes hway, hentry]

/-! ## The directory on the way -/

/-- The record of a name has been rewritten. -/
def Rewritten (rt : Runtime) (lib : VaultLibrary) (dump : Json → Except Bytes Bytes) (key : Bytes)
    (d d' : Directory) (name : Str) : Prop :=
  ∃ record text bytes, Legacy rt lib key d name record text ∧
    dump (.obj (rekeyed record (recordDigest rt key record text))) = .ok bytes ∧
    d'.get? name = some (.own (.file (recordFile bytes
      (rekeyed record (recordDigest rt key record text)))))

/-- The directory after some records: those of them that can be migrated are rewritten, and every
other name is as it was. -/
structure After (rt : Runtime) (lib : VaultLibrary) (dump : Json → Except Bytes Bytes) (key : Bytes)
    (d : Directory) (done : List Str) (d' : Directory) : Prop where
  rewritten : ∀ m ∈ done, Migratable rt lib key d m → Rewritten rt lib dump key d d' m
  kept : ∀ m, ¬ (m ∈ done ∧ Migratable rt lib key d m) → d'.get? m = d.get? m

theorem After.nil (d : Directory) : After rt lib dump key d [] d :=
  ⟨fun _ hm => absurd hm List.not_mem_nil, fun _ _ => rfl⟩

section After

variable (h : After rt lib dump key d done d')

include h

theorem After.get?_temporaryName (m : Str) :
    d'.get? (temporaryName m) = d.get? (temporaryName m) :=
  h.kept _ fun hm => hm.2.ne_temporaryName rfl

theorem After.cut : Links.Cut (fun m => m ∈ done ∧ Migratable rt lib key d m) d.next d'.next := by
  constructor
  · rintro m ⟨hm, hmigratable⟩
    rcases h.rewritten m hm hmigratable with ⟨_, _, _, -, -, hget⟩
    exact Directory.next_eq_none hget rfl
  · intro m hm
    unfold Directory.next
    rw [h.kept m hm]

/-- A name that leads to no rewritten record reads as it did. -/
theorem After.read_of_uncut
    (huncut : ∀ m ∈ done, Links.Passes d.next name m → ¬ Migratable rt lib key d m) :
    d'.read name = d.read name := by
  have huncut' : ∀ m, Links.Passes d.next name m → ¬ (m ∈ done ∧ Migratable rt lib key d m) :=
    fun m hway hm => huncut m hm.1 hway hm.2
  cases hresolve : d.resolve name with
  | none =>
      rw [Directory.read_of_circle hresolve]
      apply Directory.read_of_circle
      rw [Directory.resolve_eq_none_iff] at hresolve ⊢
      exact fun last hends => hresolve last ((h.cut.ends_iff huncut').mp hends)
  | some last =>
      have hends := Directory.resolve_eq_some_iff.mp hresolve
      rw [Directory.read_of_ends hends,
        Directory.read_of_ends ((h.cut.ends_iff huncut').mpr hends),
        h.kept last (huncut' last hends.passes)]

/-- A name that leads to a rewritten record reads as the legacy record it was, with the keyed
digest. -/
theorem After.read_of_cut {m : Str} (hlegacy : Legacy rt lib key d name record text)
    (hm : m ∈ done) (hway : Links.Passes d.next name m) (hmigratable : Migratable rt lib key d m) :
    ∃ bytes, d'.read name = some (.file (recordFile bytes
      (rekeyed record (recordDigest rt key record text)))) := by
  rcases h.cut.exists_ends hway ⟨hm, hmigratable⟩ with ⟨last, hends, hlast, hlastMigratable⟩
  rcases h.rewritten last hlast hlastMigratable with ⟨record', text', bytes, hlegacy', -, hget⟩
  have hthere := hlegacy.of_passes (h.cut.passes hends.passes)
  have hrecord := hthere.holds.unique hlegacy'.holds
  subst hrecord
  have htext := hthere.sealedPlain.text_unique hlegacy'.sealedPlain
  subst htext
  refine ⟨bytes, ?_⟩
  rw [Directory.read_of_ends hends, hget]
  rfl

theorem After.blocked_iff : Blocked d' name ↔ Blocked d name := by
  unfold Blocked
  rw [h.get?_temporaryName name]
  refine or_congr_right ?_
  by_cases hcut : ∃ m ∈ done, Links.Passes d.next (temporaryName name) m ∧
      Migratable rt lib key d m
  · -- the links end, before and after
    rcases hcut with ⟨m, hm, hway, hmigratable⟩
    rcases h.cut.exists_ends hway ⟨hm, hmigratable⟩ with ⟨last, hends, -⟩
    rcases hmigratable.exists_legacy hway with ⟨record, text, hlegacy⟩
    rcases hlegacy.holds with ⟨entry, hentry, -⟩
    rcases Directory.exists_of_read hentry with ⟨last', item, hends', -⟩
    rw [Directory.resolve_eq_some_iff.mpr hends, Directory.resolve_eq_some_iff.mpr hends']
    simp
  · have huncut : ∀ m, Links.Passes d.next (temporaryName name) m →
        ¬ (m ∈ done ∧ Migratable rt lib key d m) :=
      fun m hway hm => hcut ⟨m, hm.1, hway, hm.2⟩
    simp only [Directory.resolve_eq_none_iff, h.cut.ends_iff huncut]

/-- The legacy records that are left are those that lead to no rewritten record. -/
theorem After.legacy_iff : Legacy rt lib key d' name record text ↔
    Legacy rt lib key d name record text ∧
      ∀ m ∈ done, Links.Passes d.next name m → ¬ Migratable rt lib key d m := by
  constructor
  · intro hlegacy
    have huncut : ∀ m ∈ done, Links.Passes d.next name m → ¬ Migratable rt lib key d m := by
      intro m hm hway hmigratable
      rcases hmigratable.exists_legacy hway with ⟨record', text', hbefore⟩
      rcases h.read_of_cut hbefore hm hway hmigratable with ⟨bytes, hread⟩
      have hrecord := hlegacy.holds.unique ⟨_, hread, rfl⟩
      have hkeyed := hlegacy.sealedPlain.unkeyed
      rw [hrecord, get?_rekeyed_self] at hkeyed
      cases hkeyed
    refine ⟨⟨?_, hlegacy.sealedPlain⟩, huncut⟩
    rcases hlegacy.holds with ⟨entry, hentry, hload⟩
    rw [h.read_of_uncut huncut] at hentry
    exact ⟨entry, hentry, hload⟩
  · rintro ⟨hlegacy, huncut⟩
    rcases hlegacy.holds with ⟨entry, hentry, hload⟩
    rw [← h.read_of_uncut huncut] at hentry
    exact ⟨⟨entry, hentry, hload⟩, hlegacy.sealedPlain⟩

/-- A record can be migrated when it is a legacy record at its turn that is not blocked. -/
theorem After.migratable_iff (hsplit : recordNames d = done ++ name :: rest) :
    Migratable rt lib key d name ↔
      (∃ record text, Legacy rt lib key d' name record text) ∧ ¬ Blocked d' name := by
  rw [h.blocked_iff]
  constructor
  · intro hmigratable
    rcases hmigratable.legacy with ⟨record, text, hlegacy⟩
    refine ⟨⟨record, text, h.legacy_iff.mpr ⟨hlegacy, ?_⟩⟩, hmigratable.room⟩
    intro m hm hway hother
    rcases (mem_done_iff hsplit).mp hm with ⟨hrecord, hlt⟩
    exact hother.room (hmigratable.first m hrecord hlt hway)
  · rintro ⟨⟨record, text, hlegacy⟩, hroom⟩
    rcases h.legacy_iff.mp hlegacy with ⟨hbefore, huncut⟩
    refine ⟨by rw [hsplit]; simp, ⟨record, text, hbefore⟩, hroom, ?_⟩
    intro other hother hlt hway
    by_contra hblocked
    rcases hbefore.exists_migratable hother hway hblocked with ⟨m, hle, hm, hmigratable⟩
    have hdone : m ∈ done := (mem_done_iff hsplit).mpr ⟨hmigratable.record, lt_of_le_of_lt hle hlt⟩
    exact huncut m hdone hm hmigratable

theorem After.skip (hmigratable : ¬ Migratable rt lib key d name) :
    After rt lib dump key d (done ++ [name]) d' := by
  have hdone : ∀ m, Migratable rt lib key d m → m ∈ done ++ [name] → m ∈ done := by
    intro m hm hmem
    rcases List.mem_append.mp hmem with hmem | hmem
    · exact hmem
    · rw [List.mem_singleton.mp hmem] at hm
      exact absurd hm hmigratable
  constructor
  · exact fun m hm hother => h.rewritten m (hdone m hother hm) hother
  · exact fun m hm => h.kept m fun hdone => hm ⟨List.mem_append_left _ hdone.1, hdone.2⟩

theorem After.rewrite (hmigratable : Migratable rt lib key d name)
    (hrewritten : Rewritten rt lib dump key d d'' name)
    (hother : ∀ m, m ≠ name → d''.get? m = d'.get? m) :
    After rt lib dump key d (done ++ [name]) d'' := by
  constructor
  · intro m hm hm'
    by_cases hne : m = name
    · rw [hne]
      exact hrewritten
    · rcases List.mem_append.mp hm with hm | hm
      · unfold Rewritten
        rw [hother m hne]
        exact h.rewritten m hm hm'
      · exact absurd (List.mem_singleton.mp hm) hne
  · intro m hm
    have hne : m ≠ name := by
      rintro rfl
      exact hm ⟨by simp, hmigratable⟩
    rw [hother m hne]
    exact h.kept m fun hdone => hm ⟨List.mem_append_left _ hdone.1, hdone.2⟩

/-- What a pass over the next record comes to: it is rewritten when it can be migrated, and nothing
changes otherwise. -/
theorem After.step (hbuild : buildFernet keyB64 = .ok key)
    (hsplit : recordNames d = done ++ name :: rest)
    (hfree : Migratable rt lib key d name → d.get? (temporaryName name) = none) {c : Category}
    (hpass : migrateRecord rt lib dump keyB64 key d' name = (.ok c, d'')) :
    After rt lib dump key d (done ++ [name]) d'' ∧
      (c = .migrated ↔ Migratable rt lib key d name) ∧
      (Migratable rt lib key d name → ∀ record text, Legacy rt lib key d name record text →
        ∃ bytes, dump (.obj (rekeyed record (recordDigest rt key record text))) = .ok bytes) := by
  have hmigratable := h.migratable_iff hsplit
  have hidle : ¬ Migratable rt lib key d name → d'' = d' → c ≠ .migrated →
      After rt lib dump key d (done ++ [name]) d'' ∧
        (c = .migrated ↔ Migratable rt lib key d name) ∧
        (Migratable rt lib key d name → ∀ record text, Legacy rt lib key d name record text →
          ∃ bytes, dump (.obj (rekeyed record (recordDigest rt key record text))) = .ok bytes) := by
    intro hnot heq hc
    rw [heq]
    exact ⟨h.skip hnot, iff_of_false hc hnot, fun hm => absurd hm hnot⟩
  cases hexamined : examinedAt rt lib keyB64 key d' name with
  | error e =>
      rw [migrateRecord_of_error hexamined, Prod.mk.injEq, countFailed_eq_ok_iff] at hpass
      refine hidle ?_ hpass.2.symm (by rw [hpass.1.2]; decide)
      rw [hmigratable]
      rintro ⟨⟨record, text, hlegacy⟩, -⟩
      rw [(examinedAt_rewritten_iff hbuild).mpr ⟨record, text, hlegacy, rfl⟩] at hexamined
      cases hexamined
  | ok examined =>
      cases examined with
      | counted category =>
          rw [migrateRecord_of_counted hexamined, Prod.mk.injEq, Except.ok.injEq] at hpass
          refine hidle ?_ hpass.2.symm ?_
          · rw [hmigratable]
            rintro ⟨⟨record, text, hlegacy⟩, -⟩
            rw [(examinedAt_rewritten_iff hbuild).mpr ⟨record, text, hlegacy, rfl⟩] at hexamined
            cases hexamined
          · rw [← hpass.1]
            exact counted_ne_migrated hexamined
      | rewritten r =>
          by_cases hblocked : Blocked d' name
          · rw [migrateRecord_of_blocked hexamined hblocked, Prod.mk.injEq, Except.ok.injEq]
              at hpass
            refine hidle ?_ hpass.2.symm (by rw [← hpass.1]; decide)
            rw [hmigratable]
            exact fun hm => hm.2 hblocked
          · rcases (examinedAt_rewritten_iff hbuild).mp hexamined with
              ⟨record, text, hlegacy, rfl⟩
            have hthis := hmigratable.mpr ⟨⟨record, text, hlegacy⟩, hblocked⟩
            have hbefore := (h.legacy_iff.mp hlegacy).1
            have htemporary : d'.get? (temporaryName name) = none := by
              rw [h.get?_temporaryName]
              exact hfree hthis
            rw [migrateRecord, hexamined] at hpass
            dsimp only at hpass
            cases hdump : dump (.obj (rekeyed record (recordDigest rt key record text))) with
            | error bytes =>
                have hraise := replaceRecord_of_tooDeep htemporary hdump
                split at hpass
                · rename_i e _ heq
                  rw [heq, Except.error.injEq] at hraise
                  rw [hraise] at hpass
                  cases hpass
                · rename_i heq
                  rw [heq] at hraise
                  cases hraise
            | ok bytes =>
                rcases replaceRecord_of_free htemporary hdump with ⟨d₁, hreplace, hown, hother⟩
                rw [hreplace] at hpass
                cases hpass
                refine ⟨h.rewrite hthis ⟨record, text, bytes, hbefore, hdump, hown⟩ hother,
                  iff_of_true rfl hthis, ?_⟩
                intro _ record' text' hlegacy'
                have hrecord := hbefore.holds.unique hlegacy'.holds
                subst hrecord
                have htext := hbefore.sealedPlain.text_unique hlegacy'.sealedPlain
                subst htext
                exact ⟨bytes, hdump⟩

end After

end Evidence

end AuditSwarm
