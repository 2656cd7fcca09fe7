import AuditSwarm.Python.Indented
import AuditSwarm.Vault.MigrationRun

/-!
# Safety of the digest migration

`migrate_legacy_digests` over any vault directory, links included: which records it counts, what it
changes, and which quotes verify before and after.
-/

namespace AuditSwarm

open Python

namespace Evidence

variable {rt : Runtime} {lib : VaultLibrary} {environ : Environ} {dump : Json → Except Bytes Bytes}
  {keyB64 : Str} {key : Bytes} {d d' : Directory} {name : Str} {record : Dict Str Json} {text : Str}

/-! ## Exceptions that are counted -/

/-- A record the loop reads without an exception it does not count: an encrypted one that is not
keyed has a text for a payload, and wherever its digest can be computed the stored one is ASCII. -/
def RecordDecodable (rt : Runtime) (lib : VaultLibrary) (key : Bytes) (record : Dict Str Json) :
    Prop :=
  (truthyField record (lit "encrypted")).isSome = true →
    record.get? (lit "hmac_sha256") = none →
    ∀ payload, record.get? (lit "raw_payload") = some payload →
      (∃ token, payload = .str token) ∧
        ∀ text, decryptPayload lib key payload = .ok text →
          Python.Encodable (digestInput text (record.getD (lit "metadata") .null)) →
          ∀ stored, record.get? (lit "sha256") = some stored → isAscii (rt.textOf stored) = true

/-- An entry the loop reads without an exception it does not count: JSON that is not nested too
deep is an object. -/
structure EntryDecodable (rt : Runtime) (lib : VaultLibrary) (key : Bytes) (entry : VaultEntry) :
    Prop where
  shallow : Vault.load entry ≠ .error .runtimeError
  object : ∀ loaded, Vault.load entry = .ok loaded →
    ∃ record : Dict Str Json, loaded = .obj record ∧ RecordDecodable rt lib key record

theorem plainDigest_returns_iff {input : Str} :
    (∃ digest, plainDigest rt (.str input) = .ok digest) ↔ Python.Encodable input := by
  unfold Python.Encodable
  cases hinput : encodeUtf8 input with
  | none =>
      have hraise : plainDigest rt (.str input) = .error .valueError := by
        rw [plainDigest, encodeText, hinput]
        rfl
      simp [hraise]
  | some data => simp [plainDigest_of_encode hinput]

theorem raisesOnly_examineFields_iff :
    (examineFields rt lib keyB64 key record).RaisesOnly (fun e => e.counted = true) ↔
      RecordDecodable rt lib key record := by
  unfold examineFields RecordDecodable Dict.contains
  cases hencrypted : truthyField record (lit "encrypted") with
  | none => simp
  | some flag =>
      cases record.get? (lit "hmac_sha256") with
      | some digest => simp
      | none =>
          simp only [Option.isNone_some, Bool.false_eq_true, if_false, Option.isSome_some,
            forall_const, Option.isSome_none]
          cases record.get? (lit "raw_payload") with
          | none => simp [Except.orRaise, VaultError.counted]
          | some payload =>
              rw [Except.orRaise, Except.ok_bind, Except.raisesOnly_bind_iff,
                raisesOnly_decryptPayload_iff handled_counted]
              simp only [Option.some.injEq, forall_eq']
              refine and_congr_right fun _ => forall_congr' fun text => imp_congr_right fun _ => ?_
              rw [Except.raisesOnly_bind_iff,
                and_iff_right (raisesOnly_plainDigest handled_counted _),
                ← @plainDigest_returns_iff rt]
              constructor
              · intro h hreturns stored hstored
                obtain ⟨plain, hplain⟩ := hreturns
                have hrest := h plain hplain
                rw [hstored, Except.orRaise, Except.ok_bind, Except.raisesOnly_bind_iff] at hrest
                exact (raisesOnly_compareDigest_iff handled_counted
                  (isAscii_of_plainDigest hplain)).mp hrest.1
              · intro h plain hplain
                rw [Except.raisesOnly_bind_iff]
                refine ⟨Except.raisesOnly_orRaise_iff.mpr fun _ => rfl, fun stored hstored => ?_⟩
                have hascii := h ⟨plain, hplain⟩ stored (Except.orRaise_eq_ok_iff.mp hstored)
                rw [Except.raisesOnly_bind_iff, raisesOnly_compareDigest_iff handled_counted
                  (isAscii_of_plainDigest hplain)]
                refine ⟨hascii, fun same _ => ?_⟩
                split
                · exact Except.raisesOnly_pure _
                · rw [Except.raisesOnly_bind_iff]
                  constructor
                  · exact raisesOnly_keyedDigest handled_counted _ _
                  · exact fun _ _ => Except.raisesOnly_pure _

theorem raisesOnly_load_iff {entry : VaultEntry} :
    (Vault.load entry).RaisesOnly (fun e => e.counted = true) ↔
      Vault.load entry ≠ .error .runtimeError := by
  cases entry with
  | directory => simp [Vault.load, VaultError.counted]
  | file f =>
      unfold Vault.load
      dsimp only
      cases f.content with
      | ok j => simp [Except.mapError]
      | error e =>
          cases e with
          | unreadable => simp [Except.mapError, ReadError.raised, VaultError.counted]
          | notJson => simp [Except.mapError, ReadError.raised, VaultError.counted]
          | tooDeep => simp [Except.mapError, ReadError.raised, VaultError.counted]

/-- Reading a record raises nothing but what is counted exactly when its entry is decodable. -/
theorem raisesOnly_examinedAt_iff :
    (examinedAt rt lib keyB64 key d name).RaisesOnly (fun e => e.counted = true) ↔
      ∀ entry, d.read name = some entry → EntryDecodable rt lib key entry := by
  unfold examinedAt
  cases d.read name with
  | none => simp [Except.orRaise, VaultError.counted]
  | some entry =>
      rw [Except.orRaise, Except.ok_bind, Except.raisesOnly_bind_iff, raisesOnly_load_iff]
      simp only [Option.some.injEq, forall_eq']
      have hexamine : ∀ loaded : Json,
          (examine rt lib keyB64 key loaded).RaisesOnly (fun e => e.counted = true) ↔
            ∃ record : Dict Str Json, loaded = .obj record ∧ RecordDecodable rt lib key record := by
        intro loaded
        unfold examine
        cases loaded with
        | obj record => simp [raisesOnly_examineFields_iff]
        | _ => simp [VaultError.counted]
      constructor
      · exact fun h => ⟨h.1, fun loaded hload => (hexamine loaded).mp (h.2 loaded hload)⟩
      · exact fun h => ⟨h.shallow, fun loaded hload => (hexamine loaded).mpr (h.object loaded hload)⟩

/-! ## Names of records -/

theorem isRecordName_iff :
    isRecordName name = true ↔ ∃ vaultId, isUuid vaultId = true ∧ name = vaultId ++ lit ".json" := by
  have hlength : (lit ".json").length = 5 := by decide
  have htake : ∀ vaultId : Str,
      (vaultId ++ lit ".json").take ((vaultId ++ lit ".json").length - 5) = vaultId := by
    intro vaultId
    rw [List.length_append, hlength, Nat.add_sub_cancel, List.take_left]
  constructor
  · intro h
    obtain ⟨vaultId, rfl⟩ := isRecordName_suffix h
    refine ⟨vaultId, ?_, rfl⟩
    unfold isRecordName at h
    rw [htake, Bool.and_eq_true] at h
    exact h.2
  · rintro ⟨vaultId, huuid, rfl⟩
    unfold isRecordName
    rw [htake, huuid, Bool.and_true, decide_eq_true_eq]
    exact List.suffix_append vaultId (lit ".json")

/-! ## A run -/

section Turn

variable (rt lib dump keyB64 key d name)

/-- The directory when the turn of a record comes. -/
def turn : Directory :=
  (migrateLoop rt lib dump keyB64 key ((recordNames d).takeWhile (· ≠ name)) .zero d).2

/-- The category a record is counted in at its turn. -/
def categoryAt : Category :=
  match (migrateRecord rt lib dump keyB64 key (turn rt lib dump keyB64 key d name) name).1 with
  | .ok category => category
  | .error _ => .failed

end Turn

/-- The quotes that verify against one vault are those that verify against the other. -/
def VerifyAlike (rt : Runtime) (lib : VaultLibrary) (environ : Environ) (vault vault' : Vault) :
    Prop :=
  ∀ vaultId quote sessionId,
    verifyExactQuote rt lib environ vault' vaultId quote sessionId = .ok true ↔
      verifyExactQuote rt lib environ vault vaultId quote sessionId = .ok true

/-- What a safe migration establishes between its directories. -/
structure MigratedSafely (rt : Runtime) (lib : VaultLibrary) (environ : Environ)
    (dump : Json → Except Bytes Bytes) (keyB64 : Str) (key : Bytes) (counts : Counts)
    (d d' : Directory) : Prop where
  counted : ∀ c, counts.of c = ((recordNames d).filter fun n =>
    categoryAt rt lib dump keyB64 key d n = c).length
  migrated : ∀ n ∈ recordNames d,
    categoryAt rt lib dump keyB64 key d n = .migrated ↔ Migratable rt lib key d n
  rewritten : ∀ n ∈ recordNames d, ∀ record text, Legacy rt lib key d n record text →
    ¬ Blocked d n → Holds d' n (rekeyed record (recordDigest rt key record text))
  verifies : VerifyAlike rt lib environ d.vault d'.vault
  kept : ∀ n, ¬ Migratable rt lib key d n → d'.get? n = d.get? n
  again : ∃ counts', migrateLegacyDigests rt lib environ dump d' = (.ok counts', d') ∧
    counts'.migrated = 0

/-- A record that does not stand in the way of a safe migration.  One that is rewritten has nothing
under its temporary name, can be written with its keyed digest, and does not lead out of the vault
unless nothing of its text can be quoted. -/
structure SafeRecord (rt : Runtime) (lib : VaultLibrary) (dump : Json → Except Bytes Bytes)
    (key : Bytes) (d : Directory) (name : Str) : Prop where
  decodable : ∀ entry, d.read name = some entry → EntryDecodable rt lib key entry
  unshadowed : Migratable rt lib key d name → d.get? (temporaryName name) = none
  writable : Migratable rt lib key d name → ∀ record text, Legacy rt lib key d name record text →
    ∃ bytes, dump (.obj (rekeyed record (recordDigest rt key record text))) = .ok bytes
  inside : Migratable rt lib key d name → ∀ record text, Legacy rt lib key d name record text →
    quoteAdmissible text = true → ∀ entry, d.read name = some entry → Vault.inside entry = true

theorem migrateLegacyDigests_eq (hconfigured : configuredKey environ = some keyB64)
    (hbuild : buildFernet keyB64 = .ok key) :
    migrateLegacyDigests rt lib environ dump d =
      migrateLoop rt lib dump keyB64 key (recordNames d) .zero d := by
  unfold migrateLegacyDigests
  rw [hconfigured]
  dsimp only
  rw [hbuild]

/-- A legacy record is decodable. -/
theorem Legacy.decodable (h : Legacy rt lib key d name record text) {entry : VaultEntry}
    (hentry : d.read name = some entry) : EntryDecodable rt lib key entry := by
  obtain ⟨entry', hentry', hload⟩ := h.holds
  obtain rfl := Option.some.inj (hentry.symm.trans hentry')
  refine ⟨by rw [hload]; simp, fun loaded hloaded => ?_⟩
  obtain rfl := Except.ok.inj (hload.symm.trans hloaded)
  refine ⟨record, rfl, fun _ _ payload hpayload => ?_⟩
  obtain ⟨payload', hpayload', htext⟩ := h.sealedPlain.payload
  obtain rfl := Option.some.inj (hpayload.symm.trans hpayload')
  refine ⟨?_, fun _ _ _ stored hstored => ?_⟩
  · cases payload with
    | str token => exact ⟨token, rfl⟩
    | _ => cases htext
  · obtain ⟨data, stored', -, hstored', hdigest⟩ := h.sealedPlain.digest
    obtain rfl := Option.some.inj (hstored.symm.trans hstored')
    rw [hdigest]
    exact isAscii_hexdigest _

section After

variable {done rest : List Str} (h : After rt lib dump key d done d')

include h

/-- At the turn of a decodable record nothing is raised that is not counted. -/
theorem After.raisesOnly (hdecodable : ∀ entry, d.read name = some entry →
      EntryDecodable rt lib key entry) :
    (examinedAt rt lib keyB64 key d' name).RaisesOnly fun e => e.counted = true := by
  by_cases hcut : ∃ m ∈ done, Links.Passes d.next name m ∧ Migratable rt lib key d m
  · rcases hcut with ⟨m, hm, hway, hmigratable⟩
    rcases hmigratable.exists_legacy hway with ⟨record, text, hlegacy⟩
    rcases h.read_of_cut hlegacy hm hway hmigratable with ⟨bytes, hread⟩
    have hexamined : examinedAt rt lib keyB64 key d' name = .ok (.counted .alreadyKeyed) :=
      examinedAt_eq_ok_iff.mpr
        ⟨_, ⟨_, hread, rfl⟩, examineFields_rekeyed _ hlegacy.sealedPlain.encrypted⟩
    rw [hexamined]
    exact Except.raisesOnly_ok _
  · rw [raisesOnly_examinedAt_iff, h.read_of_uncut fun m hm hway hmigratable =>
      hcut ⟨m, hm, hway, hmigratable⟩]
    exact hdecodable

/-- A record that raises nothing that is not counted is decodable. -/
theorem After.decodable (hraises : (examinedAt rt lib keyB64 key d' name).RaisesOnly
      fun e => e.counted = true) {entry : VaultEntry} (hentry : d.read name = some entry) :
    EntryDecodable rt lib key entry := by
  by_cases hcut : ∃ m ∈ done, Links.Passes d.next name m ∧ Migratable rt lib key d m
  · rcases hcut with ⟨m, hm, hway, hmigratable⟩
    rcases hmigratable.exists_legacy hway with ⟨record, text, hlegacy⟩
    exact hlegacy.decodable hentry
  · rw [raisesOnly_examinedAt_iff, h.read_of_uncut fun m hm hway hmigratable =>
      hcut ⟨m, hm, hway, hmigratable⟩] at hraises
    exact hraises entry hentry

/-- A record that does not stand in the way is counted. -/
theorem After.returns (hbuild : buildFernet keyB64 = .ok key)
    (hsplit : recordNames d = done ++ name :: rest) (hsafe : SafeRecord rt lib dump key d name) :
    ∃ c d'', migrateRecord rt lib dump keyB64 key d' name = (.ok c, d'') := by
  have hraises : (examinedAt rt lib keyB64 key d' name).RaisesOnly fun e => e.counted = true :=
    h.raisesOnly hsafe.decodable
  cases hexamined : examinedAt rt lib keyB64 key d' name with
  | error e =>
      refine ⟨.failed, d', ?_⟩
      rw [migrateRecord_of_error hexamined, countFailed, if_pos (hraises e hexamined)]
  | ok examined =>
      cases examined with
      | counted c => exact ⟨c, d', migrateRecord_of_counted hexamined⟩
      | rewritten r =>
          by_cases hblocked : Blocked d' name
          · exact ⟨.failed, d', migrateRecord_of_blocked hexamined hblocked⟩
          · rcases (examinedAt_rewritten_iff hbuild).mp hexamined with ⟨record, text, hlegacy, rfl⟩
            have hthis := (h.migratable_iff hsplit).mpr ⟨⟨record, text, hlegacy⟩, hblocked⟩
            have htemporary : d'.get? (temporaryName name) = none := by
              rw [h.get?_temporaryName]
              exact hsafe.unshadowed hthis
            rcases hsafe.writable hthis record text (h.legacy_iff.mp hlegacy).1 with ⟨bytes, hdump⟩
            rcases replaceRecord_of_free htemporary hdump with ⟨d'', hreplace, -, -⟩
            refine ⟨.migrated, d'', ?_⟩
            rw [migrateRecord, hexamined]
            dsimp only
            rw [hreplace]

/-- A run over the records that are left, if none stands in the way. -/
theorem After.run (hbuild : buildFernet keyB64 = .ok key) (hsplit : recordNames d = done ++ rest)
    (hsafe : ∀ n ∈ rest, SafeRecord rt lib dump key d n) (counts : Counts) :
    ∃ counts' d'', migrateLoop rt lib dump keyB64 key rest counts d' = (.ok counts', d'') ∧
      After rt lib dump key d (recordNames d) d'' := by
  induction rest generalizing done d' counts with
  | nil =>
      rw [List.append_nil] at hsplit
      exact ⟨counts, d', rfl, hsplit ▸ h⟩
  | cons name rest ih =>
      have hname := hsafe name List.mem_cons_self
      rcases h.returns hbuild hsplit hname with ⟨c, d₁, hpass⟩
      have hafter := (h.step hbuild hsplit hname.unshadowed hpass).1
      rw [migrateLoop, hpass]
      refine ih hafter ?_ (fun n hn => hsafe n (List.mem_cons_of_mem _ hn)) (counts.count c)
      rw [hsplit, List.append_assoc]
      rfl

/-- A temporary name that is taken is taken no more once its record is replaced. -/
theorem After.unshadowed (hbuild : buildFernet keyB64 = .ok key)
    (hsplit : recordNames d = done ++ name :: rest) (hthis : Migratable rt lib key d name)
    {counts counts' : Counts} {c : Category} {d₁ d'' : Directory}
    (hpass : migrateRecord rt lib dump keyB64 key d' name = (.ok c, d₁))
    (hrun : migrateLoop rt lib dump keyB64 key rest counts d₁ = (.ok counts', d''))
    (hkept : ∀ m, d''.get? (temporaryName m) = d.get? (temporaryName m)) :
    d.get? (temporaryName name) = none := by
  rcases (h.migratable_iff hsplit).mp hthis with ⟨⟨record, text, hlegacy⟩, hroom⟩
  have hexamined := (examinedAt_rewritten_iff hbuild).mpr ⟨record, text, hlegacy, rfl⟩
  have hreplaced := @migrateRecord_replaced rt lib dump keyB64 key d' name _ hexamined hroom
  have hname : isRecordName name = true := isRecordName_of_mem name hthis.record
  have hnames : ∀ n ∈ rest, isRecordName n = true := by
    intro n hn
    have hmem : n ∈ recordNames d := by
      rw [hsplit]
      exact List.mem_append_right _ (List.mem_cons_of_mem _ hn)
    exact isRecordName_of_mem n hmem
  rw [hpass] at hreplaced
  have hend : (migrateLoop rt lib dump keyB64 key rest counts d₁).2.get? (temporaryName name) =
      none := by
    apply migrateLoop_free hnames
    · intro m hlinked
      have hstart : d'.Linked (temporaryName m) := by
        apply @migrateRecord_linked rt lib dump keyB64 key d' name m hname
        rw [hpass]
        exact hlinked
      rcases hstart with ⟨item, hitem, hlink⟩
      rw [h.get?_temporaryName, ← hkept] at hitem
      rw [hrun]
      exact ⟨item, hitem, hlink⟩
    · exact hreplaced.free
  rw [hrun] at hend
  rw [← hkept]
  exact hend

end After

/-! ## What a run comes to -/

theorem migrateLoop_append {before after : List Str} {counts reached : Counts} {d₀ : Directory}
    (h : migrateLoop rt lib dump keyB64 key before counts d₀ = (.ok reached, d')) :
    migrateLoop rt lib dump keyB64 key (before ++ after) counts d₀ =
      migrateLoop rt lib dump keyB64 key after reached d' := by
  induction before generalizing counts d₀ with
  | nil =>
      cases h
      rfl
  | cons name before ih =>
      rw [List.cons_append, migrateLoop]
      rw [migrateLoop] at h
      cases hpass : migrateRecord rt lib dump keyB64 key d₀ name with
      | mk result d₁ =>
          rw [hpass] at h
          cases result with
          | error e => cases h
          | ok c => exact ih h

theorem Counts.of_count (counts : Counts) (category c : Category) :
    (counts.count category).of c = counts.of c + if category = c then 1 else 0 := by
  cases category <;> cases c <;> rfl

/-- What a run shows of a record it has visited. -/
structure Visited (rt : Runtime) (lib : VaultLibrary) (dump : Json → Except Bytes Bytes)
    (keyB64 : Str) (key : Bytes) (d : Directory) (name : Str) : Prop where
  migrated : categoryAt rt lib dump keyB64 key d name = .migrated ↔ Migratable rt lib key d name
  decodable : ∀ entry, d.read name = some entry → EntryDecodable rt lib key entry
  unshadowed : Migratable rt lib key d name → d.get? (temporaryName name) = none
  writable : Migratable rt lib key d name → ∀ record text, Legacy rt lib key d name record text →
    ∃ bytes, dump (.obj (rekeyed record (recordDigest rt key record text))) = .ok bytes

theorem categoryAt_eq {done rest : List Str} (hsplit : recordNames d = done ++ name :: rest)
    {reached : Counts} {c : Category} {d'' : Directory}
    (hreached : migrateLoop rt lib dump keyB64 key done .zero d = (.ok reached, d'))
    (hpass : migrateRecord rt lib dump keyB64 key d' name = (.ok c, d'')) :
    categoryAt rt lib dump keyB64 key d name = c := by
  have hdone : (recordNames d).takeWhile (· ≠ name) = done := by
    have hfresh : ∀ m ∈ done, decide (m ≠ name) = true := by
      intro m hm
      rw [decide_eq_true_eq]
      exact ((mem_done_iff hsplit).mp hm).2.ne
    rw [hsplit, List.takeWhile_append_of_pos hfresh, List.takeWhile_cons_of_neg (by simp),
      List.append_nil]
  unfold categoryAt turn
  rw [hdone, hreached, hpass]

/-- A run that keeps what lies under temporary names rewrites the records that can be migrated, and
counts each record once. -/
theorem After.of_run {done rest : List Str} {reached counts : Counts} {d'' : Directory}
    (h : After rt lib dump key d done d') (hbuild : buildFernet keyB64 = .ok key)
    (hsplit : recordNames d = done ++ rest)
    (hreached : migrateLoop rt lib dump keyB64 key done .zero d = (.ok reached, d'))
    (hrun : migrateLoop rt lib dump keyB64 key rest reached d' = (.ok counts, d''))
    (hkept : ∀ m, d''.get? (temporaryName m) = d.get? (temporaryName m)) :
    After rt lib dump key d (recordNames d) d'' ∧
      (∀ n ∈ rest, Visited rt lib dump keyB64 key d n) ∧
      ∀ c, counts.of c = reached.of c +
        (rest.filter fun n => categoryAt rt lib dump keyB64 key d n = c).length := by
  induction rest generalizing done d' reached with
  | nil =>
      rw [List.append_nil] at hsplit
      cases hrun
      exact ⟨hsplit ▸ h, by simp, by simp⟩
  | cons name rest ih =>
      rw [migrateLoop] at hrun
      cases hpass : migrateRecord rt lib dump keyB64 key d' name with
      | mk result d₁ =>
          rw [hpass] at hrun
          cases result with
          | error e => cases hrun
          | ok c =>
              dsimp only at hrun
              have hcategory := categoryAt_eq hsplit hreached hpass
              have hfree := fun hthis => h.unshadowed hbuild hsplit hthis hpass hrun hkept
              rcases h.step hbuild hsplit hfree hpass with ⟨hafter, hmigrated, hwritable⟩
              have hraises : (examinedAt rt lib keyB64 key d' name).RaisesOnly
                  fun e => e.counted = true := by
                intro e hexamined
                rw [migrateRecord_of_error hexamined, Prod.mk.injEq, countFailed_eq_ok_iff] at hpass
                exact hpass.1.1
              have hthis : Visited rt lib dump keyB64 key d name :=
                ⟨by rw [hcategory, hmigrated], fun entry => h.decodable hraises, hfree, hwritable⟩
              have hsplit' : recordNames d = (done ++ [name]) ++ rest := by
                rw [hsplit, List.append_assoc]
                rfl
              have hreached' : migrateLoop rt lib dump keyB64 key (done ++ [name]) .zero d =
                  (.ok (reached.count c), d₁) := by
                rw [migrateLoop_append hreached, migrateLoop, hpass]
                rfl
              rcases ih hafter hsplit' hreached' hrun with ⟨hend, hvisited, hcounts⟩
              refine ⟨hend, List.forall_mem_cons.mpr ⟨hthis, hvisited⟩, fun c' => ?_⟩
              rw [hcounts c', Counts.of_count, List.filter_cons, hcategory]
              by_cases hc : c = c'
              · simp only [hc, decide_true, if_true, List.length_cons]
                omega
              · simp only [hc, decide_false, if_false, Bool.false_eq_true]
                omega

/-! ## Quotes -/

section Quotes

variable (h : After rt lib dump key d (recordNames d) d')
  (hconfigured : configuredKey environ = some keyB64) (hbuild : buildFernet keyB64 = .ok key)

include h hconfigured hbuild

theorem After.verifyExactQuote_of_cut {vaultId : Str} (huuid : isUuid vaultId = true) {m : Str}
    (hlegacy : Legacy rt lib key d (vaultId ++ lit ".json") record text)
    (hway : Links.Passes d.next (vaultId ++ lit ".json") m)
    (hmigratable : Migratable rt lib key d m) (quote : Str) (sessionId : Option Str) :
    verifyExactQuote rt lib environ d'.vault vaultId quote sessionId =
      .ok (decide (quoteAdmissible quote = true ∧
        boundElsewhere rt lib record sessionId = false ∧ quote <:+: text)) := by
  rcases h.read_of_cut hlegacy hmigratable.record hway hmigratable with ⟨bytes, hread⟩
  have hcites : Cites d'.vault vaultId (rekeyed record (recordDigest rt key record text)) :=
    ⟨_, by rw [Directory.get?_vault, hread], rfl, rfl⟩
  rw [verifyExactQuote_of_sealed huuid hcites
    (hlegacy.sealedPlain.sealed_rekeyed hconfigured hbuild), boundElsewhere_rekeyed]

theorem After.verifyAlike (hsafe : ∀ n ∈ recordNames d, SafeRecord rt lib dump key d n) :
    VerifyAlike rt lib environ d.vault d'.vault := by
  intro vaultId quote sessionId
  by_cases huuid : isUuid vaultId = true
  · by_cases hcut : ∃ m ∈ recordNames d, Links.Passes d.next (vaultId ++ lit ".json") m ∧
        Migratable rt lib key d m
    · rcases hcut with ⟨m, hm, hway, hmigratable⟩
      rcases hmigratable.exists_legacy hway with ⟨record, text, hlegacy⟩
      rw [h.verifyExactQuote_of_cut hconfigured hbuild huuid hlegacy hway hmigratable]
      rcases hlegacy.holds with ⟨entry, hentry, hload⟩
      have hread : d.read m = some entry := by rw [← Directory.read_eq_of_passes hway, hentry]
      by_cases hinside : Vault.inside entry = true
      · have hcites : Cites d.vault vaultId record :=
          ⟨entry, by rw [Directory.get?_vault, hentry], hinside, hload⟩
        rw [verifyExactQuote_of_sealed huuid hcites
          (hlegacy.sealedPlain.sealed hconfigured hbuild)]
      · -- a record outside the vault is never accepted, and its text has nothing to quote
        have htext : ¬ quoteAdmissible text = true := fun hadmissible =>
          hinside ((hsafe m hm).inside hmigratable record text (hlegacy.of_passes hway) hadmissible
            entry hread)
        have hquote : ¬ (quoteAdmissible quote = true ∧ quote <:+: text) :=
          fun h => htext (quoteAdmissible_of_within h.1 h.2)
        constructor
        · intro h
          have hall := of_decide_eq_true (Except.ok.inj h)
          exact absurd ⟨hall.1, hall.2.2⟩ hquote
        · intro h
          obtain ⟨-, -, _, _, ⟨entry', hentry', hinside', -⟩, -⟩ :=
            verifyExactQuote_eq_true_iff.mp h
          rw [Directory.get?_vault] at hentry'
          obtain rfl := Option.some.inj (hentry.symm.trans hentry')
          exact absurd hinside' hinside
    · have hsame := h.read_of_uncut fun m hm hway hmigratable => hcut ⟨m, hm, hway, hmigratable⟩
      unfold verifyExactQuote
      rw [Directory.get?_vault, Directory.get?_vault, hsame]
  · unfold verifyExactQuote
    simp [huuid]

end Quotes

/-! ## A second run -/

/-- A run over records that are not rewritten changes nothing. -/
theorem migrateLoop_idle {names : List Str} (hbuild : buildFernet keyB64 = .ok key)
    (hraises : ∀ n ∈ names, (examinedAt rt lib keyB64 key d n).RaisesOnly
      fun e => e.counted = true)
    (hblocked : ∀ n ∈ names, ∀ record text, Legacy rt lib key d n record text → Blocked d n)
    (counts : Counts) :
    ∃ counts', migrateLoop rt lib dump keyB64 key names counts d = (.ok counts', d) ∧
      counts'.migrated = counts.migrated := by
  induction names generalizing counts with
  | nil => exact ⟨counts, rfl, rfl⟩
  | cons name rest ih =>
      have hpass : ∃ c, migrateRecord rt lib dump keyB64 key d name = (.ok c, d) ∧
          c ≠ .migrated := by
        cases hexamined : examinedAt rt lib keyB64 key d name with
        | error e =>
            refine ⟨.failed, ?_, by decide⟩
            rw [migrateRecord_of_error hexamined, countFailed,
              if_pos (hraises name List.mem_cons_self e hexamined)]
        | ok examined =>
            cases examined with
            | counted c =>
                exact ⟨c, migrateRecord_of_counted hexamined, counted_ne_migrated hexamined⟩
            | rewritten r =>
                rcases (examinedAt_rewritten_iff hbuild).mp hexamined with
                  ⟨record, text, hlegacy, -⟩
                have hroom := hblocked name List.mem_cons_self record text hlegacy
                exact ⟨.failed, migrateRecord_of_blocked hexamined hroom, by decide⟩
      rcases hpass with ⟨c, hpass, hc⟩
      rcases ih (fun n hn => hraises n (List.mem_cons_of_mem _ hn))
        (fun n hn => hblocked n (List.mem_cons_of_mem _ hn)) (counts.count c) with
        ⟨counts', hrun, hcount⟩
      refine ⟨counts', ?_, ?_⟩
      · rw [migrateLoop, hpass]
        exact hrun
      · rw [hcount]
        cases c with
        | migrated => exact absurd rfl hc
        | alreadyKeyed => rfl
        | unencrypted => rfl
        | failed => rfl

theorem After.again (h : After rt lib dump key d (recordNames d) d')
    (hconfigured : configuredKey environ = some keyB64) (hbuild : buildFernet keyB64 = .ok key)
    (hdecodable : ∀ n ∈ recordNames d, ∀ entry, d.read n = some entry →
      EntryDecodable rt lib key entry) :
    ∃ counts', migrateLegacyDigests rt lib environ dump d' = (.ok counts', d') ∧
      counts'.migrated = 0 := by
  rw [migrateLegacyDigests_eq hconfigured hbuild]
  have hrecords : ∀ n ∈ recordNames d', n ∈ recordNames d := by
    intro n hn
    rw [mem_recordNames_iff] at hn
    by_cases hmigratable : Migratable rt lib key d n
    · exact hmigratable.record
    · rw [h.kept n fun hm => hmigratable hm.2] at hn
      exact mem_recordNames_iff.mpr hn
  refine migrateLoop_idle hbuild ?_ ?_ .zero
  · exact fun n hn => h.raisesOnly (hdecodable n (hrecords n hn))
  · intro n hn record text hlegacy
    by_contra hroom
    rcases h.legacy_iff.mp hlegacy with ⟨hbefore, huncut⟩
    rw [h.blocked_iff] at hroom
    rcases hbefore.exists_migratable (hrecords n hn) (Links.passes_refl n) hroom with
      ⟨m, -, hway, hmigratable⟩
    exact huncut m hmigratable.record hway hmigratable

theorem After.rewrites (h : After rt lib dump key d (recordNames d) d')
    (hname : name ∈ recordNames d) (hlegacy : Legacy rt lib key d name record text)
    (hroom : ¬ Blocked d name) :
    Holds d' name (rekeyed record (recordDigest rt key record text)) := by
  rcases hlegacy.exists_migratable hname (Links.passes_refl name) hroom with
    ⟨m, -, hway, hmigratable⟩
  rcases h.read_of_cut hlegacy hmigratable.record hway hmigratable with ⟨bytes, hread⟩
  exact ⟨_, hread, rfl⟩

/-! ## When a migration is safe -/

/-- A migration returns and is safe exactly when no record stands in its way. -/
theorem migrateLegacyDigests_safe_iff (rt : Runtime) (lib : VaultLibrary) (environ : Environ)
    (dump : Json → Except Bytes Bytes) {keyB64 : Str} {key : Bytes}
    (hconfigured : configuredKey environ = some keyB64) (hbuild : buildFernet keyB64 = .ok key)
    (d : Directory) :
    (∃ counts d', migrateLegacyDigests rt lib environ dump d = (.ok counts, d') ∧
      MigratedSafely rt lib environ dump keyB64 key counts d d') ↔
      ∀ n ∈ recordNames d, SafeRecord rt lib dump key d n := by
  rw [migrateLegacyDigests_eq hconfigured hbuild]
  have hnil : recordNames d = [] ++ recordNames d := rfl
  constructor
  · rintro ⟨counts, d', hrun, hsafe⟩ n hn
    have hkept : ∀ m, d'.get? (temporaryName m) = d.get? (temporaryName m) :=
      fun m => hsafe.kept _ fun hm => hm.ne_temporaryName rfl
    rcases (After.nil d).of_run hbuild hnil rfl hrun hkept with ⟨hafter, hvisited, -⟩
    have hthis := hvisited n hn
    refine ⟨hthis.decodable, hthis.unshadowed, hthis.writable, ?_⟩
    intro hmigratable record text hlegacy hadmissible entry hentry
    obtain ⟨vaultId, huuid, rfl⟩ := isRecordName_iff.mp (isRecordName_of_mem n hn)
    have hverified : verifyExactQuote rt lib environ d'.vault vaultId text none = .ok true := by
      rw [hafter.verifyExactQuote_of_cut hconfigured hbuild huuid hlegacy
        (Links.passes_refl _) hmigratable]
      exact congrArg Except.ok (decide_eq_true ⟨hadmissible, rfl, List.infix_rfl⟩)
    have hbefore := (hsafe.verifies vaultId text none).mp hverified
    obtain ⟨-, -, _, _, ⟨entry', hentry', hinside, -⟩, -⟩ :=
      verifyExactQuote_eq_true_iff.mp hbefore
    rw [Directory.get?_vault] at hentry'
    rwa [Option.some.inj (hentry.symm.trans hentry')]
  · intro hsafe
    rcases (After.nil d).run hbuild hnil hsafe .zero with ⟨counts, d', hrun, hafter⟩
    rcases (After.nil d).of_run hbuild hnil rfl hrun fun m => hafter.get?_temporaryName m with
      ⟨-, hvisited, hcounts⟩
    have hzero : ∀ c, Counts.zero.of c = 0 := by
      intro c
      cases c <;> rfl
    refine ⟨counts, d', hrun, ?_, fun n hn => (hvisited n hn).migrated, ?_,
      hafter.verifyAlike hconfigured hbuild hsafe, ?_,
      hafter.again hconfigured hbuild fun n hn => (hsafe n hn).decodable⟩
    · intro c
      rw [hcounts c, hzero, Nat.zero_add]
    · exact fun n hn record text hlegacy hroom => hafter.rewrites hn hlegacy hroom
    · exact fun n hn => hafter.kept n fun hm => hn hm.2

namespace Sample

def zeroKeyB64 : Str := List.replicate 43 65 ++ [61]

def zeroKey : Bytes := List.replicate 32 0

def keyEnviron : Environ := fun name => if name = vaultEncryptionKey then some zeroKeyB64 else none

def recordName : Str := lit "0a1b2c3d-4e5f-4a6b-8c7d-9e8f7a6b5c4d.json"

def secret : Str := lit "3 users have no MFA device."

def legacyRecord : Dict Str Json :=
  [(lit "raw_payload", .str (letters ((encodeUtf8 secret).getD []))),
    (lit "encrypted", .bool true),
    (lit "sha256", .str (hexdigest (Runtime.shortDigest (.plain ((encodeUtf8 secret).getD [])))))]

/-- `json.dump(record, f, indent=2)` -/
def dumpIndented (record : Json) : Except Bytes Bytes :=
  .ok ((encodeUtf8 (Json.indented 0 record)).getD [])

def recordItem (content : Except ReadError Json) : DirectoryItem := .own (.file ⟨true, [], content⟩)

def aliasName : Str := lit "0a1b2c3d-4e5f-4a6b-8c7d-9e8f7a6b5c4e.json"

def brokenName : Str := lit "0a1b2c3d-4e5f-4a6b-8c7d-9e8f7a6b5c4c.json"

/-- A legacy record, a link to it, and a file that is no JSON. -/
def legacyDirectory : Directory :=
  ((Directory.empty.put recordName (recordItem (.ok (.obj legacyRecord)))).put aliasName
    (.link recordName)).put brokenName (recordItem (.error .notJson))

def listDirectory : Directory := Directory.empty.put recordName (recordItem (.ok (.arr [])))

theorem get?_legacyDirectory (name : Str) : legacyDirectory.get? name =
    if name = brokenName then some (recordItem (.error .notJson))
    else if name = aliasName then some (.link recordName)
    else if name = recordName then some (recordItem (.ok (.obj legacyRecord))) else none := by
  unfold legacyDirectory
  by_cases hbroken : name = brokenName
  · rw [if_pos hbroken, hbroken, Directory.get?_put_self]
  · rw [if_neg hbroken, Directory.get?_put_of_ne _ _ hbroken]
    by_cases halias : name = aliasName
    · rw [if_pos halias, halias, Directory.get?_put_self]
    · rw [if_neg halias, Directory.get?_put_of_ne _ _ halias]
      by_cases hrecord : name = recordName
      · rw [if_pos hrecord, hrecord, Directory.get?_put_self]
      · rw [if_neg hrecord, Directory.get?_put_of_ne _ _ hrecord]
        rfl

theorem read_recordName : legacyDirectory.read recordName =
    some (.file ⟨true, [], .ok (.obj legacyRecord)⟩) := by
  apply @Directory.read_of_get? _ _ (recordItem (.ok (.obj legacyRecord)))
  · rw [get?_legacyDirectory, if_neg (by decide), if_neg (by decide), if_pos rfl]
  · rfl

theorem read_aliasName : legacyDirectory.read aliasName =
    some (.file ⟨true, [], .ok (.obj legacyRecord)⟩) := by
  have hlink : legacyDirectory.get? aliasName = some (.link recordName) := by
    rw [get?_legacyDirectory, if_neg (by decide), if_pos rfl]
  rw [Directory.read_eq_of_passes (.single (Directory.next_eq_some_iff.mpr hlink)),
    read_recordName]

theorem read_brokenName : legacyDirectory.read brokenName =
    some (.file ⟨true, [], .error .notJson⟩) := by
  apply @Directory.read_of_get? _ _ (recordItem (.error .notJson))
  · rw [get?_legacyDirectory, if_pos rfl]
  · rfl

theorem get?_temporaryName (name : Str) :
    legacyDirectory.get? (temporaryName name) = none := by
  have hne : ∀ n, isRecordName n = true → temporaryName name ≠ n :=
    fun n hn => temporaryName_ne_of_record hn
  rw [get?_legacyDirectory, if_neg (hne _ (by decide)), if_neg (hne _ (by decide)),
    if_neg (hne _ (by decide))]

end Sample

theorem legacyRecord_decodable :
    EntryDecodable (.ascii Runtime.shortDigest) sampleLibrary Sample.zeroKey
      (.file ⟨true, [], .ok (.obj Sample.legacyRecord)⟩) := by
  refine ⟨(fun heq => by cases heq), fun loaded hload => ?_⟩
  refine ⟨Sample.legacyRecord, (Except.ok.inj hload).symm, ?_⟩
  intro _ _ payload hpayload
  refine ⟨⟨_, (Option.some.inj hpayload).symm⟩, fun text _ _ stored hstored => ?_⟩
  rw [← Option.some.inj hstored]
  exact isAscii_hexdigest _

theorem migrateLegacyDigests_safe_legacy :
    ∃ counts d',
      migrateLegacyDigests (.ascii Runtime.shortDigest) sampleLibrary Sample.keyEnviron
        Sample.dumpIndented Sample.legacyDirectory = (.ok counts, d') ∧
      MigratedSafely (.ascii Runtime.shortDigest) sampleLibrary Sample.keyEnviron
        Sample.dumpIndented Sample.zeroKeyB64 Sample.zeroKey counts Sample.legacyDirectory d' := by
  apply (@migrateLegacyDigests_safe_iff (.ascii Runtime.shortDigest) sampleLibrary
    Sample.keyEnviron Sample.dumpIndented Sample.zeroKeyB64 Sample.zeroKey (by decide)
    (by decide +kernel) Sample.legacyDirectory).mpr
  intro n hn
  have hentry : ∃ content, Sample.legacyDirectory.read n = some (.file ⟨true, [], content⟩) ∧
      (content = .ok (.obj Sample.legacyRecord) ∨ content = .error .notJson) := by
    rcases (mem_recordNames_iff.mp hn).1 with ⟨item, hitem⟩
    rw [Sample.get?_legacyDirectory] at hitem
    split at hitem
    · rename_i hbroken
      exact ⟨_, by rw [hbroken, Sample.read_brokenName], .inr rfl⟩
    split at hitem
    · rename_i halias
      exact ⟨_, by rw [halias, Sample.read_aliasName], .inl rfl⟩
    split at hitem
    · rename_i hrecord
      exact ⟨_, by rw [hrecord, Sample.read_recordName], .inl rfl⟩
    · cases hitem
  rcases hentry with ⟨content, hread, hcontent⟩
  refine ⟨?_, fun _ => Sample.get?_temporaryName n, fun _ _ _ _ => ⟨_, rfl⟩, ?_⟩
  · intro entry hentry
    rw [hread, Option.some.injEq] at hentry
    rw [← hentry]
    rcases hcontent with rfl | rfl
    · exact legacyRecord_decodable
    · exact ⟨(fun heq => by cases heq), fun _ hload => by cases hload⟩
  · intro _ _ _ _ _ entry hentry
    rw [hread, Option.some.injEq] at hentry
    rw [← hentry]
    rfl

/-- A vault file that holds a JSON list stops the migration. -/
theorem migrateLegacyDigests_raises_list :
    configuredKey Sample.keyEnviron = some Sample.zeroKeyB64 ∧
      buildFernet Sample.zeroKeyB64 = .ok Sample.zeroKey ∧
      ¬ ∀ d : Directory, ∃ counts d',
        migrateLegacyDigests (.ascii Runtime.shortDigest) sampleLibrary Sample.keyEnviron
          Sample.dumpIndented d = (.ok counts, d') ∧
        MigratedSafely (.ascii Runtime.shortDigest) sampleLibrary Sample.keyEnviron
          Sample.dumpIndented Sample.zeroKeyB64 Sample.zeroKey counts d d' := by
  refine ⟨by decide, by decide +kernel, fun h => ?_⟩
  obtain ⟨counts, d', hrun, -⟩ := h Sample.listDirectory
  have hraise : (migrateLegacyDigests (.ascii Runtime.shortDigest) sampleLibrary
      Sample.keyEnviron Sample.dumpIndented Sample.listDirectory).1 = .error .attributeError := by
    decide +kernel
  rw [hrun] at hraise
  cases hraise

end Evidence

end AuditSwarm
