import AuditSwarm.Model.Trail

/-!
# Appending to the trail

What `append_entry` stores, and exactly when it raises.
-/

namespace AuditSwarm

open Python

namespace Trail

variable {rt : Runtime} {environ : Environ} {trail : List StrEntry} {entry e : StrEntry}

/-! ## Digests under a key setting -/

/-- What a digest under a key setting is computed over. -/
def digestInput (key : Option Bytes) (data : Bytes) : DigestInput :=
  match key with
  | none => .plain data
  | some k => .keyed k data

@[simp] theorem digestInput_message (key : Option Bytes) (data : Bytes) :
    (digestInput key data).message = data := by
  cases key <;> rfl

theorem algPlain_ne_algKeyed : algPlain ≠ algKeyed := by
  simp [algPlain, algKeyed]

/-- A digest in the algorithm of the key setting never raises. -/
theorem digestHex_algFor (data : Bytes) (key : Option Bytes) :
    digestHex rt data (algFor key) key = .ok (hexdigest (rt.digest (digestInput key data))) := by
  cases key with
  | none => simp [digestHex, algFor, digestInput, algPlain_ne_algKeyed]
  | some k => simp [digestHex, algFor, digestInput]

theorem digestHex_algFor_eq_ok {data : Bytes} {key : Option Bytes} {h : Str}
    (hh : digestHex rt data (algFor key) key = .ok h) :
    h = hexdigest (rt.digest (digestInput key data)) := by
  rw [digestHex_algFor] at hh
  exact (Except.ok.inj hh).symm

theorem canonicalBytes_eq_ok_iff {j : Json} {b : Bytes} :
    canonicalBytes j = .ok b ↔ j.canonical = some b := by
  unfold canonicalBytes
  cases j.canonical <;> simp

theorem canonicalBytes_eq_error {j : Json} {e : Exn} (h : canonicalBytes j = .error e) :
    e = .digest .unicodeEncode ∧ ¬ j.Signable := by
  unfold canonicalBytes at h
  unfold Json.Signable
  cases hj : j.canonical with
  | none =>
      rw [hj] at h
      exact ⟨(Except.error.inj h).symm, by simp⟩
  | some b => simp [hj] at h

/-- The digest of a dumped value is that of its canonical bytes. -/
theorem artifactDigest_eq_ok_iff {j : Json} {d : Str} :
    artifactDigest rt j = .ok d ↔
      ∃ data, j.canonical = some data ∧ d = hexdigest (rt.digest (.plain data)) := by
  unfold artifactDigest
  simp only [Except.bind_eq_ok_iff, canonicalBytes_eq_ok_iff, Except.pure_eq_ok_iff]
  simp only [eq_comm]

theorem artifactDigest_eq_error {j : Json} {e : Exn} (h : artifactDigest rt j = .error e) :
    e = .digest .unicodeEncode ∧ ¬ j.Signable := by
  unfold artifactDigest at h
  rcases Except.bind_eq_error_iff.mp h with h | ⟨data, -, h⟩
  · exact canonicalBytes_eq_error h
  · cases h

/-- Equal digests of dumped values are digests of the same value. -/
theorem same_of_artifactDigest (hcf : rt.CollisionFree) {a b : Json} {d : Str}
    (ha : artifactDigest rt a = .ok d) (hb : artifactDigest rt b = .ok d) : Json.Same a b := by
  obtain ⟨da, hda, rfl⟩ := artifactDigest_eq_ok_iff.mp ha
  obtain ⟨db, hdb, hd⟩ := artifactDigest_eq_ok_iff.mp hb
  have hmsg : da = db := hcf (.plain da) (.plain db) (hexdigest_injective hd)
  exact Json.canonical_inj hda (hmsg ▸ hdb)

/-! ## The stored entry -/

/-- What `append_entry` computes on the way to the stored entry. -/
structure Appended (rt : Runtime) (environ : Environ) (trail : List StrEntry)
    (entry e : StrEntry) (key : Option Bytes) (prev : Str) (data : Bytes) : Prop where
  key_eq : trailKey rt environ = .ok key
  prev_eq : prevHash rt trail (algFor key) key = .ok prev
  data_eq : (canonicalEntry (linked entry (algFor key) prev).toEntry).canonical = some data
  entry_eq : e = (linked entry (algFor key) prev).set (lit "entry_hash")
    (hexdigest (rt.digest (digestInput key data)))

theorem appendEntry_eq_ok_iff :
    appendEntry rt environ trail entry = .ok e ↔
      ∃ key prev data, Appended rt environ trail entry e key prev data := by
  unfold appendEntry
  simp only [Except.bind_eq_ok_iff, Except.pure_eq_ok_iff, canonicalBytes_eq_ok_iff]
  constructor
  · rintro ⟨key, hkey, prev, hprev, data, hdata, h, hh, rfl⟩
    exact ⟨key, prev, data, hkey, hprev, hdata, by rw [digestHex_algFor_eq_ok hh]⟩
  · rintro ⟨key, prev, data, h⟩
    exact ⟨key, h.key_eq, prev, h.prev_eq, data, h.data_eq, _, digestHex_algFor _ _,
      h.entry_eq.symm⟩

theorem get?_linked {alg prev k : Str} (hk : k ∉ hashFields) :
    (linked entry alg prev).get? k = entry.get? k := by
  have h1 : lit "prev_hash" ≠ k := fun h => hk (h ▸ by simp [hashFields])
  have h2 : lit "hash_alg" ≠ k := fun h => hk (h ▸ by simp [hashFields])
  unfold linked
  rw [Dict.get?_set, if_neg h1, Dict.get?_set, if_neg h2, Dict.get?_filterKeys_of_pos]
  simpa using hk

/-- A stored entry has the fields it was given, besides the hash fields. -/
theorem get?_appendEntry (h : appendEntry rt environ trail entry = .ok e) {k : Str}
    (hk : k ∉ hashFields) : e.get? k = entry.get? k := by
  obtain ⟨key, prev, data, h⟩ := appendEntry_eq_ok_iff.mp h
  have hne : lit "entry_hash" ≠ k := fun hk' => hk (hk' ▸ by simp [hashFields])
  rw [h.entry_eq, Dict.get?_set, if_neg hne, get?_linked hk]

theorem isChained_appendEntry (h : appendEntry rt environ trail entry = .ok e) :
    isChained e.toEntry = true := by
  obtain ⟨key, prev, data, h⟩ := appendEntry_eq_ok_iff.mp h
  have hhash : e.get? (lit "entry_hash") = some _ := h.entry_eq ▸ Dict.get?_set_self ..
  simp [isChained, hashFields, Dict.contains, StrEntry.toEntry, hhash]

/-! ## Raising -/

theorem trailKey_eq_error {err : Exn} (h : trailKey rt environ = .error err) :
    ∃ c, err = .digest c := by
  unfold trailKey deriveLabelledKey deriveHmacKey at h
  split at h
  · cases h
  · cases h
  · split at h
    · exact ⟨_, (Except.error.inj h).symm⟩
    · split at h
      · exact ⟨_, (Except.error.inj h).symm⟩
      · cases h

theorem prevHash_eq_error {key : Option Bytes} {err : Exn}
    (h : prevHash rt trail (algFor key) key = .error err) : ∃ c, err = .digest c := by
  unfold prevHash legacySeal at h
  split at h
  · cases h
  · split at h
    · cases h
    · rcases Except.bind_eq_error_iff.mp h with h | ⟨data, -, h⟩
      · exact ⟨_, (canonicalBytes_eq_error h).1⟩
      · rw [digestHex_algFor] at h
        cases h

/-- `append_entry` raises nothing but what computing a digest raises. -/
theorem appendEntry_eq_error {err : Exn} (h : appendEntry rt environ trail entry = .error err) :
    ∃ c, err = .digest c := by
  unfold appendEntry at h
  rcases Except.bind_eq_error_iff.mp h with h | ⟨key, -, h⟩
  · exact trailKey_eq_error h
  rcases Except.bind_eq_error_iff.mp h with h | ⟨prev, -, h⟩
  · exact prevHash_eq_error h
  rcases Except.bind_eq_error_iff.mp h with h | ⟨data, -, h⟩
  · exact ⟨_, (canonicalBytes_eq_error h).1⟩
  rw [digestHex_algFor, Except.ok_bind] at h
  cases h

/-! ## When an entry can be recorded -/

def KeyReadable (environ : Environ) : Prop :=
  ∀ k, environ (lit "VAULT_ENCRYPTION_KEY") = some k → k ≠ [] →
    ∃ encoded raw, encodeUtf8 k = some encoded ∧ urlsafeB64decode encoded = .ok raw

/-- What the next entry links to has a UTF-8 encoding: the hash of the last entry, or the entries
before the chain. -/
def LinkEncodes (trail : List StrEntry) : Prop :=
  if (trail.map StrEntry.toEntry).any isChained then
    Encodable ((trail.getLast?.map fun e => e.getD (lit "entry_hash") []).getD [])
  else (Json.arr ((trail.map StrEntry.toEntry).map .obj)).Signable

def TextsEncode (entry : StrEntry) : Prop := ∀ kv ∈ entry, Encodable kv.1 ∧ Encodable kv.2

theorem trailKey_isOk_iff : (∃ key, trailKey rt environ = .ok key) ↔ KeyReadable environ := by
  unfold trailKey deriveLabelledKey KeyReadable
  cases henv : environ (lit "VAULT_ENCRYPTION_KEY") with
  | none => simp
  | some k =>
      cases k with
      | nil => simp
      | cons c k =>
          unfold deriveHmacKey
          cases hutf : encodeUtf8 (c :: k) with
          | none => simp [Except.map, hutf]
          | some encoded =>
              cases hdec : urlsafeB64decode encoded <;> simp [Except.map, hutf, hdec]

theorem canonicalBytes_isOk_iff {j : Json} : (∃ b, canonicalBytes j = .ok b) ↔ j.Signable := by
  unfold Json.Signable
  simp only [canonicalBytes_eq_ok_iff, Option.isSome_iff_exists]

theorem prevHash_isOk_iff {key : Option Bytes} :
    (∃ prev, prevHash rt trail (algFor key) key = .ok prev ∧ Encodable prev) ↔
      LinkEncodes trail := by
  unfold prevHash LinkEncodes
  split
  · simp
  · unfold legacySeal
    split
    · rename_i hempty
      have hgenesis : Encodable genesisHash := encodable_of_lt fun c hc => by
        rw [List.eq_of_mem_replicate hc]
        decide
      simp [hempty, hgenesis, Json.signable_arr]
    · rw [← canonicalBytes_isOk_iff]
      constructor
      · rintro ⟨prev, h, -⟩
        obtain ⟨data, hdata, -⟩ := Except.bind_eq_ok_iff.mp h
        exact ⟨data, hdata⟩
      · rintro ⟨data, hdata⟩
        refine ⟨_, ?_, encodable_hexdigest (rt.digest (digestInput key data))⟩
        rw [hdata, Except.ok_bind, digestHex_algFor]

def ownFields (entry : StrEntry) : StrEntry := entry.filterKeys fun k => !hashFields.contains k

theorem linked_eq (entry : StrEntry) (alg prev : Str) :
    linked entry alg prev =
      ownFields entry ++ [(lit "hash_alg", alg), (lit "prev_hash", prev)] := by
  have hown : ∀ k ∈ hashFields, (ownFields entry).get? k = none := fun k hk =>
    Dict.get?_filterKeys_of_neg (by simpa using hk)
  have halg : (ownFields entry).get? (lit "hash_alg") = none := hown _ (by simp [hashFields])
  have hprev : (ownFields entry).get? (lit "prev_hash") = none := hown _ (by simp [hashFields])
  unfold linked
  change ((ownFields entry).set _ _).set _ _ = _
  rw [Dict.set_eq_append _ halg, Dict.set_eq_append, List.append_assoc]
  · rfl
  · rw [Dict.get?_append, hprev]
    simp [Dict.get?]

/-- The digest of an entry covers its own fields, the algorithm and the link. -/
theorem canonicalEntry_linked (entry : StrEntry) (alg prev : Str) :
    canonicalEntry (linked entry alg prev).toEntry =
      .obj ((linked entry alg prev).map fun kv => (kv.1, .str kv.2)) := by
  unfold canonicalEntry StrEntry.toEntry Dict.mapValues Dict.filterKeys
  rw [List.filter_eq_self.mpr]
  intro kv hkv
  obtain ⟨kv', hmem, rfl⟩ := List.mem_map.mp hkv
  rw [linked_eq, List.mem_append] at hmem
  rw [decide_eq_true_eq]
  intro heq
  rcases hmem with hmem | hmem
  · have hkey := (List.mem_filter.mp hmem).2
    simp only at heq
    simp [heq, hashFields] at hkey
  · rcases List.mem_pair.mp hmem with rfl | rfl
    · simp at heq
    · simp at heq

theorem canonicalEntry_signable_iff {alg prev : Str} (halg : Encodable alg) :
    (canonicalEntry (linked entry alg prev).toEntry).Signable ↔
      TextsEncode (ownFields entry) ∧ Encodable prev := by
  rw [canonicalEntry_linked, Json.signable_obj, List.forall_mem_map, linked_eq,
    List.forall_mem_append]
  simp [TextsEncode, halg]

/-- Everything `append_entry` needs of its inputs. -/
structure Recordable (environ : Environ) (trail : List StrEntry) (entry : StrEntry) : Prop where
  key : KeyReadable environ
  link : LinkEncodes trail
  texts : TextsEncode (ownFields entry)

/-- `append_entry` returns exactly when the key is readable and every text it writes encodes. -/
theorem appendEntry_isOk_iff :
    (∃ e, appendEntry rt environ trail entry = .ok e) ↔ Recordable environ trail entry := by
  have halg : ∀ key, Encodable (algFor key) := by
    intro key
    unfold algFor algKeyed algPlain
    split <;> exact encodable_lit _
  constructor
  · rintro ⟨e, h⟩
    obtain ⟨key, prev, data, h⟩ := appendEntry_eq_ok_iff.mp h
    have hsign : (canonicalEntry (linked entry (algFor key) prev).toEntry).Signable :=
      Option.isSome_iff_exists.mpr ⟨data, h.data_eq⟩
    obtain ⟨htexts, hprev⟩ := (canonicalEntry_signable_iff (halg key)).mp hsign
    exact ⟨trailKey_isOk_iff.mp ⟨key, h.key_eq⟩, prevHash_isOk_iff.mp ⟨prev, h.prev_eq, hprev⟩,
      htexts⟩
  · rintro ⟨hkey, hlink, htexts⟩
    obtain ⟨key, hkey⟩ := (@trailKey_isOk_iff rt).mpr hkey
    obtain ⟨prev, hprev, henc⟩ := (@prevHash_isOk_iff rt _ key).mpr hlink
    obtain ⟨data, hdata⟩ := Option.isSome_iff_exists.mp
      ((canonicalEntry_signable_iff (halg key)).mpr ⟨htexts, henc⟩)
    exact ⟨_, appendEntry_eq_ok_iff.mpr ⟨key, prev, data, hkey, hprev, hdata, rfl⟩⟩

end Trail

end AuditSwarm
