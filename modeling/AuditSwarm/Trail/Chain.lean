import AuditSwarm.Lib.SealedChain
import AuditSwarm.Trail.Append

/-!
# The chain of the trail

The approval trail as a sealed chain: its hashes are digests of canonical entries, and what a
digest covers is determined by the digest when digests are collision-free.
-/

namespace AuditSwarm

open Python

namespace Trail

variable {rt : Runtime}

/-! ## Hashed entries -/

def entryHash (rt : Runtime) (e : Entry) : Str := fieldText rt e (lit "entry_hash")

def entryPrev (rt : Runtime) (e : Entry) : Str := fieldText rt e (lit "prev_hash")

/-- The hash of an entry is the digest of `x`, and `x` covers the rest of the entry. -/
structure HashedBy (rt : Runtime) (e : Entry) (x : DigestInput) : Prop where
  content : (canonicalEntry e).canonical = some x.message
  hash : entryHash rt e = hexdigest (rt.digest x)
  link : Runtime.Scalar (e.getD (lit "prev_hash") (.str []))

/-- A text is the digest of the entries before a chain. -/
def SealedBy (rt : Runtime) (h : Str) (bare : List Entry) : Prop :=
  ∃ x : DigestInput, (Json.arr (bare.map .obj)).canonical = some x.message ∧
    h = hexdigest (rt.digest x)

def SameFields (a b : Entry) : Prop := Json.Same (.obj a) (.obj b)

theorem digest_message (hcf : rt.CollisionFree) {x y : DigestInput}
    (h : hexdigest (rt.digest x) = hexdigest (rt.digest y)) : x.message = y.message :=
  hcf x y (hexdigest_injective h)

theorem getD_same {a b : Entry} {k : Str} {v : Json}
    (h : (a.get? k).map Json.sortKeys = (b.get? k).map Json.sortKeys) :
    Json.Same (a.getD k v) (b.getD k v) := by
  unfold Dict.getD
  cases ha : a.get? k with
  | none =>
      cases hb : b.get? k with
      | none => rfl
      | some w => simp [ha, hb] at h
  | some u =>
      cases hb : b.get? k with
      | none => simp [ha, hb] at h
      | some w =>
          rw [ha, hb] at h
          exact Option.some.inj h

theorem get?_canonicalEntry {a b : Entry} (h : Json.Same (canonicalEntry a) (canonicalEntry b))
    {k : Str} (hk : k ≠ lit "entry_hash") :
    (a.get? k).map Json.sortKeys = (b.get? k).map Json.sortKeys := by
  have hget := Json.Same.get? h k
  rwa [Dict.get?_filterKeys_of_pos (by simpa using hk),
    Dict.get?_filterKeys_of_pos (by simpa using hk)] at hget

def chainScheme (rt : Runtime) (hcf : rt.CollisionFree) : ChainScheme Entry Str where
  hash := entryHash rt
  prev := entryPrev rt
  genesis := genesisHash
  Hashed e := ∃ x, HashedBy rt e x
  Seals := SealedBy rt
  Agree a b := Json.Same (canonicalEntry a) (canonicalEntry b)
  AgreeBare := SameFields
  agree_of_hash := by
    intro a b ⟨x, hx⟩ ⟨y, hy⟩ heq
    rw [hx.hash, hy.hash] at heq
    exact Json.canonical_inj hx.content (digest_message hcf heq ▸ hy.content)
  prev_of_agree := by
    intro a b ⟨x, hx⟩ _ hagree
    have hsame := getD_same (v := .str []) (get?_canonicalEntry hagree (k := lit "prev_hash")
      (by simp))
    exact congrArg rt.textOf (Runtime.eq_of_same_scalar hx.link hsame)
  not_seals_hash := by
    intro a l ⟨x, hx⟩ ⟨y, hy, heq⟩
    rw [hx.hash] at heq
    have hsame := Json.canonical_inj hx.content (digest_message hcf heq ▸ hy)
    simp [Json.Same, canonicalEntry, Json.sortKeys] at hsame
  agree_of_seals := by
    intro h l l' ⟨x, hx, hh⟩ ⟨y, hy, hh'⟩
    have hmsg := digest_message hcf (hh.symm.trans hh')
    have hsame := (Json.canonical_inj hx (hmsg ▸ hy)).elems
    rwa [List.forall₂_map_left_iff, List.forall₂_map_right_iff] at hsame

theorem get?_hash_of_bare {e : Entry} (h : isChained e = false) :
    e.get? (lit "entry_hash") = none := by
  unfold isChained at h
  rw [List.any_eq_false] at h
  have hnone := h (lit "entry_hash") (by simp [hashFields])
  simpa [Dict.contains] using hnone

theorem entryHash_ne_nil {e : Entry} {x : DigestInput} (h : HashedBy rt e x) :
    entryHash rt e ≠ [] := by
  rw [h.hash]
  exact hexdigest_ne_nil (rt.digest_ne_nil x)

theorem isChained_of_hashedBy {e : Entry} {x : DigestInput} (h : HashedBy rt e x) :
    isChained e = true := by
  by_contra hc
  rw [Bool.not_eq_true] at hc
  have hnone := get?_hash_of_bare hc
  exact entryHash_ne_nil h (by simp [entryHash, fieldText, Dict.getD, hnone])

/-! ## The same entries -/

/-- Two entries are the same field for field; the hash is compared as text. -/
structure SameEntry (rt : Runtime) (a b : Entry) : Prop where
  fields : ∀ k, k ≠ lit "entry_hash" →
    (a.get? k).map Json.sortKeys = (b.get? k).map Json.sortKeys
  hash : (a.get? (lit "entry_hash")).map rt.textOf = (b.get? (lit "entry_hash")).map rt.textOf

theorem get?_of_entryHash {e : Entry} (h : entryHash rt e ≠ []) :
    (e.get? (lit "entry_hash")).map rt.textOf = some (entryHash rt e) := by
  unfold entryHash fieldText Dict.getD at *
  cases he : e.get? (lit "entry_hash") with
  | none => simp [he] at h
  | some v => simp

theorem sameEntry_of_agreeHashed {hcf : rt.CollisionFree} {a b : Entry}
    (h : (chainScheme rt hcf).AgreeHashed a b) : SameEntry rt a b := by
  obtain ⟨x, hx⟩ := h.hashed
  have hne := entryHash_ne_nil hx
  have heq : entryHash rt a = entryHash rt b := h.hash
  refine ⟨fun _ hk => get?_canonicalEntry h.content hk, ?_⟩
  rw [get?_of_entryHash hne, get?_of_entryHash (heq ▸ hne), heq]

theorem sameEntry_of_sameFields {a b : Entry} (h : SameFields a b) (ha : isChained a = false) :
    SameEntry rt a b := by
  refine ⟨fun k _ => Json.Same.get? h k, ?_⟩
  have hget := Json.Same.get? h (lit "entry_hash")
  rw [get?_hash_of_bare ha, Option.map_none] at hget
  rw [get?_hash_of_bare ha, Option.map_eq_none_iff.mp hget.symm]

/-- Two logs of the trail that agree as logs have the same entries. -/
theorem sameEntries_of_agree {hcf : rt.CollisionFree} {k : Nat} {T T' : List Entry}
    (hbare : List.Forall₂ (chainScheme rt hcf).AgreeBare (T.take k) (T'.take k))
    (hchain : List.Forall₂ (chainScheme rt hcf).AgreeHashed (T.drop k) (T'.drop k))
    (hunchained : ∀ e ∈ T.take k, isChained e = false) :
    List.Forall₂ (SameEntry rt) T T' := by
  rw [← List.take_append_drop k T, ← List.take_append_drop k T']
  refine List.rel_append ?_ (hchain.imp fun _ _ h => sameEntry_of_agreeHashed h)
  rw [List.forall₂_iff_get] at hbare ⊢
  refine ⟨hbare.1, fun i hi hi' => ?_⟩
  exact sameEntry_of_sameFields (hbare.2 i hi hi') (hunchained _ (List.get_mem _ _))

end Trail

end AuditSwarm
