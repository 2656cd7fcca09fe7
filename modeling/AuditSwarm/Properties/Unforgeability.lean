import AuditSwarm.Properties.AnchoredChain

/-!
# Keyed unforgeability

With a trail key set, an editor who cannot compute a new HMAC tag gets no trail accepted but a
prefix of a trail that `append_entry` built.
-/

namespace AuditSwarm

open Python

namespace Trail

variable {rt : Runtime}

/-- Symbolic digests: they are collision-free, and none of them is the genesis constant. -/
structure SymbolicDigests (rt : Runtime) : Prop where
  collisionFree : rt.CollisionFree
  genesis : ∀ x, hexdigest (rt.digest x) ≠ genesisHash

/-- The trails of an honest history, each built by `append_entry` on entries without a hash. -/
def HonestTrails (rt : Runtime) (honest : Set (List StrEntry)) : Prop :=
  ∀ trail ∈ honest, ∃ legacy, Unchained legacy ∧ Built rt legacy trail

/-- A text that `append_entry` wrote into an honest trail, as the hash of an entry or as its
link. -/
def Issued (rt : Runtime) (honest : Set (List StrEntry)) (tag : Str) : Prop :=
  ∃ trail ∈ honest, ∃ e ∈ trail.map StrEntry.toEntry, entryHash rt e = tag ∨ entryPrev rt e = tag

/-- The tags under the key that an editor's trail carries were all issued. -/
def TagsIssued (rt : Runtime) (key : Bytes) (honest : Set (List StrEntry)) (trail : List Entry) :
    Prop :=
  ∀ e ∈ trail, ∀ message, entryHash rt e = hexdigest (rt.digest (.keyed key message)) →
    Issued rt honest (entryHash rt e)

theorem SymbolicDigests.genesisApart (h : SymbolicDigests rt) :
    (chainScheme rt h.collisionFree).GenesisApart where
  hash := by
    intro a ⟨x, hx⟩ heq
    exact h.genesis x (hx.hash.symm.trans heq)
  sealed := by
    intro l ⟨x, _, hx⟩
    exact h.genesis x hx.symm

theorem not_tag_of_bare {e : Entry} (h : isChained e = false) :
    entryHash rt e = [] ∧ entryPrev rt e = [] := by
  unfold isChained at h
  rw [List.any_eq_false] at h
  have hnone : ∀ f ∈ hashFields, e.get? f = none := by
    intro f hf
    simpa [Dict.contains] using h f hf
  constructor
  · simp [entryHash, fieldText, Dict.getD, hnone (lit "entry_hash") (by simp [hashFields])]
  · simp [entryPrev, fieldText, Dict.getD, hnone (lit "prev_hash") (by simp [hashFields])]

/-- A tag found in a log is the last hash of the log up to some entry: it is the hash of the entry
that carries it or, as a link, the hash of the entry before. -/
theorem exists_log_of_tag (hsym : SymbolicDigests rt) {k : Nat} {trail : List Entry} {a e : Entry}
    (hlog : (chainScheme rt hsym.collisionFree).Log k trail)
    (hbare : ∀ e ∈ trail.take k, isChained e = false)
    (ha : (chainScheme rt hsym.collisionFree).Hashed a) (he : e ∈ trail)
    (htag : entryHash rt e = entryHash rt a ∨ entryPrev rt e = entryHash rt a) :
    ∃ n ≤ trail.length, (chainScheme rt hsym.collisionFree).Log k (trail.take n) ∧
      (trail.take n).getLast?.map (entryHash rt) = some (entryHash rt a) := by
  obtain ⟨x, hx⟩ := ha
  have hne := entryHash_ne_nil hx
  obtain ⟨j, hj, rfl⟩ := List.mem_iff_getElem.mp he
  -- an entry before the chain carries no tag
  have hkj : k ≤ j := by
    by_contra hlt
    have hmem : trail[j] ∈ trail.take k :=
      List.mem_take_iff_getElem.mpr ⟨j, lt_min (by omega) hj, rfl⟩
    obtain ⟨hhash, hprev⟩ := (@not_tag_of_bare rt) (hbare _ hmem)
    rcases htag with htag | htag
    · exact hne (htag.symm.trans hhash)
    · exact hne (htag.symm.trans hprev)
  have hlast : (trail.take (j + 1)).getLast? = some trail[j] := by
    rw [List.getLast?_take, if_neg (by omega), Nat.add_sub_cancel, List.getElem?_eq_getElem hj,
      Option.some_or]
  have hlogj := hlog.take (n := j + 1) (by omega)
  rcases htag with htag | htag
  · refine ⟨j + 1, hj, hlogj, ?_⟩
    rw [hlast, Option.map_some, htag]
  · obtain ⟨-, hstarts | ⟨b, hb, hprev, hdrop⟩⟩ := hlogj.last hlast
    · have hnot := hstarts.ne_hash (a := a) ⟨x, hx⟩ fun _ => hsym.genesisApart.hash ⟨x, hx⟩
      exact absurd htag hnot
    · have htake : (trail.take (j + 1)).dropLast = trail.take j := by
        rw [List.dropLast_eq_take, List.length_take, min_eq_left (by omega), Nat.add_sub_cancel,
          List.take_take, min_eq_left (by omega)]
      rw [htake] at hb hdrop
      refine ⟨j, hj.le, hdrop, ?_⟩
      rw [hb, Option.map_some, ← htag]
      exact congrArg some hprev.symm

theorem exists_log_of_issued (hsym : SymbolicDigests rt) {honest : Set (List StrEntry)}
    (hhonest : HonestTrails rt honest) {a : Entry}
    (ha : (chainScheme rt hsym.collisionFree).Hashed a) (h : Issued rt honest (entryHash rt a)) :
    ∃ trail ∈ honest, ∃ k, ∃ n ≤ trail.length,
      (chainScheme rt hsym.collisionFree).Log k ((trail.map StrEntry.toEntry).take n) ∧
      ((trail.map StrEntry.toEntry).take n).getLast?.map (entryHash rt) =
        some (entryHash rt a) := by
  obtain ⟨trail, hmem, e, he, htag⟩ := h
  obtain ⟨legacy, hlegacy, hbuilt⟩ := hhonest trail hmem
  have hbare : ∀ e ∈ legacy.map StrEntry.toEntry, isChained e = false := by
    intro e he
    obtain ⟨e', he', rfl⟩ := List.mem_map.mp he
    exact hlegacy e' he'
  rcases hbuilt.log hsym.collisionFree hlegacy with rfl | ⟨hpre, hlog⟩
  · obtain ⟨x, hx⟩ := ha
    obtain ⟨hhash, hprev⟩ := (@not_tag_of_bare rt) (hbare e he)
    rcases htag with htag | htag
    · exact absurd (htag.symm.trans hhash) (entryHash_ne_nil hx)
    · exact absurd (htag.symm.trans hprev) (entryHash_ne_nil hx)
  · have htake : (trail.map StrEntry.toEntry).take legacy.length = legacy.map StrEntry.toEntry := by
      rw [← List.map_take, ← List.prefix_iff_eq_take.mp hpre]
    obtain ⟨n, hn, hlogn, hlast⟩ := exists_log_of_tag hsym hlog (htake ▸ hbare) ha he htag
    rw [List.length_map] at hn
    exact ⟨trail, hmem, legacy.length, n, hn, hlogn, hlast⟩

/-- An accepted trail under a key ends with a keyed entry, whose hash is a tag under the key. -/
theorem Accepted.last_keyed {environ : Environ} {trail : List Entry} {anchor : Anchor}
    {key : Bytes} {st : ChainState} (h : Accepted rt environ trail anchor (some key) st) :
    ∃ last, trail.getLast? = some last ∧
      last.get? (lit "hash_alg") = some (.str algKeyed) ∧
      ∃ message, entryHash rt last = hexdigest (rt.digest (.keyed key message)) := by
  have hlinked := linked_of_chainLoop h.chain
  have hplain : st.lastPlain = none := h.keyed.resolve_left (by simp)
  have hne : trail.drop (firstChained trail) ≠ [] := by simpa using h.lt
  obtain ⟨last, hlast⟩ : ∃ last, (trail.drop (firstChained trail)).getLast? = some last :=
    ⟨_, List.getLast?_eq_some_getLast hne⟩
  have halg := (lastPlain_of_linked hlinked hlast h.chain).mp hplain
  obtain ⟨prev, alg, hchecked⟩ := hlinked.checked (List.mem_of_getLast? hlast)
  obtain rfl : alg = algKeyed := by
    have heq := hchecked.alg_eq.symm.trans halg
    exact Json.str.inj (Option.some.inj heq)
  obtain ⟨message, -, hhash⟩ := hchecked.hash
  refine ⟨last, ?_, halg, message, hhash⟩
  rwa [List.getLast?_drop, if_neg (by exact Nat.not_le.mpr h.lt)] at hlast

/-- Keyed unforgeability: whatever trail is reported as ok under a key, with a chained entry and
with no tag under the key but issued ones, is a prefix of an honest trail and ends in a keyed
entry. -/
theorem keyed_unforgeable (rt : Runtime) (hsym : SymbolicDigests rt)
    (honest : Set (List StrEntry)) (hhonest : HonestTrails rt honest) (environ : Environ)
    (key : Bytes) (hkey : trailKey rt environ = .ok (some key)) (trail' : List Entry)
    (hchained : trail'.any isChained = true) (htags : TagsIssued rt key honest trail')
    (anchor : Anchor) (artifacts : Option (Dict Str Json)) (decisions : Option (List Json))
    (v : Verification)
    (hverify : verifyTrail rt environ trail' anchor artifacts decisions = .ok v)
    (hok : v.status = .ok) :
    ∃ trail ∈ honest, PrefixOf rt trail' (trail.map StrEntry.toEntry) ∧
      ∃ last, trail'.getLast? = some last ∧
        last.get? (lit "hash_alg") = some (.str algKeyed) := by
  rcases verifyTrail_ok hverify hok with ⟨rfl, -⟩ | ⟨key', st, hacc⟩
  · cases hchained
  obtain rfl : key' = some key := Except.ok.inj (hacc.key_eq.symm.trans hkey)
  obtain ⟨last, hlast, halg, message, htag⟩ := hacc.last_keyed
  have hlog' := log_of_runChain hsym.collisionFree hacc.lt hacc.chain
  have hissued := htags last (List.mem_of_getLast? hlast) message htag
  obtain ⟨hhashed, -⟩ := hlog'.last hlast
  obtain ⟨trail, hmem, k, n, hn, hlog, hlastn⟩ := exists_log_of_issued hsym hhonest hhashed hissued
  have heq : trail'.getLast?.map (entryHash rt) =
      ((trail.map StrEntry.toEntry).take n).getLast?.map (entryHash rt) := by
    rw [hlast, hlastn, Option.map_some]
  obtain ⟨-, hagree, hagree'⟩ := hlog'.agree hlog heq (.inr hsym.genesisApart)
  have hsame := sameEntries_of_agree hagree hagree' fun e he => unchained_of_mem_take he
  have hlen : trail'.length = n := by
    have hl := hsame.length_eq
    rw [List.length_take, List.length_map, min_eq_left hn] at hl
    exact hl
  refine ⟨trail, hmem, ?_, last, hlast, halg⟩
  rw [PrefixOf, hlen]
  exact hsame

theorem symbolicDigests_transparent : SymbolicDigests Sample.transparent where
  collisionFree := Runtime.collisionFree_transparent
  genesis := by
    intro x h
    have hsnd : (hexdigest (Sample.transparent.digest x))[1]? = some 48 := by
      rw [h]
      decide
    cases x with
    | plain message => exact absurd hsnd (by simp [Sample.transparent, Runtime.ascii,
        Runtime.digest, Runtime.transparentDigest, hexdigest, hexDigit])
    | keyed key message => exact absurd hsnd (by simp [Sample.transparent, Runtime.ascii,
        Runtime.digest, Runtime.transparentDigest, hexdigest, hexDigit])

/-- A trail with an entry before its chain, one chained before the key was set and two after. -/
theorem keyed_unforgeable_note :
    ∃ trail ∈ ({Sample.keyed ["b", "c"]} : Set (List StrEntry)),
      PrefixOf Sample.transparent ((Sample.keyed ["b"]).map StrEntry.toEntry)
        (trail.map StrEntry.toEntry) ∧
      ∃ last, ((Sample.keyed ["b"]).map StrEntry.toEntry).getLast? = some last ∧
        last.get? (lit "hash_alg") = some (.str algKeyed) := by
  obtain ⟨v, hv, hok⟩ := Except.map_eq_ok_iff.mp (by decide +kernel :
    (verifyTrail Sample.transparent Sample.keySet ((Sample.keyed ["b"]).map StrEntry.toEntry)
      none none none).map (·.status) = .ok .ok)
  have hbuilt : Built Sample.transparent [Sample.note "old"] (Sample.keyed ["b", "c"]) :=
    @Built.appendAll _ _ _ _ (Sample.keyedNotes ["b", "c"]) .start (by decide +kernel)
  have hkey : trailKey Sample.transparent Sample.keySet = .ok (some Sample.key) := by
    decide +kernel
  have hchained : ((Sample.keyed ["b"]).map StrEntry.toEntry).any isChained = true := by
    decide +kernel
  have hpre : Sample.keyed ["b"] <+: Sample.keyed ["b", "c"] :=
    List.isPrefixOf_iff_prefix.mp (by decide +kernel)
  have hhonest : HonestTrails Sample.transparent {Sample.keyed ["b", "c"]} := by
    intro trail htrail
    rw [Set.mem_singleton_iff.mp htrail]
    exact ⟨[Sample.note "old"], by unfold Unchained; decide +kernel, hbuilt⟩
  have htags : TagsIssued Sample.transparent Sample.key {Sample.keyed ["b", "c"]}
      ((Sample.keyed ["b"]).map StrEntry.toEntry) := by
    intro e he message _
    have he' := (hpre.map StrEntry.toEntry).subset he
    exact ⟨_, Set.mem_singleton _, e, he', .inl (Eq.refl _)⟩
  exact keyed_unforgeable Sample.transparent symbolicDigests_transparent _ hhonest Sample.keySet
    Sample.key hkey _ hchained htags none none none v hv hok

end Trail

end AuditSwarm
