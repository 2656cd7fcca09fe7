import AuditSwarm.Trail.Chain

/-!
# What verification establishes

The chain loop of `verify_trail`, entry by entry: what one pass has checked, and that the entries
it went through are a sealed chain.  The last part reads off what an accepted trail satisfies.
-/

namespace AuditSwarm

open Python

namespace Trail

variable {rt : Runtime} {environ : Environ} {key : Option Bytes}

/-! ## Digests and comparisons -/

theorem compareDigest_eq_ok {a b : Str} {r : Bool} (h : compareDigest a b = .ok r) :
    r = decide (a = b) := by
  unfold compareDigest at h
  split at h
  · exact (Except.ok.inj h).symm
  · cases h

theorem compareDigest_true {a b : Str} (h : compareDigest a b = .ok true) : a = b :=
  of_decide_eq_true (compareDigest_eq_ok h).symm

def inputFor (alg : Str) (key : Option Bytes) (data : Bytes) : DigestInput :=
  if alg = algKeyed then digestInput key data else .plain data

@[simp] theorem inputFor_message (alg : Str) (key : Option Bytes) (data : Bytes) :
    (inputFor alg key data).message = data := by
  unfold inputFor
  split
  · exact digestInput_message key data
  · rfl

theorem digestHex_eq_ok {data : Bytes} {alg h : Str} (hh : digestHex rt data alg key = .ok h) :
    h = hexdigest (rt.digest (inputFor alg key data)) := by
  unfold digestHex at hh
  unfold inputFor
  by_cases halg : alg = algKeyed
  · rw [if_pos halg] at hh ⊢
    cases key with
    | none => cases hh
    | some k => exact (Except.ok.inj hh).symm
  · rw [if_neg halg] at hh ⊢
    exact (Except.ok.inj hh).symm

theorem bracketFree_genesis : BracketFree genesisHash := by
  intro c hc
  rw [List.eq_of_mem_replicate hc]
  decide

/-- The link of the first entry of a chain: a fixed value, or a digest of the entries before. -/
theorem legacySeal_eq_ok {bare : List Entry} {alg p : Str}
    (h : legacySeal rt bare alg key = .ok p) :
    BracketFree p ∧ ((bare = [] ∧ p = genesisHash) ∨ (bare ≠ [] ∧ SealedBy rt p bare)) := by
  unfold legacySeal at h
  split at h
  · obtain rfl := Except.ok.inj h
    exact ⟨bracketFree_genesis, .inl ⟨‹_›, rfl⟩⟩
  · obtain ⟨data, hdata, hp⟩ := Except.bind_eq_ok_iff.mp h
    have hp' := digestHex_eq_ok hp
    refine ⟨hp' ▸ bracketFree_hexdigest _, .inr ⟨‹_›, inputFor alg key data, ?_, hp'⟩⟩
    rw [inputFor_message]
    exact canonicalBytes_eq_ok_iff.mp hdata

theorem starts_of_legacySeal {hcf : rt.CollisionFree} {bare : List Entry} {alg p : Str}
    (h : legacySeal rt bare alg key = .ok p) : (chainScheme rt hcf).Starts p bare := by
  rcases (legacySeal_eq_ok h).2 with ⟨rfl, rfl⟩ | ⟨hne, hs⟩
  · rfl
  · obtain ⟨e, l, rfl⟩ := List.exists_cons_of_ne_nil hne
    exact hs

/-! ## The chain loop -/

/-- What the loop carries after an entry under an algorithm. -/
def ChainState.advance (st : ChainState) (i : Nat) (alg : Str) (hash : Str) : ChainState where
  keyedEntries := if alg = algKeyed then st.keyedEntries + 1 else st.keyedEntries
  lastPlain :=
    if alg = algKeyed then none else if st.lastPlain = none then some i else st.lastPlain
  expectedPrev := some hash

/-- What an entry must link to after the hash `prev`, or as the first of a chain. -/
def linkTo (rt : Runtime) (key : Option Bytes) (bare : List Entry) (alg : Str)
    (prev : Option Str) : Except Exn Str :=
  match prev with
  | some p => .ok p
  | none => legacySeal rt bare alg key

structure EntryChecked (rt : Runtime) (key : Option Bytes) (bare : List Entry)
    (prev : Option Str) (e : Entry) (alg : Str) : Prop where
  alg_eq : e.get? (lit "hash_alg") = some (.str alg)
  known : alg = algKeyed ∨ alg = algPlain
  keyed : alg = algKeyed → key ≠ none
  truthy : fieldTruthy e (lit "entry_hash") = true
  link : linkTo rt key bare alg prev = .ok (entryPrev rt e)
  hash : ∃ data, (canonicalEntry e).canonical = some data ∧
    entryHash rt e = hexdigest (rt.digest (inputFor alg key data))

structure KeyedEntry (e : Entry) : Prop where
  alg : e.get? (lit "hash_alg") = some (.str algKeyed)
  truthy : fieldTruthy e (lit "entry_hash") = true

/-- What the loop does at an entry: it reports a broken chain, or a missing key at a keyed entry,
or it has checked the entry and goes on. -/
theorem chainLoop_cases {bare rest : List Entry} {e : Entry} {i : Nat} {st : ChainState}
    {c : ChainCheck} (h : chainLoop rt key bare i (e :: rest) st = .ok c) :
    (∃ index detail, c = .stop .broken index detail) ∨
    (key = none ∧ KeyedEntry e ∧ ∃ detail, c = .stop .keyUnavailable none detail) ∨
    ∃ alg, EntryChecked rt key bare st.expectedPrev e alg ∧
      chainLoop rt key bare (i + 1) rest (st.advance i alg (entryHash rt e)) = .ok c := by
  rw [chainLoop] at h
  split at h
  · rename_i storedHash alg hhash halg
    have htext : rt.textOf storedHash = entryHash rt e := by
      simp [entryHash, fieldText, Dict.getD, hhash]
    split at h
    · exact .inl ⟨_, _, (Except.ok.inj h).symm⟩
    rename_i hfields
    simp only [Bool.or_eq_true, Bool.not_eq_true', decide_eq_true_eq, not_or,
      Bool.not_eq_false] at hfields
    have htruthy : fieldTruthy e (lit "entry_hash") = true := by
      simpa [fieldTruthy, hhash] using hfields.1
    split at h
    · rename_i hkeyed
      simp only [Bool.and_eq_true, decide_eq_true_eq] at hkeyed
      exact .inr (.inl ⟨hkeyed.2, ⟨hkeyed.1 ▸ halg, htruthy⟩, _, (Except.ok.inj h).symm⟩)
    rename_i hkeyed
    simp only [Bool.and_eq_true, decide_eq_true_eq, not_and] at hkeyed
    simp only [Except.bind_eq_ok_iff] at h
    obtain ⟨expected, hexpected, same, hsame, h⟩ := h
    cases same with
    | false => exact .inl ⟨_, _, (Except.ok.inj h).symm⟩
    | true =>
        simp only [Bool.not_true, Bool.false_eq_true, if_false, Except.bind_eq_ok_iff] at h
        obtain ⟨data, hdata, recomputed, hrecomputed, same', hsame', h⟩ := h
        cases same' with
        | false => exact .inl ⟨_, _, (Except.ok.inj h).symm⟩
        | true =>
            simp only [Bool.not_true, Bool.false_eq_true, if_false] at h
            have hprev : entryPrev rt e = expected := compareDigest_true hsame
            have hcontent : recomputed = rt.textOf storedHash := compareDigest_true hsame'
            refine .inr (.inr ⟨alg, ⟨halg, ?_, hkeyed, htruthy, hprev ▸ hexpected, data,
              canonicalBytes_eq_ok_iff.mp hdata, ?_⟩, ?_⟩)
            · simpa using hfields.2
            · rw [← htext, ← hcontent, digestHex_eq_ok hrecomputed]
            · rw [← htext]
              exact h
  · exact .inl ⟨_, _, (Except.ok.inj h).symm⟩

/-- The loop goes through an entry exactly by checking it and going on. -/
theorem chainLoop_cons {bare rest : List Entry} {e : Entry} {i : Nat} {st st' : ChainState}
    (h : chainLoop rt key bare i (e :: rest) st = .ok (.through st')) :
    ∃ alg, EntryChecked rt key bare st.expectedPrev e alg ∧
      chainLoop rt key bare (i + 1) rest (st.advance i alg (entryHash rt e)) =
        .ok (.through st') := by
  rcases chainLoop_cases h with ⟨_, _, hc⟩ | ⟨-, -, _, hc⟩ | hgo
  · cases hc
  · cases hc
  · exact hgo

theorem EntryChecked.bracketFree_hash {bare : List Entry} {prev : Option Str} {e : Entry}
    {alg : Str} (h : EntryChecked rt key bare prev e alg) : BracketFree (entryHash rt e) := by
  obtain ⟨data, -, hhash⟩ := h.hash
  rw [hhash]
  exact bracketFree_hexdigest _

/-- A checked entry is hashed, if what it had to link to is a text without brackets. -/
theorem EntryChecked.hashedBy {bare : List Entry} {prev : Option Str} {e : Entry} {alg : Str}
    (h : EntryChecked rt key bare prev e alg) (hprev : ∀ p ∈ prev, BracketFree p) :
    ∃ data, HashedBy rt e (inputFor alg key data) := by
  obtain ⟨data, hdata, hhash⟩ := h.hash
  refine ⟨data, by rw [inputFor_message]; exact hdata, hhash, ?_⟩
  have hlink := h.link
  refine Runtime.scalar_of_textOf rt ?_
  change BracketFree (entryPrev rt e)
  cases prev with
  | none => exact (legacySeal_eq_ok hlink).1
  | some p =>
      rw [← Except.ok.inj hlink]
      exact hprev p rfl

/-- The loop state after the entries `done`, newest first: they are a chain, and the next entry
must link to the newest of them. -/
structure ChainedState (rt : Runtime) (hcf : rt.CollisionFree) (bare done : List Entry)
    (st : ChainState) : Prop where
  expected : st.expectedPrev = done.head?.map (entryHash rt)
  chained : done = [] ∨ (chainScheme rt hcf).Chained bare done
  bracketFree : ∀ p ∈ st.expectedPrev, BracketFree p

theorem ChainedState.advance {hcf : rt.CollisionFree} {bare done : List Entry} {st : ChainState}
    {e : Entry} {alg : Str} {i : Nat} (hst : ChainedState rt hcf bare done st)
    (he : EntryChecked rt key bare st.expectedPrev e alg) :
    ChainedState rt hcf bare (e :: done) (st.advance i alg (entryHash rt e)) := by
  obtain ⟨data, hhashed⟩ := he.hashedBy hst.bracketFree
  refine ⟨rfl, .inr ?_, ?_⟩
  · have hlink := he.link
    rw [hst.expected] at hlink
    cases done with
    | nil => exact .start ⟨_, hhashed⟩ (starts_of_legacySeal hlink)
    | cons a done =>
        have hchain := hst.chained.resolve_left (by simp)
        exact .link hchain ⟨_, hhashed⟩ (Except.ok.inj hlink).symm
  · intro p hp
    obtain rfl := Option.some.inj hp
    exact he.bracketFree_hash

theorem chainLoop_chained {hcf : rt.CollisionFree} {bare rest done : List Entry} {i : Nat}
    {st st' : ChainState} (hst : ChainedState rt hcf bare done st)
    (h : chainLoop rt key bare i rest st = .ok (.through st')) :
    ChainedState rt hcf bare (rest.reverse ++ done) st' := by
  induction rest generalizing done i st with
  | nil =>
      rw [chainLoop] at h
      cases h
      exact hst
  | cons e rest ih =>
      obtain ⟨alg, he, hrest⟩ := chainLoop_cons h
      rw [List.reverse_cons, List.append_assoc, List.singleton_append]
      exact ih (hst.advance he) hrest

/-! ## Linked entries -/

/-- Entries that follow each other, the first one after the hash `prev` or as the first of a
chain. -/
def Linked (rt : Runtime) (key : Option Bytes) (bare : List Entry) :
    Option Str → List Entry → Prop
  | _, [] => True
  | prev, e :: rest =>
      (∃ alg, EntryChecked rt key bare prev e alg) ∧ Linked rt key bare (some (entryHash rt e)) rest

theorem compareDigest_self {s : Str} (h : isAscii s = true) : compareDigest s s = .ok true := by
  simp [compareDigest, h]

theorem isAscii_of_legacySeal {bare : List Entry} {alg p : Str}
    (h : legacySeal rt bare alg key = .ok p) : isAscii p = true := by
  rcases (legacySeal_eq_ok h).2 with ⟨-, rfl⟩ | ⟨-, x, -, rfl⟩
  · decide
  · exact isAscii_hexdigest _

theorem EntryChecked.isAscii_hash {bare : List Entry} {prev : Option Str} {e : Entry}
    {alg : Str} (h : EntryChecked rt key bare prev e alg) : isAscii (entryHash rt e) = true := by
  obtain ⟨data, -, hhash⟩ := h.hash
  rw [hhash]
  exact isAscii_hexdigest _

theorem digestHex_of_known {alg : Str} (hkeyed : alg = algKeyed → key ≠ none) (data : Bytes) :
    digestHex rt data alg key = .ok (hexdigest (rt.digest (inputFor alg key data))) := by
  unfold digestHex inputFor
  by_cases halg : alg = algKeyed
  · rw [if_pos halg, if_pos halg]
    cases key with
    | none => exact absurd rfl (hkeyed halg)
    | some k => rfl
  · rw [if_neg halg, if_neg halg]

/-- The loop goes on after an entry that passes the checks. -/
theorem chainLoop_checked {bare rest : List Entry} {e : Entry} {alg : Str} {i : Nat}
    {st : ChainState} (he : EntryChecked rt key bare st.expectedPrev e alg)
    (hascii : ∀ p ∈ st.expectedPrev, isAscii p = true) :
    chainLoop rt key bare i (e :: rest) st =
      chainLoop rt key bare (i + 1) rest (st.advance i alg (entryHash rt e)) := by
  have htruthy := he.truthy
  unfold fieldTruthy at htruthy
  cases hhash : e.get? (lit "entry_hash") with
  | none => simp [hhash] at htruthy
  | some storedHash =>
      rw [hhash] at htruthy
      obtain ⟨data, hdata, hdigest⟩ := he.hash
      have htext : rt.textOf storedHash = entryHash rt e := by
        simp [entryHash, fieldText, Dict.getD, hhash]
      have hprev : isAscii (entryPrev rt e) = true := by
        have hlink := he.link
        cases hp : st.expectedPrev with
        | none =>
            rw [hp] at hlink
            exact isAscii_of_legacySeal hlink
        | some p =>
            rw [hp] at hlink
            rw [← Except.ok.inj hlink]
            exact hascii p hp
      have hlink : expectedPrev rt key bare alg st = .ok (entryPrev rt e) := he.link
      have hfields : (!storedHash.truthy || !(decide (alg = algKeyed) || decide (alg = algPlain)))
          = false := by
        rcases he.known with rfl | rfl <;> simpa using htruthy
      have hkeyed : (decide (alg = algKeyed) && decide (key = none)) = false := by
        simpa using he.keyed
      rw [chainLoop]
      simp only [hhash, he.alg_eq, hfields, hkeyed, hlink, Except.ok_bind, Bool.false_eq_true,
        if_false]
      rw [show fieldText rt e (lit "prev_hash") = entryPrev rt e from rfl,
        compareDigest_self hprev, canonicalBytes_eq_ok_iff.mpr hdata]
      simp only [Except.ok_bind, Bool.not_true, Bool.false_eq_true, if_false,
        digestHex_of_known he.keyed, ← hdigest, htext, compareDigest_self he.isAscii_hash]
      rfl

theorem chainLoop_of_linked {bare es rest : List Entry} {i : Nat} {st : ChainState}
    (h : Linked rt key bare st.expectedPrev es)
    (hascii : ∀ p ∈ st.expectedPrev, isAscii p = true) :
    ∃ j st', chainLoop rt key bare i (es ++ rest) st = chainLoop rt key bare j rest st' ∧
      (∀ p ∈ st'.expectedPrev, isAscii p = true) ∧
      (∀ e ∈ es.getLast?, (st'.lastPlain = none ↔
        e.get? (lit "hash_alg") = some (.str algKeyed))) ∧
      (es = [] → st' = st) := by
  induction es generalizing i st with
  | nil => exact ⟨i, st, rfl, hascii, by simp, fun _ => rfl⟩
  | cons e es ih =>
      obtain ⟨⟨alg, he⟩, hrest⟩ := h
      have hascii' : ∀ p ∈ (st.advance i alg (entryHash rt e)).expectedPrev, isAscii p = true := by
        intro p hp
        obtain rfl := Option.some.inj hp
        exact he.isAscii_hash
      obtain ⟨j, st', hloop, hst', hlast, hnil⟩ := ih (i := i + 1) hrest hascii'
      refine ⟨j, st', ?_, hst', ?_, by simp⟩
      · rw [List.cons_append, chainLoop_checked he hascii, hloop]
      · cases es with
        | cons e' es => exact hlast
        | nil =>
            rw [hnil rfl]
            intro e' he'
            obtain rfl : e = e' := by simpa using he'
            rw [he.alg_eq, Option.some.injEq, Json.str.injEq]
            simp only [ChainState.advance]
            by_cases halg : alg = algKeyed
            · simp [halg]
            · by_cases hp : st.lastPlain = none
              · simp [halg, hp]
              · simp [halg, hp]

theorem Linked.checked {bare es : List Entry} {prev : Option Str} {e : Entry}
    (h : Linked rt key bare prev es) (he : e ∈ es) :
    ∃ prev' alg, EntryChecked rt key bare prev' e alg := by
  induction es generalizing prev with
  | nil => cases he
  | cons e' es ih =>
      rcases List.mem_cons.mp he with rfl | he
      · exact ⟨prev, h.1⟩
      · exact ih h.2 he

/-- After linked entries the loop carries an unkeyed index exactly when the last one is unkeyed. -/
theorem lastPlain_of_linked {bare es : List Entry} {i : Nat} {st : ChainState} {last : Entry}
    (h : Linked rt key bare none es) (hlast : es.getLast? = some last)
    (hst : chainLoop rt key bare i es ⟨0, none, none⟩ = .ok (.through st)) :
    st.lastPlain = none ↔ last.get? (lit "hash_alg") = some (.str algKeyed) := by
  obtain ⟨j, st', hloop, -, hst', -⟩ := @chainLoop_of_linked _ _ _ _ [] i ⟨0, none, none⟩ h (by simp)
  rw [List.append_nil, hst] at hloop
  obtain rfl : st = st' := by simpa [chainLoop] using hloop
  exact hst' last hlast

theorem linked_of_chainLoop {bare es : List Entry} {i : Nat} {st st' : ChainState}
    (h : chainLoop rt key bare i es st = .ok (.through st')) :
    Linked rt key bare st.expectedPrev es := by
  induction es generalizing i st with
  | nil => trivial
  | cons e es ih =>
      obtain ⟨alg, he, hrest⟩ := chainLoop_cons h
      exact ⟨⟨alg, he⟩, ih hrest⟩

/-! ## Stopping early -/

theorem chainLoop_keyedEntry {bare rest : List Entry} {e : Entry} {i : Nat} {st : ChainState}
    (he : KeyedEntry e) :
    ∃ detail, chainLoop rt none bare i (e :: rest) st = .ok (.stop .keyUnavailable none detail) := by
  have htruthy := he.truthy
  unfold fieldTruthy at htruthy
  cases hhash : e.get? (lit "entry_hash") with
  | none => simp [hhash] at htruthy
  | some storedHash =>
      rw [hhash] at htruthy
      rw [chainLoop]
      simp only [hhash, he.alg]
      simp only [show storedHash.truthy = true from htruthy]
      exact ⟨_, rfl⟩

/-- The loop reports a missing key only at a keyed entry after linked ones. -/
theorem keyedEntry_of_chainLoop {bare es : List Entry} {i : Nat} {st : ChainState}
    {index : Option Nat} {detail : Str}
    (h : chainLoop rt key bare i es st = .ok (.stop .keyUnavailable index detail)) :
    key = none ∧ ∃ pre e post, es = pre ++ e :: post ∧
      Linked rt key bare st.expectedPrev pre ∧ KeyedEntry e := by
  induction es generalizing i st with
  | nil => cases h
  | cons e es ih =>
      rcases chainLoop_cases h with ⟨_, _, hc⟩ | ⟨hkey, he, _, -⟩ | ⟨alg, he, hrest⟩
      · cases hc
      · exact ⟨hkey, [], e, es, rfl, trivial, he⟩
      · obtain ⟨hkey, pre, e', post, rfl, hpre, he'⟩ := ih hrest
        exact ⟨hkey, e :: pre, e', post, rfl, ⟨⟨alg, he⟩, hpre⟩, he'⟩

/-- A loop that stops reports a broken chain or a missing key. -/
theorem chainLoop_stop {bare es : List Entry} {i : Nat} {st : ChainState} {status : Status}
    {index : Option Nat} {detail : Str}
    (h : chainLoop rt key bare i es st = .ok (.stop status index detail)) :
    status = .broken ∨ status = .keyUnavailable := by
  induction es generalizing i st with
  | nil => cases h
  | cons e es ih =>
      rcases chainLoop_cases h with ⟨_, _, hc⟩ | ⟨-, -, _, hc⟩ | ⟨alg, -, hrest⟩
      · cases hc
        exact .inl rfl
      · cases hc
        exact .inr rfl
      · exact ih hrest

/-- A failed anchor check reports a cut or a diverging trail. -/
theorem anchorCheck_failed {trail : List Entry} {count index : Nat} {headHash detail : Str}
    {status : Status}
    (h : anchorCheck rt trail count headHash = .ok (some (status, index, detail))) :
    status = .truncated ∨ status = .anchorMismatch := by
  unfold anchorCheck at h
  split at h
  · cases h
  split at h
  · cases h
    exact .inl rfl
  obtain ⟨same, -, h⟩ := Except.bind_eq_ok_iff.mp h
  cases same with
  | true => cases h
  | false =>
      cases h
      exact .inr rfl

/-! ## Accepted trails -/

def firstChained (trail : List Entry) : Nat := trail.findIdx isChained

theorem unchained_of_mem_take {trail : List Entry} {e : Entry}
    (he : e ∈ trail.take (firstChained trail)) : isChained e = false := by
  rw [firstChained, List.mem_take_iff_getElem] at he
  obtain ⟨i, hi, rfl⟩ := he
  have hlt : i < trail.findIdx isChained := lt_of_lt_of_le hi (min_le_left _ _)
  simpa using List.not_of_lt_findIdx hlt

def runChain (rt : Runtime) (key : Option Bytes) (trail : List Entry) : Except Exn ChainCheck :=
  chainLoop rt key (trail.take (firstChained trail)) (firstChained trail)
    (trail.drop (firstChained trail)) ⟨0, none, none⟩

theorem log_of_runChain (hcf : rt.CollisionFree) {trail : List Entry} {st : ChainState}
    (hlt : firstChained trail < trail.length) (h : runChain rt key trail = .ok (.through st)) :
    (chainScheme rt hcf).Log (firstChained trail) trail := by
  have hstart : ChainedState rt hcf (trail.take (firstChained trail)) [] ⟨0, none, none⟩ :=
    ⟨rfl, .inl rfl, by simp⟩
  have hchained := (chainLoop_chained hstart h).chained
  rw [List.append_nil] at hchained
  exact ⟨hlt, hchained.resolve_left (by simpa using hlt)⟩

/-- What an accepted trail with chained entries has passed. -/
structure Accepted (rt : Runtime) (environ : Environ) (trail : List Entry) (anchor : Anchor)
    (key : Option Bytes) (st : ChainState) : Prop where
  lt : firstChained trail < trail.length
  key_eq : trailKey rt environ = .ok key
  chain : runChain rt key trail = .ok (.through st)
  anchored : ∃ count, anchorCount rt anchor = .ok count ∧
    anchorCheck rt trail count (anchorHead rt anchor) = .ok none
  keyed : key = none ∨ st.lastPlain = none

/-- A trail reported as ok has no entries and no anchor, or it has passed every check of the
chain. -/
theorem verifyTrail_ok {trail : List Entry} {anchor : Anchor}
    {artifacts : Option (Dict Str Json)} {decisions : Option (List Json)} {v : Verification}
    (h : verifyTrail rt environ trail anchor artifacts decisions = .ok v) (hok : v.status = .ok) :
    (trail = [] ∧ anchorCount rt anchor = .ok 0) ∨
      ∃ key st, Accepted rt environ trail anchor key st := by
  unfold verifyTrail at h
  simp only [Except.bind_eq_ok_iff] at h
  obtain ⟨count, hcount, h⟩ := h
  split at h
  · left
    split at h
    · obtain rfl := Except.ok.inj h
      simp only [result] at hok
      split at hok <;> cases hok
    · rename_i hanchored
      have hzero : count = 0 := by simpa using hanchored
      subst hzero
      split at h
      · exact ⟨‹_›, hcount⟩
      · obtain rfl := Except.ok.inj h
        cases hok
  · rename_i hfirst
    have hlt : firstChained trail < trail.length :=
      lt_of_le_of_ne List.findIdx_le_length hfirst
    right
    simp only [Except.bind_eq_ok_iff] at h
    obtain ⟨key, hkey, check, hcheck, h⟩ := h
    cases check with
    | stop status index detail =>
        obtain rfl := Except.ok.inj h
        rcases chainLoop_stop hcheck with rfl | rfl <;> cases hok
    | through st =>
        simp only [Except.bind_eq_ok_iff] at h
        obtain ⟨found, hfound, h⟩ := h
        cases found with
        | some bad =>
            obtain ⟨status, index, detail⟩ := bad
            obtain rfl := Except.ok.inj h
            rcases anchorCheck_failed hfound with rfl | rfl <;> cases hok
        | none =>
            refine ⟨key, st, hlt, hkey, hcheck, ⟨count, hcount, hfound⟩, ?_⟩
            cases key with
            | none => exact .inl rfl
            | some k =>
                cases hp : st.lastPlain with
                | none => exact .inr rfl
                | some index =>
                    simp only [hp] at h
                    obtain rfl := Except.ok.inj h
                    cases hok

/-- What an anchor demands of a trail: its hash at the anchored place. -/
def AnchorMet (rt : Runtime) (trail : List Entry) (count : Nat) (headHash : Str) : Prop :=
  count = 0 ∨ (count ≤ trail.length ∧ isAscii headHash = true ∧
    (trail[count - 1]?.map (entryHash rt)).getD [] = headHash)

theorem anchorCheck_eq_none_iff {trail : List Entry} {count : Nat} {headHash : Str} :
    anchorCheck rt trail count headHash = .ok none ↔ AnchorMet rt trail count headHash := by
  unfold anchorCheck AnchorMet
  by_cases hzero : count = 0
  · simp [hzero]
  by_cases hlen : trail.length < count
  · simp [hzero, hlen]
  · rw [if_neg hzero, if_neg hlen]
    simp only [Except.bind_eq_ok_iff, hzero, Nat.not_lt.mp hlen, true_and, false_or]
    constructor
    · rintro ⟨same, hsame, h⟩
      cases same with
      | false => cases h
      | true =>
          have heq := compareDigest_true hsame
          unfold compareDigest at hsame
          split at hsame
          · rename_i hascii
            simp only [Bool.and_eq_true] at hascii
            exact ⟨hascii.2, heq⟩
          · cases hsame
    · rintro ⟨hascii, heq⟩
      refine ⟨true, ?_, rfl⟩
      change compareDigest ((trail[count - 1]?.map (entryHash rt)).getD []) headHash = .ok true
      rw [heq]
      exact compareDigest_self hascii

/-- An accepted trail, up to where its anchor was recorded, is a log that ends with the anchored
hash. -/
theorem Accepted.log_take (hcf : rt.CollisionFree) {trail : List Entry} {anchor : Anchor}
    {st : ChainState} {count : Nat} (h : Accepted rt environ trail anchor key st)
    (hcount : anchorCount rt anchor = .ok count) (hpos : 0 < count)
    (hhead : anchorHead rt anchor ≠ []) :
    count ≤ trail.length ∧
      (chainScheme rt hcf).Log (firstChained trail) (trail.take count) ∧
      (trail.take count).getLast?.map (entryHash rt) = some (anchorHead rt anchor) := by
  obtain ⟨count', hcount', hcheck⟩ := h.anchored
  obtain rfl := Except.ok.inj (hcount.symm.trans hcount')
  obtain ⟨hle, -, hhash⟩ := (anchorCheck_eq_none_iff.mp hcheck).resolve_left hpos.ne'
  have hlt : count - 1 < trail.length := by omega
  rw [List.getElem?_eq_getElem hlt, Option.map_some, Option.getD_some] at hhash
  -- an entry before the chain has no hash, so the anchored entry is in the chain
  have hfirst : firstChained trail < count := by
    by_contra hge
    have hbare : isChained trail[count - 1] = false := by
      refine (@unchained_of_mem_take trail) ?_
      rw [List.mem_take_iff_getElem]
      exact ⟨count - 1, by omega, rfl⟩
    refine hhead (hhash.symm.trans ?_)
    simp [entryHash, fieldText, Dict.getD, get?_hash_of_bare hbare]
  refine ⟨hle, (log_of_runChain hcf h.lt h.chain).take hfirst, ?_⟩
  rw [List.getLast?_eq_getElem?, List.length_take, min_eq_left hle, List.getElem?_take_of_lt
    (by omega), List.getElem?_eq_getElem hlt, Option.map_some, hhash]

end Trail

end AuditSwarm
