import AuditSwarm.Model.Anchors
import AuditSwarm.Properties.AnchoredChain

/-!
# The anchor only moves forward

Over every sequence of `save_trail_anchor` calls, the anchors written for a session count more and
more entries, and each is the anchor of a trail that starts with the trail anchored before.
-/

namespace AuditSwarm

open Python

namespace Trail

variable {rt : Runtime}

/-- The chain of a trail is in order unless its verification says otherwise. -/
theorem log_of_verifyTrail (hcf : rt.CollisionFree) {environ : Environ} {trail : List Entry}
    {anchor : Anchor} {artifacts : Option (Dict Str Json)} {decisions : Option (List Json)}
    {v : Verification}
    (h : verifyTrail rt environ trail anchor artifacts decisions = .ok v)
    (hlt : firstChained trail < trail.length) (hbroken : v.status ≠ .broken)
    (hkey : v.status ≠ .keyUnavailable) :
    (chainScheme rt hcf).Log (firstChained trail) trail := by
  unfold verifyTrail at h
  simp only [Except.bind_eq_ok_iff] at h
  obtain ⟨count, -, h⟩ := h
  rw [if_neg (show ¬ trail.findIdx isChained = trail.length from hlt.ne)] at h
  simp only [Except.bind_eq_ok_iff] at h
  obtain ⟨key, -, check, hcheck, h⟩ := h
  cases check with
  | stop status index detail =>
      obtain rfl := Except.ok.inj h
      rcases chainLoop_stop hcheck with rfl | rfl
      · exact absurd rfl hbroken
      · exact absurd rfl hkey
  | through st => exact log_of_runChain hcf hlt hcheck

/-- What a call that saves anchors has checked, and what it saves. -/
structure AnchorCall.Moves (rt : Runtime) (c : AnchorCall) (file : AnchorsFile)
    (anchors current : Dict Str Json) (currentCount : Nat) (headHash : Str)
    (anchors' : Dict Str Json) : Prop where
  head : (Trail.head rt c.trail).2.getD [] = headHash
  head_ne : headHash ≠ []
  load : file.loadAnchors = .ok anchors
  current_eq : currentAnchor anchors c.threadId = .ok current
  count : anchorCount rt (some current) = .ok currentCount
  lt : currentCount < c.trail.length
  kept : anchorRewritten rt c.trail currentCount (anchorHead rt (some current)) = .ok false
  verified : ∃ v, verifyTrail rt c.environ c.trail none none none = .ok v ∧
    v.status ≠ .broken ∧ v.status ≠ .keyUnavailable
  saved : anchors' =
    anchors.set c.threadId (.obj (anchorRecord c.trail.length headHash c.now))

theorem AnchorCall.moves_of_eq_ok {c : AnchorCall} {file : AnchorsFile} {b : Bool}
    {anchors' : Dict Str Json}
    (h : saveTrailAnchor rt c.environ c.now file c.threadId c.trail = .ok (b, some anchors')) :
    b = true ∧ ∃ anchors current currentCount headHash,
      c.Moves rt file anchors current currentCount headHash anchors' := by
  unfold saveTrailAnchor at h
  dsimp only at h
  split at h
  · cases h
  rename_i hne
  simp only [Except.bind_eq_ok_iff] at h
  obtain ⟨anchors, hload, current, hcurrent, count, hcount, h⟩ := h
  split at h
  · cases h
  rename_i hge
  simp only [Except.bind_eq_ok_iff] at h
  obtain ⟨rewritten, hrewritten, h⟩ := h
  cases rewritten with
  | true => cases h
  | false =>
      simp only [Bool.false_eq_true, if_false] at h
      split at h
      · cases h
      rename_i hcurrentCount
      simp only [Except.bind_eq_ok_iff] at h
      obtain ⟨v, hverify, h⟩ := h
      split at h
      · cases h
      rename_i hstatus
      rw [not_or] at hstatus
      obtain ⟨hb, hsaved⟩ := Prod.mk.inj (Except.ok.inj h)
      have hlt : count < c.trail.length := by
        have hlen : (Trail.head rt c.trail).1 = c.trail.length := rfl
        omega
      exact ⟨hb.symm, anchors, current, count, _, rfl, hne, hload, hcurrent, hcount, hlt,
        hrewritten, ⟨v, hverify, hstatus⟩, (Option.some.inj hsaved).symm⟩

theorem AnchorCall.eq_ok_of_saved {c : AnchorCall} {file : AnchorsFile} {anchors' : Dict Str Json}
    (h : c.saved rt file = some anchors') :
    ∃ b, saveTrailAnchor rt c.environ c.now file c.threadId c.trail = .ok (b, some anchors') := by
  unfold AnchorCall.saved at h
  cases hsave : saveTrailAnchor rt c.environ c.now file c.threadId c.trail with
  | error ex => simp [hsave] at h
  | ok r =>
      obtain ⟨b, saved⟩ := r
      rw [hsave] at h
      exact ⟨b, by rw [← h]⟩

theorem AnchorCall.moves_of_saved {c : AnchorCall} {file : AnchorsFile} {anchors' : Dict Str Json}
    (h : c.saved rt file = some anchors') :
    ∃ anchors current currentCount headHash,
      c.Moves rt file anchors current currentCount headHash anchors' := by
  obtain ⟨b, hb⟩ := AnchorCall.eq_ok_of_saved h
  exact (AnchorCall.moves_of_eq_ok hb).2

theorem firstChained_lt_of_head {trail : List Entry} (h : (Trail.head rt trail).2.getD [] ≠ []) :
    firstChained trail < trail.length ∧
      trail.getLast?.map (entryHash rt) = some ((Trail.head rt trail).2.getD []) := by
  unfold Trail.head at *
  cases hlast : trail.getLast? with
  | none => simp [hlast] at h
  | some e =>
      cases hhash : e.get? (lit "entry_hash") with
      | none => simp [hlast, hhash] at h
      | some v =>
          have hmem : e ∈ trail := List.mem_of_getLast? hlast
          have hchained : isChained e = true := by
            simp [isChained, hashFields, Dict.contains, hhash]
          refine ⟨List.findIdx_lt_length_of_exists ⟨e, hmem, hchained⟩, ?_⟩
          by_cases htruthy : v.truthy = true
          · simp [hhash, htruthy, entryHash, fieldText, Dict.getD]
          · simp [hlast, hhash, htruthy] at h

theorem Moves.firstChained_lt {c : AnchorCall} {file : AnchorsFile}
    {anchors current anchors' : Dict Str Json} {count : Nat} {headHash : Str}
    (h : c.Moves rt file anchors current count headHash anchors') :
    firstChained c.trail < c.trail.length ∧
      c.trail.getLast?.map (entryHash rt) = some headHash := by
  have hne := h.head_ne
  rw [← h.head] at hne ⊢
  exact firstChained_lt_of_head hne

/-- A file holds the anchor of a trail. -/
structure Holds (rt : Runtime) (file : AnchorsFile) (threadId : Str) (record : Dict Str Json)
    (trail : List Entry) : Prop where
  anchor : file.getTrailAnchor threadId = some record
  count : anchorCount rt (some record) = .ok trail.length
  head : trail.getLast?.map (entryHash rt) = some (anchorHead rt (some record))
  head_ne : anchorHead rt (some record) ≠ []
  log : ∀ hcf : rt.CollisionFree, ∃ k, (chainScheme rt hcf).Log k trail

@[simp] theorem anchorCount_anchorRecord (count : Nat) (headHash now : Str) :
    anchorCount rt (some (anchorRecord count headHash now)) = .ok count := by
  by_cases h : count = 0
  · simp [anchorCount, anchorRecord, Dict.getD, Dict.get?, Json.truthy, h]
  · simp [anchorCount, anchorRecord, Dict.getD, Dict.get?, Json.truthy, h]

@[simp] theorem anchorHead_anchorRecord (count : Nat) (headHash now : Str) :
    anchorHead rt (some (anchorRecord count headHash now)) = headHash := by
  by_cases h : headHash = []
  · simp [anchorHead, anchorRecord, Dict.getD, Dict.get?, Json.truthy, h]
  · simp [anchorHead, anchorRecord, Dict.getD, Dict.get?, Json.truthy, h]

theorem AnchorCall.getTrailAnchor_after {c : AnchorCall} {file : AnchorsFile}
    {anchors' : Dict Str Json} (h : c.saved rt file = some anchors') (threadId : Str) :
    (c.after rt file).getTrailAnchor threadId =
      match anchors'.get? threadId with
      | some (.obj anchor) => some anchor
      | _ => none := by
  rw [AnchorCall.after, h]
  rfl

/-- After a call that saves, the file holds the anchor of the call's trail. -/
theorem Moves.holds {c : AnchorCall} {file : AnchorsFile} {anchors current : Dict Str Json}
    {count : Nat} {headHash : Str} {anchors' : Dict Str Json}
    (hsaved : c.saved rt file = some anchors')
    (h : c.Moves rt file anchors current count headHash anchors') :
    Holds rt (c.after rt file) c.threadId (anchorRecord c.trail.length headHash c.now) c.trail where
  anchor := by
    rw [AnchorCall.getTrailAnchor_after hsaved, h.saved, Dict.get?_set_self]
  count := by simp
  head := by
    rw [anchorHead_anchorRecord]
    exact (Moves.firstChained_lt h).2
  head_ne := by
    rw [anchorHead_anchorRecord]
    exact h.head_ne
  log := by
    intro hcf
    obtain ⟨v, hv, hbroken, hkey⟩ := h.verified
    exact ⟨_, log_of_verifyTrail hcf hv (Moves.firstChained_lt h).1 hbroken hkey⟩

theorem AnchorCall.after_of_refused {c : AnchorCall} {file : AnchorsFile}
    (h : c.Refused rt file) : c.after rt file = file := by
  cases hsaved : c.saved rt file with
  | none => rw [AnchorCall.after, hsaved]
  | some anchors' =>
      obtain ⟨b, hb⟩ := AnchorCall.eq_ok_of_saved hsaved
      obtain ⟨rfl, -⟩ := AnchorCall.moves_of_eq_ok hb
      exact absurd hb (h _)

theorem AnchorCall.getTrailAnchor_other {c : AnchorCall} {file : AnchorsFile} {threadId : Str}
    (h : c.threadId ≠ threadId) :
    (c.after rt file).getTrailAnchor threadId = file.getTrailAnchor threadId := by
  cases hsaved : c.saved rt file with
  | none => rw [AnchorCall.after, hsaved]
  | some anchors' =>
      obtain ⟨anchors, current, count, headHash, hmoves⟩ := c.moves_of_saved hsaved
      have hbefore : file.getTrailAnchor threadId =
          match anchors.get? threadId with
          | some (.obj anchor) => some anchor
          | _ => none := by
        unfold AnchorsFile.getTrailAnchor
        split
        · rename_i hload
          cases hmoves.load.symm.trans hload
        · rename_i hload
          obtain rfl := Except.ok.inj (hmoves.load.symm.trans hload)
          rfl
      have hafter := AnchorCall.getTrailAnchor_after hsaved threadId
      rw [hmoves.saved, Dict.get?_set_of_ne _ _ h.symm] at hafter
      exact hafter.trans hbefore.symm

/-- A trail extends another: it has more entries and, digests being collision-free, starts with
it. -/
def Extends (rt : Runtime) (trail trail' : List Entry) : Prop :=
  trail.length < trail'.length ∧ (rt.CollisionFree → PrefixOf rt trail trail')

theorem SameEntry.trans {a b c : Entry} (h : SameEntry rt a b) (h' : SameEntry rt b c) :
    SameEntry rt a c :=
  ⟨fun k hk => (h.fields k hk).trans (h'.fields k hk), h.hash.trans h'.hash⟩

theorem PrefixOf.trans {a b c : List Entry} (h : PrefixOf rt a b) (h' : PrefixOf rt b c) :
    PrefixOf rt a c := by
  unfold PrefixOf at *
  have hle : a.length ≤ b.length := by
    have hlen := h.length_eq
    rw [List.length_take] at hlen
    omega
  have htake := List.forall₂_take a.length h'
  rw [List.take_take, min_eq_left hle] at htake
  rw [List.forall₂_iff_get] at h htake ⊢
  refine ⟨h.1.trans htake.1, fun i hi hi' => ?_⟩
  exact (h.2 i hi (by omega)).trans (htake.2 i (by omega) hi')

theorem Extends.trans {a b c : List Entry} (h : Extends rt a b) (h' : Extends rt b c) :
    Extends rt a c :=
  ⟨h.1.trans h'.1, fun hcf => (h.2 hcf).trans (h'.2 hcf)⟩

/-- Two logs, the second cut to the length of the first, with the same last hash. -/
theorem prefixOf_of_log (hcf : rt.CollisionFree) {trail trail' : List Entry} {k : Nat}
    (hlog : (chainScheme rt hcf).Log k trail)
    (hlog' : (chainScheme rt hcf).Log (firstChained trail') (trail'.take trail.length))
    (hle : trail.length ≤ trail'.length)
    (hlast : trail.getLast?.map (entryHash rt) =
      (trail'.take trail.length).getLast?.map (entryHash rt)) :
    PrefixOf rt trail trail' := by
  have hlen : (trail'.take trail.length).length = trail.length := by
    rw [List.length_take, min_eq_left hle]
  obtain ⟨hk, hagree, hagree'⟩ := hlog'.agree hlog hlast.symm (.inl hlen)
  subst hk
  have hsame := sameEntries_of_agree hagree hagree' fun e he => by
    rw [List.take_take] at he
    exact unchained_of_mem_take (List.take_subset_take_left _ (min_le_left _ _) he)
  exact hsame.flip.imp fun a b hab => ⟨fun k hk => (hab.fields k hk).symm, hab.hash.symm⟩

/-- A call that moves an anchor moves it to a trail that extends the anchored one. -/
theorem Moves.extends {c : AnchorCall} {file : AnchorsFile} {anchors current : Dict Str Json}
    {count : Nat} {headHash : Str} {anchors' record : Dict Str Json} {trail : List Entry}
    (h : c.Moves rt file anchors current count headHash anchors')
    (hholds : Holds rt file c.threadId record trail) : Extends rt trail c.trail := by
  obtain rfl : current = record := by
    have hanchor := hholds.anchor
    rw [AnchorsFile.getTrailAnchor, h.load] at hanchor
    have hcurrent := h.current_eq
    unfold currentAnchor at hcurrent
    cases hget : anchors.get? c.threadId with
    | none => simp [hget] at hanchor
    | some v =>
        cases v with
        | obj kvs =>
            simp only [hget, Option.some.injEq] at hanchor hcurrent
            rw [← hanchor, ← Except.ok.inj hcurrent]
        | _ => simp [hget] at hanchor
  obtain rfl : count = trail.length := Except.ok.inj (h.count.symm.trans hholds.count)
  refine ⟨h.lt, fun hcf => ?_⟩
  have hpos : 0 < trail.length := by
    obtain ⟨k, hlog⟩ := hholds.log hcf
    exact Nat.lt_of_le_of_lt (Nat.zero_le k) hlog.lt
  have hidx : trail.length - 1 < c.trail.length := by
    have hlt := h.lt
    omega
  have hhead : entryHashOr rt c.trail[trail.length - 1] = anchorHead rt (some current) := by
    have hkept := h.kept
    unfold anchorRewritten at hkept
    rw [if_neg hpos.ne'] at hkept
    simp only [Except.bind_eq_ok_iff] at hkept
    obtain ⟨same, hsame, hnot⟩ := hkept
    have htrue : same = true := by simpa using Except.ok.inj hnot
    subst htrue
    have heq := compareDigest_true hsame
    rwa [List.getElem?_eq_getElem hidx, Option.map_some, Option.getD_some] at heq
  -- the entry at the anchored position carries the anchored hash, so it is in the chain
  have htruthy : entryHash rt c.trail[trail.length - 1] = anchorHead rt (some current) := by
    unfold entryHashOr at hhead
    dsimp only at hhead
    split at hhead
    · exact hhead
    · exact absurd hhead.symm hholds.head_ne
  have hfirst : firstChained c.trail < trail.length := by
    by_contra hge
    have hbare : isChained c.trail[trail.length - 1] = false := by
      refine (@unchained_of_mem_take c.trail) ?_
      rw [List.mem_take_iff_getElem]
      exact ⟨trail.length - 1, by omega, rfl⟩
    refine hholds.head_ne (htruthy.symm.trans ?_)
    simp [entryHash, fieldText, Dict.getD, get?_hash_of_bare hbare]
  obtain ⟨v, hv, hbroken, hkey⟩ := h.verified
  have hlog' := (log_of_verifyTrail hcf hv (Moves.firstChained_lt h).1 hbroken hkey).take hfirst
  obtain ⟨k, hlog⟩ := hholds.log hcf
  refine prefixOf_of_log hcf hlog hlog' h.lt.le ?_
  have hlt := h.lt
  rw [hholds.head, ← htruthy, List.getLast?_eq_getElem?, List.length_take, min_eq_left hlt.le,
    List.getElem?_take_of_lt (by omega), List.getElem?_eq_getElem hidx, Option.map_some]

/-- What a run writes from a file that holds an anchor extends the anchored trail, and what it
writes first is extended by what it writes later. -/
theorem anchorsWritten_extends (threadId : Str) (calls : List AnchorCall) (file : AnchorsFile) :
    (anchorsWritten rt threadId file calls).Pairwise (fun a b => Extends rt a.2 b.2) ∧
      (∀ record trail, Holds rt file threadId record trail →
        ∀ w ∈ anchorsWritten rt threadId file calls, Extends rt trail w.2) ∧
      ∀ w ∈ anchorsWritten rt threadId file calls,
        anchorCount rt (some w.1) = .ok w.2.length := by
  induction calls generalizing file with
  | nil => simp [anchorsWritten]
  | cons c calls ih =>
      obtain ⟨hpairwise, hextends, hcount⟩ := ih (c.after rt file)
      unfold anchorsWritten
      split
      · rename_i hwrites
        obtain ⟨hsome, rfl⟩ := hwrites
        obtain ⟨anchors', hsaved⟩ := Option.isSome_iff_exists.mp hsome
        obtain ⟨anchors, current, count, headHash, hmoves⟩ := c.moves_of_saved hsaved
        have hholds := Moves.holds hsaved hmoves
        refine ⟨List.pairwise_cons.mpr ⟨hextends _ _ hholds, hpairwise⟩, ?_, ?_⟩
        · intro record trail htrail w hw
          have hstep := Moves.extends hmoves htrail
          rcases List.mem_cons.mp hw with rfl | hw
          · exact hstep
          · exact hstep.trans (hextends _ _ hholds w hw)
        · intro w hw
          rcases List.mem_cons.mp hw with rfl | hw
          · rw [hholds.anchor, Option.getD_some]
            exact hholds.count
          · exact hcount w hw
      · rename_i hwrites
        refine ⟨hpairwise, fun record trail htrail => hextends record trail ?_, hcount⟩
        refine { htrail with anchor := ?_ }
        rw [not_and_or] at hwrites
        rcases hwrites with hnone | hother
        · rw [AnchorCall.after, Option.not_isSome_iff_eq_none.mp hnone]
          exact htrail.anchor
        · rw [AnchorCall.getTrailAnchor_other hother]
          exact htrail.anchor

/-- Anchor monotonicity: the anchors a run of calls writes for a session count more and more
entries and are those of longer and longer trails, each a prefix of the next; a refused call leaves
the file as it was, and no call changes the anchor of another session. -/
theorem anchor_monotone (rt : Runtime) (threadId : Str) (file : AnchorsFile)
    (calls : List AnchorCall) :
    (anchorsWritten rt threadId file calls).Pairwise (fun a b =>
        (∃ m n : Nat, anchorCount rt (some a.1) = .ok m ∧ anchorCount rt (some b.1) = .ok n ∧
          m < n) ∧
        (rt.CollisionFree → PrefixOf rt a.2 b.2)) ∧
      (∀ (c : AnchorCall) (file : AnchorsFile), c.Refused rt file → c.after rt file = file) ∧
      ∀ (c : AnchorCall) (file : AnchorsFile) (other : Str), c.threadId ≠ other →
        (c.after rt file).getTrailAnchor other = file.getTrailAnchor other := by
  refine ⟨?_, fun c file h => AnchorCall.after_of_refused h,
    fun c file other h => AnchorCall.getTrailAnchor_other h⟩
  obtain ⟨hpairwise, -, hcount⟩ := @anchorsWritten_extends rt threadId calls file
  refine hpairwise.imp_of_mem ?_
  intro a b ha hb hab
  exact ⟨⟨_, _, hcount a ha, hcount b hb, hab.1⟩, hab.2⟩

end Trail

end AuditSwarm
