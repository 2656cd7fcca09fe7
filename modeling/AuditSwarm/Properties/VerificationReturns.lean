import AuditSwarm.Lib.Returns
import AuditSwarm.Trail.Verify

/-!
# When verification of a trail returns

`hmac.compare_digest` raises on text that is not ASCII and the canonical encoding raises on a lone
surrogate.  `verify_trail` meets both on stored data: this module says, comparison by comparison,
which stored data it returns a report on.
-/

namespace AuditSwarm

open Python

namespace Trail

variable {rt : Runtime} {environ : Environ} {key : Option Bytes}

/-! ## One comparison -/

theorem returns_compareDigest_iff {a b : Str} :
    (compareDigest a b).Returns ↔ isAscii a = true ∧ isAscii b = true := by
  unfold compareDigest
  by_cases h : (isAscii a && isAscii b) = true
  · rw [if_pos h]
    simpa using h
  · rw [if_neg h]
    simpa using h

theorem returns_compareDigest_of_ascii {a b : Str} (ha : isAscii a = true) :
    (compareDigest a b).Returns ↔ isAscii b = true := by
  rw [returns_compareDigest_iff]
  exact and_iff_right ha

theorem returns_canonicalBytes_iff {j : Json} : (canonicalBytes j).Returns ↔ j.Signable := by
  unfold canonicalBytes Json.Signable
  cases j.canonical with
  | none => simp
  | some data => simp

theorem returns_artifactDigest_iff {j : Json} : (artifactDigest rt j).Returns ↔ j.Signable := by
  unfold artifactDigest
  rw [Except.returns_bind_of_total fun _ => Except.returns_pure _, returns_canonicalBytes_iff]

theorem isAscii_artifactDigest {j : Json} {digest : Str}
    (h : artifactDigest rt j = .ok digest) : isAscii digest = true := by
  obtain ⟨data, -, hd⟩ := Except.bind_eq_ok_iff.mp h
  rw [← Except.pure_eq_ok_iff.mp hd]
  exact isAscii_hexdigest _

theorem returns_digest_compare_iff {j : Json} {stored : Str} {β : Type}
    {f : Str → Bool → Except Exn β} :
    (do let now ← artifactDigest rt j
        let same ← compareDigest now stored
        f now same).Returns ↔
      j.Signable ∧ isAscii stored = true ∧
        ∀ now, artifactDigest rt j = .ok now → (f now (decide (now = stored))).Returns := by
  rw [Except.returns_bind_iff]
  constructor
  · intro h
    obtain ⟨now, hnow, h⟩ := h
    obtain ⟨same, hsame, hf⟩ := Except.returns_bind_iff.mp h
    obtain rfl := compareDigest_eq_ok hsame
    refine ⟨returns_artifactDigest_iff.mp ⟨now, hnow⟩,
      (returns_compareDigest_iff.mp ⟨_, hsame⟩).2, fun now' hnow' => ?_⟩
    obtain rfl := Except.ok.inj (hnow.symm.trans hnow')
    exact hf
  · intro h
    obtain ⟨hj, hstored, hf⟩ := h
    obtain ⟨now, hnow⟩ := returns_artifactDigest_iff.mpr hj
    obtain ⟨same, hsame⟩ :=
      (returns_compareDigest_of_ascii (isAscii_artifactDigest hnow)).mpr hstored
    refine ⟨now, hnow, Except.returns_bind_iff.mpr ⟨same, hsame, ?_⟩⟩
    rw [compareDigest_eq_ok hsame]
    exact hf now hnow

/-! ## The chain loop -/

/-- An entry the loop hashes: its algorithm is known, its hash is not empty, and the key is there
when the algorithm needs it. -/
structure HashFields (key : Option Bytes) (e : Entry) (alg : Str) : Prop where
  alg_eq : e.get? (lit "hash_alg") = some (.str alg)
  known : alg = algKeyed ∨ alg = algPlain
  keyed : alg = algKeyed → key ≠ none
  truthy : fieldTruthy e (lit "entry_hash") = true

/-- The texts the loop compares at an entry can be compared: its link is ASCII and, when the link
is right, its content encodes and its hash is ASCII.  The first entry of a chain is compared with a
digest of the entries before it. -/
def Comparable (rt : Runtime) (key : Option Bytes) (bare : List Entry) (prev : Option Str)
    (e : Entry) : Prop :=
  ∀ alg, HashFields key e alg →
    (prev = none → bare = [] ∨ (Json.arr (bare.map .obj)).Signable) ∧
    isAscii (entryPrev rt e) = true ∧
    (linkTo rt key bare alg prev = .ok (entryPrev rt e) →
      (canonicalEntry e).Signable ∧ isAscii (entryHash rt e) = true)

def ComparableChain (rt : Runtime) (key : Option Bytes) (bare : List Entry) :
    Option Str → List Entry → Prop
  | _, [] => True
  | prev, e :: rest =>
      Comparable rt key bare prev e ∧
        ((∃ alg, EntryChecked rt key bare prev e alg) →
          ComparableChain rt key bare (some (entryHash rt e)) rest)

theorem EntryChecked.hashFields {bare : List Entry} {prev : Option Str} {e : Entry} {alg : Str}
    (h : EntryChecked rt key bare prev e alg) : HashFields key e alg :=
  ⟨h.alg_eq, h.known, h.keyed, h.truthy⟩

theorem HashFields.unique {e : Entry} {alg alg' : Str} (h : HashFields key e alg)
    (h' : HashFields key e alg') : alg = alg' := by
  have heq := h.alg_eq.symm.trans h'.alg_eq
  simpa using heq

theorem returns_legacySeal_iff {bare : List Entry} {alg : Str}
    (hkeyed : alg = algKeyed → key ≠ none) :
    (legacySeal rt bare alg key).Returns ↔
      bare = [] ∨ (Json.arr (bare.map .obj)).Signable := by
  unfold legacySeal
  by_cases hbare : bare = []
  · simp [hbare]
  · rw [if_neg hbare, Except.returns_bind_of_total, returns_canonicalBytes_iff]
    · simp [hbare]
    · intro data
      exact ⟨_, digestHex_of_known hkeyed data⟩

theorem returns_linkTo_iff {bare : List Entry} {alg : Str} {prev : Option Str}
    (hkeyed : alg = algKeyed → key ≠ none) :
    (linkTo rt key bare alg prev).Returns ↔
      (prev = none → bare = [] ∨ (Json.arr (bare.map .obj)).Signable) := by
  cases prev with
  | none => simpa [linkTo] using returns_legacySeal_iff hkeyed
  | some p => simp [linkTo]

theorem isAscii_of_linkTo {bare : List Entry} {alg p : Str} {prev : Option Str}
    (hprev : ∀ p ∈ prev, isAscii p = true) (h : linkTo rt key bare alg prev = .ok p) :
    isAscii p = true := by
  cases prev with
  | none => exact isAscii_of_legacySeal h
  | some q =>
      rw [← Except.ok.inj h]
      exact hprev q rfl

theorem returns_chainLoop_of_no_hashFields {bare rest : List Entry} {e : Entry} {i : Nat}
    {st : ChainState} (h : ∀ alg, ¬ HashFields key e alg) :
    (chainLoop rt key bare i (e :: rest) st).Returns := by
  rw [chainLoop]
  split
  · rename_i storedHash alg hhash halg
    split
    · exact Except.returns_ok _
    rename_i hfields
    simp only [Bool.or_eq_true, Bool.not_eq_true', decide_eq_true_eq, not_or,
      Bool.not_eq_false] at hfields
    split
    · exact Except.returns_ok _
    rename_i hkeyed
    simp only [Bool.and_eq_true, decide_eq_true_eq, not_and] at hkeyed
    have hknown : alg = algKeyed ∨ alg = algPlain := by simpa using hfields.2
    have htruthy : fieldTruthy e (lit "entry_hash") = true := by
      simpa [fieldTruthy, hhash] using hfields.1
    exact absurd ⟨halg, hknown, hkeyed, htruthy⟩ (h alg)
  · exact Except.returns_ok _

/-- What the loop does at an entry with usable hash fields, under the names of this module. -/
theorem chainLoop_hashFields {bare rest : List Entry} {e : Entry} {alg : Str} {i : Nat}
    {st : ChainState} (h : HashFields key e alg) :
    ∃ unlinked edited : ChainCheck, chainLoop rt key bare i (e :: rest) st =
      (linkTo rt key bare alg st.expectedPrev >>= fun expected =>
        compareDigest (entryPrev rt e) expected >>= fun linked =>
          if linked = false then .ok unlinked
          else canonicalBytes (canonicalEntry e) >>= fun data =>
            compareDigest (hexdigest (rt.digest (inputFor alg key data))) (entryHash rt e) >>=
              fun same =>
                if same = false then .ok edited
                else chainLoop rt key bare (i + 1) rest (st.advance i alg (entryHash rt e))) := by
  have htruthy := h.truthy
  unfold fieldTruthy at htruthy
  cases hhash : e.get? (lit "entry_hash") with
  | none => simp [hhash] at htruthy
  | some storedHash =>
      rw [hhash] at htruthy
      have htext : rt.textOf storedHash = entryHash rt e := by
        simp [entryHash, fieldText, Dict.getD, hhash]
      have hfields : (!storedHash.truthy || !(decide (alg = algKeyed) || decide (alg = algPlain)))
          = false := by
        rcases h.known with rfl | rfl <;> simpa using htruthy
      have hkeyed : (decide (alg = algKeyed) && decide (key = none)) = false := by
        simpa using h.keyed
      rw [chainLoop]
      simp only [hhash, h.alg_eq, hfields, hkeyed, Bool.false_eq_true, if_false,
        digestHex_of_known h.keyed, Except.ok_bind, htext, Bool.not_eq_true']
      exact ⟨_, _, rfl⟩

/-- The loop goes through a checked entry, and comparing its texts returned. -/
theorem EntryChecked.comparable {bare : List Entry} {prev : Option Str} {e : Entry} {alg : Str}
    (h : EntryChecked rt key bare prev e alg) (hprev : ∀ p ∈ prev, isAscii p = true) :
    Comparable rt key bare prev e := by
  intro alg' h'
  obtain rfl := h.hashFields.unique h'
  have hlink : (linkTo rt key bare alg prev).Returns := ⟨_, h.link⟩
  refine ⟨(returns_linkTo_iff h.keyed).mp hlink, isAscii_of_linkTo hprev h.link, fun _ => ?_⟩
  obtain ⟨data, hdata, -⟩ := h.hash
  refine ⟨?_, h.isAscii_hash⟩
  rw [Json.Signable, hdata]
  rfl

/-- At an entry with usable hash fields that does not pass the checks, the loop returns when the
texts it compares there are comparable. -/
theorem returns_chainLoop_of_unchecked {bare rest : List Entry} {e : Entry} {alg : Str} {i : Nat}
    {st : ChainState} (h : HashFields key e alg)
    (hprev : ∀ p ∈ st.expectedPrev, isAscii p = true)
    (hun : ¬ EntryChecked rt key bare st.expectedPrev e alg) :
    (chainLoop rt key bare i (e :: rest) st).Returns ↔
      Comparable rt key bare st.expectedPrev e := by
  have hcomparable : Comparable rt key bare st.expectedPrev e ↔
      (linkTo rt key bare alg st.expectedPrev).Returns ∧ isAscii (entryPrev rt e) = true ∧
        (linkTo rt key bare alg st.expectedPrev = .ok (entryPrev rt e) →
          (canonicalEntry e).Signable ∧ isAscii (entryHash rt e) = true) := by
    rw [returns_linkTo_iff h.keyed]
    constructor
    · exact fun hc => hc alg h
    · intro hc alg' h'
      obtain rfl := h.unique h'
      exact hc
  obtain ⟨unlinked, edited, hloop⟩ := @chainLoop_hashFields rt key bare rest e alg i st h
  rw [hcomparable, hloop, Except.returns_bind_iff]
  constructor
  · intro hret
    obtain ⟨expected, hexpected, hret⟩ := hret
    obtain ⟨linked, hlinked, hbody⟩ := Except.returns_bind_iff.mp hret
    have hascii := (returns_compareDigest_iff.mp ⟨_, hlinked⟩).1
    refine ⟨⟨_, hexpected⟩, hascii, fun hlink => ?_⟩
    obtain rfl := Except.ok.inj (hexpected.symm.trans hlink)
    have htrue : linked = true := by simpa using compareDigest_eq_ok hlinked
    rw [htrue, if_neg (by decide)] at hbody
    obtain ⟨data, hdata, hcompared⟩ := Except.returns_bind_iff.mp hbody
    obtain ⟨same, hsame, -⟩ := Except.returns_bind_iff.mp hcompared
    exact ⟨returns_canonicalBytes_iff.mp ⟨_, hdata⟩, (returns_compareDigest_iff.mp ⟨_, hsame⟩).2⟩
  · intro hc
    obtain ⟨⟨expected, hexpected⟩, hascii, hcontent⟩ := hc
    obtain ⟨linked, hlinked⟩ :=
      returns_compareDigest_iff.mpr ⟨hascii, isAscii_of_linkTo hprev hexpected⟩
    refine ⟨expected, hexpected, Except.returns_bind_iff.mpr ⟨linked, hlinked, ?_⟩⟩
    cases linked with
    | false => exact Except.returns_ok _
    | true =>
        have hlink : linkTo rt key bare alg st.expectedPrev = .ok (entryPrev rt e) := by
          rw [hexpected, compareDigest_true hlinked]
        obtain ⟨hsignable, hhash⟩ := hcontent hlink
        obtain ⟨data, hdata⟩ := returns_canonicalBytes_iff.mpr hsignable
        obtain ⟨same, hsame⟩ :=
          (returns_compareDigest_of_ascii (isAscii_hexdigest
            (rt.digest (inputFor alg key data)))).mpr hhash
        rw [if_neg (by decide), hdata, Except.ok_bind, hsame, Except.ok_bind]
        cases same with
        | false => exact Except.returns_ok _
        | true =>
            have hdigest := (compareDigest_true hsame).symm
            have hdata' := canonicalBytes_eq_ok_iff.mp hdata
            exact absurd ⟨h.alg_eq, h.known, h.keyed, h.truthy, hlink, data, hdata', hdigest⟩ hun

/-- The loop returns when every entry it comes to is comparable. -/
theorem returns_chainLoop_iff {bare es : List Entry} {i : Nat} {st : ChainState}
    (hprev : ∀ p ∈ st.expectedPrev, isAscii p = true) :
    (chainLoop rt key bare i es st).Returns ↔
      ComparableChain rt key bare st.expectedPrev es := by
  induction es generalizing i st with
  | nil => exact iff_of_true (Except.returns_ok _) trivial
  | cons e rest ih =>
      rw [ComparableChain]
      by_cases hfields : ∃ alg, HashFields key e alg
      · obtain ⟨alg, hfields⟩ := hfields
        by_cases hchecked : EntryChecked rt key bare st.expectedPrev e alg
        · rw [chainLoop_checked hchecked hprev, ih]
          · rw [and_iff_right (hchecked.comparable hprev), forall_prop_of_true ⟨alg, hchecked⟩]
            rfl
          · intro p hp
            obtain rfl := Option.some.inj hp
            exact hchecked.isAscii_hash
        · rw [returns_chainLoop_of_unchecked hfields hprev hchecked, and_iff_left]
          intro hother
          obtain ⟨alg', hother⟩ := hother
          obtain rfl := hfields.unique hother.hashFields
          exact absurd hother hchecked
      · have hnone : ∀ alg, ¬ HashFields key e alg := fun alg h => hfields ⟨alg, h⟩
        apply iff_of_true
        · exact returns_chainLoop_of_no_hashFields hnone
        · refine ⟨fun alg h => absurd h (hnone alg), fun h => ?_⟩
          obtain ⟨alg, h⟩ := h
          exact absurd h.hashFields (hnone alg)

/-! ## Artifacts and decisions -/

/-- The stored decisions under their IDs, as `changed_since_approval` indexes them. -/
def storedById (rt : Runtime) (decisions : Option (List Json)) : Dict Str (Dict Str Json) :=
  (decisions.getD []).foldl (fun acc d =>
    acc.set (fieldText rt (decisionFields d) (lit "decision_id")) (decisionFields d)) []

/-- The last gate approval of each artifact, as `changed_since_approval` collects them. -/
def lastApprovals (rt : Runtime) (trail : List Entry) : Dict Str Approval :=
  (trail.foldl (approvalScan rt) ⟨[], []⟩).latest

/-- The seal over the decisions of an approval can be checked. -/
def SealComparable (rt : Runtime) (decisions : Option (List Json)) (a : Approval) : Prop :=
  decisions ≠ none → ∀ sealedDigest ∈ a.sealedDigest, ∀ fields,
    a.ids.mapM (storedById rt decisions).get? = some fields →
      (Json.arr (fields.map .obj)).Signable ∧ isAscii sealedDigest = true

/-- The texts compared for an approved artifact can be compared: the artifact encodes, the digest
recorded for it is ASCII and, when it is the artifact's, so is the seal over its decisions. -/
def ApprovalComparable (rt : Runtime) (artifacts : Dict Str Json) (decisions : Option (List Json))
    (field : Str) (a : Approval) : Prop :=
  ∀ current, artifacts.get? field = some current → current ≠ .null →
    current.Signable ∧ isAscii a.digest = true ∧
      (artifactDigest rt current = .ok a.digest → SealComparable rt decisions a)

/-- The texts compared for a stored decision can be compared. -/
def DecisionComparable (rt : Runtime) (trail : List Entry) (d : Json) : Prop :=
  ∀ digest, (recordedDigests rt trail).get?
      (fieldText rt (decisionFields d) (lit "decision_id")) = some digest →
    (Json.obj (decisionFields d)).Signable ∧ isAscii digest = true

def sealChanged (rt : Runtime) (decisions : Option (List Json)) (a : Approval) : Except Exn Bool :=
  match a.sealedDigest, decisions with
  | some sealedDigest, some _ =>
      match a.ids.mapM (storedById rt decisions).get? with
      | none => .ok true
      | some fields => do
          let now ← decisionsDigest rt (fields.map .obj)
          return !(← compareDigest now sealedDigest)
  | _, _ => .ok false

/-- Checking an approval: the digest of the artifact first, then the seal over its decisions. -/
theorem approvalChanged_cases {artifacts : Dict Str Json} {decisions : Option (List Json)}
    {field : Str} {a : Approval} {current : Json} (hget : artifacts.get? field = some current)
    (hnull : current ≠ .null) :
    ∃ sealChanged : Except Exn Bool, (sealChanged.Returns ↔ SealComparable rt decisions a) ∧
      approvalChanged rt artifacts decisions (storedById rt decisions) field a =
        (artifactDigest rt current >>= fun now => compareDigest now a.digest >>= fun same =>
          if same = false then .ok true else sealChanged) := by
  refine ⟨sealChanged rt decisions a, ?_, ?_⟩
  · unfold SealComparable sealChanged
    cases a.sealedDigest with
    | none => simp
    | some sealedDigest =>
        cases decisions with
        | none => simp
        | some ds =>
            cases hids : a.ids.mapM (storedById rt (some ds)).get? with
            | none => simp
            | some fields =>
                simp only [decisionsDigest, returns_digest_compare_iff]
                simp
  · unfold approvalChanged sealChanged
    rw [hget]
    cases current with
    | null => exact absurd rfl hnull
    | _ =>
        refine bind_congr fun now => bind_congr fun same => ?_
        cases same with
        | false => rfl
        | true =>
            cases a.sealedDigest with
            | none => rfl
            | some sealedDigest =>
                cases decisions with
                | none => rfl
                | some ds => rfl

theorem returns_approvalChanged_iff {artifacts : Dict Str Json} {decisions : Option (List Json)}
    {field : Str} {a : Approval} :
    (approvalChanged rt artifacts decisions (storedById rt decisions) field a).Returns ↔
      ApprovalComparable rt artifacts decisions field a := by
  unfold ApprovalComparable
  cases hget : artifacts.get? field with
  | none => simp [approvalChanged, hget]
  | some current =>
      by_cases hnull : current = .null
      · subst hnull
        simp [approvalChanged, hget]
      · obtain ⟨sealChanged, hseal, heq⟩ := @approvalChanged_cases rt _ decisions _ a _ hget hnull
        have hafter : (∀ now, artifactDigest rt current = .ok now →
            (if decide (now = a.digest) = false then .ok true else sealChanged :
              Except Exn Bool).Returns) ↔
            (artifactDigest rt current = .ok a.digest → SealComparable rt decisions a) := by
          rw [← hseal]
          constructor
          · intro h hnow
            simpa using h _ hnow
          · intro h now hnow
            by_cases hsame : now = a.digest
            · subst hsame
              simpa using h hnow
            · simp [hsame]
        rw [heq, returns_digest_compare_iff, hafter]
        constructor
        · intro h current' hcurrent' _
          obtain rfl := Option.some.inj hcurrent'
          exact h
        · exact fun h => h current rfl hnull

theorem returns_artifactCheck_iff {trail : List Entry} {artifacts : Option (Dict Str Json)}
    {decisions : Option (List Json)} :
    (artifactCheck rt trail artifacts decisions).Returns ↔
      ∀ given ∈ artifacts, ∀ fa ∈ lastApprovals rt trail,
        ApprovalComparable rt given decisions fa.1 fa.2 := by
  cases artifacts with
  | none => simp [artifactCheck]
  | some given =>
      have heq : artifactCheck rt trail (some given) decisions =
          ((lastApprovals rt trail).filterM fun fa =>
            approvalChanged rt given decisions (storedById rt decisions) fa.1 fa.2) >>=
              fun changed => pure (changed.map fun fa => fa.2.gate) := rfl
      rw [heq, Except.returns_bind_of_total fun _ => Except.returns_pure _,
        Except.returns_filterM_iff]
      simp only [returns_approvalChanged_iff, Option.mem_some_iff, forall_eq']

theorem returns_decisionProblem_iff {trail : List Entry} {d : Json} :
    (decisionProblem rt (recordedDigests rt trail) d).Returns ↔ DecisionComparable rt trail d := by
  unfold decisionProblem DecisionComparable
  dsimp only
  cases (recordedDigests rt trail).get? (fieldText rt (decisionFields d) (lit "decision_id")) with
  | none => simp
  | some digest =>
      simp only [returns_digest_compare_iff, Option.some.injEq, forall_eq']
      rw [← and_assoc, and_iff_left]
      intro now _
      split
      · exact Except.returns_pure _
      · exact Except.returns_pure _

theorem returns_decisionCheck_iff {trail : List Entry} {decisions : Option (List Json)} :
    (decisionCheck rt trail decisions).Returns ↔
      ∀ ds ∈ decisions, ∀ d ∈ ds, DecisionComparable rt trail d := by
  cases decisions with
  | none => simp [decisionCheck]
  | some ds =>
      have heq : decisionCheck rt trail (some ds) =
          (ds.mapM (decisionProblem rt (recordedDigests rt trail)) >>= fun problems =>
            pure (problems.filterMap id ++ ((recordedDigests rt trail).filter fun kv =>
              !(ds.map fun d => fieldText rt (decisionFields d) (lit "decision_id")).contains
                kv.1).map fun kv =>
                  lit "decision " ++ kv.1 ++ lit " is in the trail but was removed")) := rfl
      rw [heq, Except.returns_bind_of_total fun _ => Except.returns_pure _,
        Except.returns_mapM_iff]
      simp only [returns_decisionProblem_iff, Option.mem_some_iff, forall_eq']

/-- The approved artifacts and the decisions can be compared with the trail. -/
structure ContentComparable (rt : Runtime) (trail : List Entry)
    (artifacts : Option (Dict Str Json)) (decisions : Option (List Json)) : Prop where
  approved : ∀ given ∈ artifacts, ∀ fa ∈ lastApprovals rt trail,
    ApprovalComparable rt given decisions fa.1 fa.2
  recorded : ∀ ds ∈ decisions, ∀ d ∈ ds, DecisionComparable rt trail d

theorem returns_contentCheck_iff {trail : List Entry} {first : Nat} {anchored allKeyed : Bool}
    {artifacts : Option (Dict Str Json)} {decisions : Option (List Json)} :
    (contentCheck rt trail first anchored allKeyed artifacts decisions).Returns ↔
      ContentComparable rt trail artifacts decisions := by
  unfold contentCheck
  constructor
  · intro h
    obtain ⟨changed, hchanged, h⟩ := Except.returns_bind_iff.mp h
    obtain ⟨problems, hproblems, -⟩ := Except.returns_bind_iff.mp h
    exact ⟨returns_artifactCheck_iff.mp ⟨_, hchanged⟩, returns_decisionCheck_iff.mp ⟨_, hproblems⟩⟩
  · intro h
    obtain ⟨changed, hchanged⟩ := returns_artifactCheck_iff.mpr h.approved
    obtain ⟨problems, hproblems⟩ := returns_decisionCheck_iff.mpr h.recorded
    rw [hchanged, Except.ok_bind, hproblems, Except.ok_bind]
    split
    · exact Except.returns_pure _
    split
    · exact Except.returns_pure _
    · exact Except.returns_pure _

/-! ## The whole verification -/

theorem returns_anchorCount_iff {anchor : Anchor} :
    (anchorCount rt anchor).Returns ↔
      ∀ r, (anchor.getD []).getD (lit "count") (.int 0) = .float r →
        (Json.float r).truthy = true → rt.intOfFloat r ≠ .overflowError := by
  unfold anchorCount
  dsimp only
  cases (anchor.getD []).getD (lit "count") (.int 0) with
  | float r =>
      cases htruthy : (Json.float r).truthy with
      | false => simp [htruthy]
      | true => cases hint : rt.intOfFloat r <;> simp [hint, htruthy]
  | _ => split <;> simp

theorem isAscii_anchored {trail : List Entry} {count : Nat}
    (h : Linked rt key (trail.take (firstChained trail)) none
      (trail.drop (firstChained trail))) :
    isAscii ((trail[count - 1]?.map (entryHash rt)).getD []) = true := by
  cases hget : trail[count - 1]? with
  | none => rfl
  | some e =>
      rw [Option.map_some, Option.getD_some]
      have hmem := List.mem_of_getElem? hget
      rw [← List.take_append_drop (firstChained trail) trail, List.mem_append] at hmem
      rcases hmem with hmem | hmem
      · have hbare := unchained_of_mem_take hmem
        rw [entryHash, fieldText, Dict.getD, get?_hash_of_bare hbare]
        rfl
      · obtain ⟨prev, alg, hchecked⟩ := h.checked hmem
        exact hchecked.isAscii_hash

theorem returns_anchorCheck_iff {trail : List Entry} {count : Nat} {headHash : Str}
    (h : Linked rt key (trail.take (firstChained trail)) none
      (trail.drop (firstChained trail))) :
    (anchorCheck rt trail count headHash).Returns ↔
      (0 < count → count ≤ trail.length → isAscii headHash = true) := by
  unfold anchorCheck
  by_cases hzero : count = 0
  · simp [hzero]
  by_cases hlen : trail.length < count
  · rw [if_neg hzero, if_pos hlen]
    apply iff_of_true
    · exact Except.returns_ok _
    · omega
  · rw [if_neg hzero, if_neg hlen, Except.returns_bind_of_total]
    · change (compareDigest ((trail[count - 1]?.map (entryHash rt)).getD []) headHash).Returns ↔ _
      rw [returns_compareDigest_of_ascii (isAscii_anchored h)]
      constructor
      · exact fun hascii _ _ => hascii
      · exact fun hascii => hascii (by omega) (by omega)
    · intro same
      split
      · exact Except.returns_pure _
      · exact Except.returns_pure _

/-- The chained entries are a chain, and under a key the last of them is keyed. -/
structure ChainAccepted (rt : Runtime) (key : Option Bytes) (trail : List Entry) : Prop where
  linked : Linked rt key (trail.take (firstChained trail)) none (trail.drop (firstChained trail))
  keyed : key = none ∨ ∀ last ∈ trail.getLast?, last.get? (lit "hash_alg") = some (.str algKeyed)

/-- Under a key, verification of chained entries compares only what can be compared. -/
structure VerifiableUnder (rt : Runtime) (key : Option Bytes) (trail : List Entry)
    (anchor : Anchor) (artifacts : Option (Dict Str Json)) (decisions : Option (List Json)) :
    Prop where
  /-- Each entry the chain is followed to is comparable. -/
  chain : ComparableChain rt key (trail.take (firstChained trail)) none
    (trail.drop (firstChained trail))
  /-- Against an intact chain, the anchored head is ASCII. -/
  head : Linked rt key (trail.take (firstChained trail)) none (trail.drop (firstChained trail)) →
    ∀ count, anchorCount rt anchor = .ok count → 0 < count → count ≤ trail.length →
      isAscii (anchorHead rt anchor) = true
  /-- With an accepted chain that meets its anchor, artifacts and decisions are comparable. -/
  content : ChainAccepted rt key trail → ∀ count, anchorCount rt anchor = .ok count →
    AnchorMet rt trail count (anchorHead rt anchor) →
      ContentComparable rt trail artifacts decisions

/-- Stored data whose verification compares only what can be compared. -/
structure Verifiable (rt : Runtime) (environ : Environ) (trail : List Entry) (anchor : Anchor)
    (artifacts : Option (Dict Str Json)) (decisions : Option (List Json)) : Prop where
  /-- The count of the anchor is no infinite number. -/
  count : ∀ r, (anchor.getD []).getD (lit "count") (.int 0) = .float r →
    (Json.float r).truthy = true → rt.intOfFloat r ≠ .overflowError
  /-- With chained entries, the configured key can be read. -/
  key : firstChained trail < trail.length → (trailKey rt environ).Returns
  /-- Under that key the chained entries can be verified. -/
  under : firstChained trail < trail.length → ∀ key, trailKey rt environ = .ok key →
    VerifiableUnder rt key trail anchor artifacts decisions

/-- A chain the loop went through is accepted when the loop carries no unkeyed index under a key. -/
theorem chainAccepted_iff {trail : List Entry} {st : ChainState}
    (hlt : firstChained trail < trail.length)
    (hrun : runChain rt key trail = .ok (.through st)) :
    ChainAccepted rt key trail ↔ key = none ∨ st.lastPlain = none := by
  have hlinked := linked_of_chainLoop hrun
  obtain ⟨last, hget⟩ : ∃ last, trail.getLast? = some last := by
    cases h : trail.getLast? with
    | none =>
        rw [List.getLast?_eq_none_iff] at h
        simp [h] at hlt
    | some last => exact ⟨last, rfl⟩
  have hlast : (trail.drop (firstChained trail)).getLast? = some last := by
    rw [List.getLast?_drop, if_neg (by omega), hget]
  rw [lastPlain_of_linked hlinked hlast hrun]
  constructor
  · intro h
    exact h.keyed.imp_right fun hkeyed => hkeyed last hget
  · intro h
    refine ⟨hlinked, h.imp_right fun hkeyed last' hlast' => ?_⟩
    obtain rfl := Option.some.inj (hget.symm.trans hlast')
    exact hkeyed

theorem runChain_of_linked {trail : List Entry}
    (h : Linked rt key (trail.take (firstChained trail)) none
      (trail.drop (firstChained trail))) :
    ∃ st, runChain rt key trail = .ok (.through st) := by
  obtain ⟨j, st, hloop, -⟩ := @chainLoop_of_linked rt key (trail.take (firstChained trail))
    (trail.drop (firstChained trail)) [] (firstChained trail) ⟨0, none, none⟩ h (by simp)
  rw [List.append_nil] at hloop
  exact ⟨st, hloop⟩

theorem verifiable_of_returns {trail : List Entry} {anchor : Anchor}
    {artifacts : Option (Dict Str Json)} {decisions : Option (List Json)}
    (h : (verifyTrail rt environ trail anchor artifacts decisions).Returns) :
    Verifiable rt environ trail anchor artifacts decisions := by
  unfold verifyTrail at h
  obtain ⟨count, hcount, h⟩ := Except.returns_bind_iff.mp h
  have hfinite := returns_anchorCount_iff.mp ⟨count, hcount⟩
  by_cases hlt : firstChained trail < trail.length
  · rw [if_neg (show trail.findIdx isChained ≠ trail.length from hlt.ne)] at h
    obtain ⟨key, hkey, h⟩ := Except.returns_bind_iff.mp h
    obtain ⟨check, hcheck, h⟩ := Except.returns_bind_iff.mp h
    have hchain := (@returns_chainLoop_iff rt key _ _ _ ⟨0, none, none⟩ (by simp)).mp ⟨check, hcheck⟩
    have hchecked : ∀ st, runChain rt key trail = .ok (.through st) → check = .through st :=
      fun st hst => Except.ok.inj (hcheck.symm.trans hst)
    have hunder : VerifiableUnder rt key trail anchor artifacts decisions := by
      refine ⟨hchain, fun hlinked count' hcount' hpos hle => ?_,
        fun haccepted count' hcount' hmet => ?_⟩
      · obtain rfl := Except.ok.inj (hcount.symm.trans hcount')
        obtain ⟨st, hst⟩ := runChain_of_linked hlinked
        obtain rfl := hchecked st hst
        obtain ⟨found, hfound, -⟩ := Except.returns_bind_iff.mp h
        exact (returns_anchorCheck_iff hlinked).mp ⟨found, hfound⟩ hpos hle
      · obtain rfl := Except.ok.inj (hcount.symm.trans hcount')
        obtain ⟨st, hst⟩ := runChain_of_linked haccepted.linked
        obtain rfl := hchecked st hst
        simp only [anchorCheck_eq_none_iff.mpr hmet, Except.ok_bind] at h
        cases key with
        | none => exact returns_contentCheck_iff.mp h
        | some k =>
            have hplain := ((chainAccepted_iff hlt hst).mp haccepted).resolve_left (by simp)
            simp only [hplain] at h
            exact returns_contentCheck_iff.mp h
    refine ⟨hfinite, fun _ => ⟨key, hkey⟩, fun _ key' hkey' => ?_⟩
    obtain rfl := Except.ok.inj (hkey.symm.trans hkey')
    exact hunder
  · exact ⟨hfinite, fun hlt' => absurd hlt' hlt, fun hlt' => absurd hlt' hlt⟩

/-- Verification returns a report where each comparison it comes to can be made. -/
theorem returns_of_verifiable {trail : List Entry} {anchor : Anchor}
    {artifacts : Option (Dict Str Json)} {decisions : Option (List Json)}
    (h : Verifiable rt environ trail anchor artifacts decisions) :
    (verifyTrail rt environ trail anchor artifacts decisions).Returns := by
  obtain ⟨count, hcount⟩ := returns_anchorCount_iff.mpr h.count
  unfold verifyTrail
  rw [hcount, Except.ok_bind]
  by_cases hlt : firstChained trail < trail.length
  · obtain ⟨key, hkey⟩ := h.key hlt
    have hunder := h.under hlt key hkey
    obtain ⟨check, hcheck⟩ :=
      (@returns_chainLoop_iff rt key _ _ (firstChained trail) ⟨0, none, none⟩ (by simp)).mpr
        hunder.chain
    have hrun : chainLoop rt key (trail.take (trail.findIdx isChained)) (trail.findIdx isChained)
      (trail.drop (trail.findIdx isChained)) ⟨0, none, none⟩ = .ok check := hcheck
    rw [if_neg (show trail.findIdx isChained ≠ trail.length from hlt.ne), hkey]
    simp only [Except.ok_bind, hrun]
    cases check with
    | stop status index detail => exact Except.returns_ok _
    | through st =>
        have hlinked := linked_of_chainLoop hcheck
        obtain ⟨found, hfound⟩ :=
          (@returns_anchorCheck_iff rt key trail count (anchorHead rt anchor) hlinked).mpr
            (hunder.head hlinked count hcount)
        simp only [hfound, Except.ok_bind]
        cases found with
        | some bad => exact Except.returns_ok _
        | none =>
            have hmet := anchorCheck_eq_none_iff.mp hfound
            have haccepted := chainAccepted_iff hlt hcheck
            cases key with
            | none =>
                exact returns_contentCheck_iff.mpr
                  (hunder.content (haccepted.mpr (.inl rfl)) count hcount hmet)
            | some k =>
                cases hp : st.lastPlain with
                | some index => exact Except.returns_ok _
                | none =>
                    exact returns_contentCheck_iff.mpr
                      (hunder.content (haccepted.mpr (.inr hp)) count hcount hmet)
  · have hfirst : trail.findIdx isChained = trail.length :=
      le_antisymm List.findIdx_le_length (not_lt.mp hlt)
    rw [if_pos hfirst]
    split
    · exact Except.returns_pure _
    split
    · exact Except.returns_pure _
    · exact Except.returns_pure _

/-- Verification returns a report exactly on data whose comparisons can be made. -/
theorem verifyTrail_returns_iff (rt : Runtime) (environ : Environ) (trail : List Entry)
    (anchor : Anchor) (artifacts : Option (Dict Str Json)) (decisions : Option (List Json)) :
    (verifyTrail rt environ trail anchor artifacts decisions).Returns ↔
      Verifiable rt environ trail anchor artifacts decisions :=
  ⟨verifiable_of_returns, returns_of_verifiable⟩

def Sample.accentedEntry : Entry :=
  [(lit "entry_hash", .str (lit "0")), (lit "hash_alg", .str algPlain),
    (lit "prev_hash", .str [233])]

/-- A trail of one entry with a link that is not ASCII gets no report. -/
theorem verifyTrail_raises_accented :
    ¬ ∀ (trail : List Entry) (anchor : Anchor), (∀ e ∈ trail, ∀ kv ∈ e, ∃ s, kv.2 = .str s) →
      (verifyTrail (.ascii Runtime.shortDigest) (fun _ => none) trail anchor none none).Returns := by
  intro h
  have hstrings : ∀ e ∈ [Sample.accentedEntry], ∀ kv ∈ e, ∃ s, kv.2 = .str s := by
    intro e he kv hkv
    obtain rfl := List.mem_singleton.mp he
    simp only [Sample.accentedEntry, List.mem_cons, List.not_mem_nil, or_false] at hkv
    rcases hkv with rfl | rfl | rfl
    · exact ⟨_, rfl⟩
    · exact ⟨_, rfl⟩
    · exact ⟨_, rfl⟩
  obtain ⟨v, hv⟩ := h [Sample.accentedEntry] none hstrings
  have hraise : verifyTrail (.ascii Runtime.shortDigest) (fun _ => none) [Sample.accentedEntry] none
      none none = .error (.typeError
        (lit "comparing strings with non-ASCII characters is not supported")) := rfl
  rw [hraise] at hv
  cases hv

end Trail

end AuditSwarm
