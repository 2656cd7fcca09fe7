import AuditSwarm.Lib.Returns
import AuditSwarm.Model.Sampling
import AuditSwarm.Trail.Built

/-!
# A sample can be selected again

The receipt of a sample determines the population and the sample: whoever holds a population with
the digest of the receipt selects the same items of the same population from the receipt alone.
-/

namespace AuditSwarm

open Python StrEnum

namespace Sampling

variable {rt : Runtime} {sampler : Sampler} {items : List Str} {sampleSize : Int}
  {sessionId controlId : Str} {r : SampleSelectionReceipt}

/-! ## The digest of a population -/

theorem sortElems_strs (items : List Str) :
    Json.sortElems (items.map Json.str) = items.map Json.str := by
  induction items with
  | nil => rfl
  | cons item items ih =>
      rw [List.map_cons, Json.sortElems, ih]
      rfl

theorem sortKeys_strs (items : List Str) :
    Json.sortKeys (.arr (items.map .str)) = .arr (items.map .str) := by
  rw [Json.sortKeys, sortElems_strs]

theorem population_unique (hcf : rt.CollisionFree) {items' : List Str} {digest : Str}
    (h : computeIpePopulationDigest rt items = .ok digest)
    (h' : computeIpePopulationDigest rt items' = .ok digest) : items = items' := by
  rcases Except.bind_eq_ok_iff.mp h with ⟨bytes, hbytes, h⟩
  rcases Except.bind_eq_ok_iff.mp h' with ⟨bytes', hbytes', h'⟩
  rw [Except.pure_eq_ok_iff] at h h'
  have hdigest := hexdigest_injective (h.trans h'.symm)
  have hsame : bytes = bytes' := hcf _ _ hdigest
  have hwrite : Json.write (.arr (items.map .str)) = Json.write (.arr (items'.map .str)) := by
    apply encodeUtf8_inj (Except.orRaise_eq_ok_iff.mp hbytes)
    rw [hsame]
    exact Except.orRaise_eq_ok_iff.mp hbytes'
  have hjson : Json.Same (.arr (items.map .str)) (.arr (items'.map .str)) := by
    apply Json.same_of_write
    rw [sortKeys_strs, sortKeys_strs]
    exact hwrite
  unfold Json.Same at hjson
  rw [sortKeys_strs, sortKeys_strs, Json.arr.injEq] at hjson
  exact List.map_injective_iff.mpr (fun _ _ h => Json.str.inj h) hjson

/-! ## The indices of a sample -/

/-- A sample of a population of this size. -/
structure IsSample (popCount : Nat) (sampleSize : Int) (chosen : Nat × SamplingMethod × List Nat) :
    Prop where
  size : chosen.1 = min sampleSize.toNat popCount
  length : chosen.2.2.length = chosen.1
  increasing : chosen.2.2.Pairwise (· < ·)
  bounded : ∀ i ∈ chosen.2.2, i < popCount

theorem isSample_selection (sampler : Sampler) (seed : Str) (popCount : Nat) (sampleSize : Int) :
    IsSample popCount sampleSize (selection sampler seed popCount sampleSize) := by
  unfold selection
  by_cases hnone : sampleSize ≤ 0 ∨ popCount = 0
  · rw [if_pos hnone]
    constructor
    case size =>
      show 0 = _
      omega
    case length => rfl
    case increasing => exact .nil
    case bounded =>
      intro i hi
      cases hi
  · rw [if_neg hnone]
    by_cases hall : sampleSize ≥ popCount
    · rw [if_pos hall]
      constructor
      case size =>
        show popCount = _
        omega
      case length => exact List.length_range
      case increasing => exact List.pairwise_lt_range
      case bounded =>
        intro i hi
        exact List.mem_range.mp hi
    · rw [if_neg hall]
      have hk : sampleSize.toNat ≤ popCount := by omega
      have hperm := List.mergeSort_perm
        (sampler.sample (intOfHex seed) popCount sampleSize.toNat) (fun a b => decide (a ≤ b))
      constructor
      case size =>
        show sampleSize.toNat = _
        omega
      case length =>
        exact hperm.length_eq.trans (sampler.length_sample _ _ _ hk)
      case increasing =>
        have htrans : ∀ a b c : Nat, decide (a ≤ b) = true → decide (b ≤ c) = true →
            decide (a ≤ c) = true := by
          intro a b c hab hbc
          rw [decide_eq_true_eq] at hab hbc ⊢
          exact hab.trans hbc
        have htotal : ∀ a b : Nat, (decide (a ≤ b) || decide (b ≤ a)) = true := by
          intro a b
          rw [Bool.or_eq_true, decide_eq_true_eq, decide_eq_true_eq]
          exact Nat.le_total a b
        have hsorted := @List.pairwise_mergeSort _ (fun a b : Nat => decide (a ≤ b)) htrans htotal
          (sampler.sample (intOfHex seed) popCount sampleSize.toNat)
        have hnodup := hperm.nodup_iff.mpr (sampler.nodup_sample (intOfHex seed) _ _ hk)
        apply (hsorted.and hnodup).imp
        intro a b hab
        have hle := of_decide_eq_true hab.1
        have hne : a ≠ b := hab.2
        omega
      case bounded =>
        intro i hi
        exact sampler.lt_of_mem_sample _ _ _ hk i (hperm.mem_iff.mp hi)

/-- The size of a sample, asked for again, gives the same sample. -/
theorem selection_again (sampler : Sampler) (seed : Str) (popCount : Nat) (sampleSize : Int) :
    selection sampler seed popCount (selection sampler seed popCount sampleSize).1 =
      selection sampler seed popCount sampleSize := by
  by_cases hnone : sampleSize ≤ 0 ∨ popCount = 0
  · have h : selection sampler seed popCount sampleSize = (0, .notApplicable, []) := if_pos hnone
    rw [h]
    exact if_pos (.inl le_rfl)
  · by_cases hall : sampleSize ≥ popCount
    · have h : selection sampler seed popCount sampleSize =
          (popCount, .fullPopulation, List.range popCount) := by
        unfold selection
        rw [if_neg hnone, if_pos hall]
      rw [h]
      unfold selection
      rw [if_neg (by omega), if_pos (by omega)]
    · have hsize : ((selection sampler seed popCount sampleSize).1 : Int) = sampleSize := by
        unfold selection
        rw [if_neg hnone, if_neg hall]
        show ((sampleSize.toNat : Nat) : Int) = sampleSize
        omega
      rw [hsize]

/-! ## A selected sample -/

/-- A receipt says which items were selected, and can be performed again: a population with the
digest of the receipt is the population, and selecting from it with the size and the ids of the
receipt gives the receipt. -/
theorem sample_reperformed (rt : Runtime) (hcf : rt.CollisionFree) (sampler : Sampler)
    {items : List Str} {sampleSize : Int} {sessionId controlId : Str} {r : SampleSelectionReceipt}
    (h : deterministicSampleSelection rt sampler items sampleSize sessionId controlId = .ok r) :
    r.sampleSize = min sampleSize.toNat items.length ∧
    r.selectedIndices.length = r.sampleSize ∧
    r.selectedIndices.Pairwise (· < ·) ∧
    r.selectedItems.map some = r.selectedIndices.map (fun i => items[i]?) ∧
    ∀ items', computeIpePopulationDigest rt items' = .ok r.populationSha256 →
      items' = items ∧
      deterministicSampleSelection rt sampler items' r.sampleSize r.sessionId r.controlId =
        .ok r := by
  rcases Except.bind_eq_ok_iff.mp h with ⟨popHash, hpop, h⟩
  rcases Except.bind_eq_ok_iff.mp h with ⟨seed, hseed, h⟩
  rw [Except.pure_eq_ok_iff] at h
  have hsample := isSample_selection sampler seed items.length sampleSize
  have hagain := selection_again sampler seed items.length sampleSize
  subst h
  refine ⟨hsample.size, hsample.length, hsample.increasing, ?_, ?_⟩
  · dsimp only
    rw [List.map_map]
    apply List.map_congr_left
    intro i hi
    have hlt := hsample.bounded i hi
    show some (items.getD i []) = items[i]?
    rw [List.getD_eq_getElem?_getD, List.getElem?_eq_getElem hlt]
    rfl
  · intro items' hitems'
    have hsame : items' = items := population_unique hcf hitems' hpop
    refine ⟨hsame, ?_⟩
    subst hsame
    unfold deterministicSampleSelection
    dsimp only
    rw [hpop, Except.ok_bind, hseed, Except.ok_bind, hagain]
    rfl

def firstElements : Sampler where
  sample := fun _ _ k => List.range k
  length_sample := fun _ _ _ _ => List.length_range
  nodup_sample := fun _ _ _ _ => List.nodup_range
  lt_of_mem_sample := fun _ _ _ h _ hi => lt_of_lt_of_le (List.mem_range.mp hi) h

/-- Two of three items. -/
theorem sample_reperformed_two :
    ∃ r, deterministicSampleSelection Sample.transparent firstElements
        [lit "a", lit "b", lit "c"] 2 (lit "s1") (lit "C1") = .ok r ∧
      r.sampleSize = 2 ∧
      deterministicSampleSelection Sample.transparent firstElements
        [lit "a", lit "b", lit "c"] r.sampleSize r.sessionId r.controlId = .ok r := by
  have hreturns : Except.Returns (deterministicSampleSelection Sample.transparent firstElements
      [lit "a", lit "b", lit "c"] 2 (lit "s1") (lit "C1")) := ⟨_, rfl⟩
  rcases hreturns with ⟨r, hr⟩
  rcases sample_reperformed Sample.transparent Runtime.collisionFree_transparent firstElements hr
    with ⟨hsize, -, -, -, hagain⟩
  rcases Except.bind_eq_ok_iff.mp hr with ⟨popHash, hpop, hrest⟩
  rcases Except.bind_eq_ok_iff.mp hrest with ⟨seed, -, hreceipt⟩
  rw [Except.pure_eq_ok_iff] at hreceipt
  have hdigest : r.populationSha256 = popHash := by
    rw [← hreceipt]
  refine ⟨r, hr, hsize, (hagain _ ?_).2⟩
  rw [hdigest]
  exact hpop

end Sampling

end AuditSwarm
