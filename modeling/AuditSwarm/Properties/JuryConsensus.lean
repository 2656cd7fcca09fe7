import AuditSwarm.Model.PollJury

/-!
# The decision of a panel of judges

When the decision of `aggregate_poll_jury` is the exact one: a unanimous panel, or two thirds of
the weight.
-/

namespace AuditSwarm

open Python

namespace ModelRouting

variable {votes : List PollJuryVote}

/-! ## Weights -/

theorem weightOf_pos (hne : votes ≠ []) (hpos : ∀ v ∈ votes, 0 < v.weight) :
    0 < weightOf votes := by
  apply List.sum_pos
  · intro w hw
    obtain ⟨v, hv, rfl⟩ := List.mem_map.mp hw
    exact hpos v hv
  · simpa using hne

/-- The score reaches a threshold when the approving weight reaches its share of the total. -/
theorem le_pollScore_iff (hpos : 0 < weightOf votes) (threshold : ℚ) :
    threshold ≤ pollScore votes ↔ threshold * weightOf votes ≤ approvedWeight votes := by
  rw [pollScore, totalWeight, if_neg hpos.ne', le_div_iff₀ hpos]

theorem approvedWeight_of_unanimous (h : ∀ v ∈ votes, v.approved = true) :
    approvedWeight votes = weightOf votes := by
  rw [approvedWeight, List.filter_eq_self.mpr h]

/-! ## The decision -/

def Consensus (votes : List PollJuryVote) (requireUnanimity : Bool) : Prop :=
  if requireUnanimity then ∀ v ∈ votes, v.approved = true
  else 2 * weightOf votes ≤ 3 * approvedWeight votes

/-- The panel falls short of the decision by no more than the threshold leaves. -/
def ShortByTolerance (votes : List PollJuryVote) (requireUnanimity : Bool) : Prop :=
  if requireUnanimity then
    (∃ v ∈ votes, v.approved = false) ∧ 999 * weightOf votes ≤ 1000 * approvedWeight votes
  else
    3 * approvedWeight votes < 2 * weightOf votes ∧
      (2 / 3 - 1 / 1000000) * weightOf votes ≤ approvedWeight votes

theorem approved_of_aggregate (hne : votes ≠ []) (hfamilies : (namedFamilies votes).Nodup)
    (requireUnanimity : Bool) :
    ∃ result, aggregatePollJury votes requireUnanimity = .ok result ∧
      (result.approved = true ↔ pollThreshold requireUnanimity ≤ pollScore votes) := by
  unfold aggregatePollJury
  rw [if_neg hne, if_neg (not_not.mpr hfamilies)]
  by_cases h : pollThreshold requireUnanimity ≤ pollScore votes
  · rw [if_pos h]
    exact ⟨_, rfl, iff_of_true rfl h⟩
  · rw [if_neg h]
    exact ⟨_, rfl, iff_of_false Bool.false_ne_true h⟩

/-- A panel decides exactly, unless the weight it falls short by is within the tolerance of its
threshold. -/
theorem aggregatePollJury_exact_iff (votes : List PollJuryVote) (requireUnanimity : Bool)
    (hne : votes ≠ []) (hpos : ∀ v ∈ votes, 0 < v.weight)
    (hfamilies : (namedFamilies votes).Nodup) :
    ∃ result, aggregatePollJury votes requireUnanimity = .ok result ∧
      ((result.approved = true ↔ Consensus votes requireUnanimity) ↔
        ¬ ShortByTolerance votes requireUnanimity) := by
  obtain ⟨result, hresult, happroved⟩ := approved_of_aggregate hne hfamilies requireUnanimity
  refine ⟨result, hresult, ?_⟩
  have htotal := weightOf_pos hne hpos
  rw [happroved, le_pollScore_iff htotal]
  cases requireUnanimity with
  | true =>
      simp only [pollThreshold, Consensus, ShortByTolerance, if_true]
      by_cases hall : ∀ v ∈ votes, v.approved = true
      · have hweight := approvedWeight_of_unanimous hall
        have hle : 999 / 1000 * weightOf votes ≤ approvedWeight votes := by
          rw [hweight]
          linarith
        have hnone : ¬ ∃ v ∈ votes, v.approved = false := by
          intro h
          obtain ⟨v, hv, hreject⟩ := h
          rw [hall v hv] at hreject
          cases hreject
        exact iff_of_true (iff_of_true hle hall) fun h => hnone h.1
      · have hsome : ∃ v ∈ votes, v.approved = false := by
          by_contra hnone
          apply hall
          intro v hv
          cases happ : v.approved with
          | true => rfl
          | false => exact absurd ⟨v, hv, happ⟩ hnone
        have hscale : 999 * weightOf votes ≤ 1000 * approvedWeight votes ↔
            999 / 1000 * weightOf votes ≤ approvedWeight votes := by
          constructor
          · intro h
            linarith
          · intro h
            linarith
        simp only [hall, hsome, true_and, iff_false, hscale]
  | false =>
      simp only [pollThreshold, Consensus, ShortByTolerance, Bool.false_eq_true, if_false]
      by_cases htwo : 2 * weightOf votes ≤ 3 * approvedWeight votes
      · have hle : (2 / 3 - 1 / 1000000) * weightOf votes ≤ approvedWeight votes := by
          linarith
        have hnot : ¬ 3 * approvedWeight votes < 2 * weightOf votes := not_lt.mpr htwo
        simp only [hle, htwo, hnot, false_and, not_false_iff]
      · have hlt : 3 * approvedWeight votes < 2 * weightOf votes := not_le.mp htwo
        simp only [htwo, hlt, true_and, iff_false]

/-- A judge of a thousandth of the weight who rejects what the others approve. -/
def dissent : List PollJuryVote :=
  [{ modelId := lit "openai/gpt-4o", family := .openai, approved := true, weight := 999 },
    { modelId := lit "anthropic/claude", family := .anthropic, approved := false, weight := 1 }]

theorem dissent_approved :
    ∃ result, aggregatePollJury dissent true = .ok result ∧
      ¬ (result.approved = true ↔ Consensus dissent true) := by
  obtain ⟨result, hresult, happroved⟩ :=
    approved_of_aggregate (List.cons_ne_nil _ _ : dissent ≠ []) (by decide) true
  refine ⟨result, hresult, ?_⟩
  have hscore : pollThreshold true ≤ pollScore dissent := by
    simp only [pollThreshold, pollScore, approvedWeight, totalWeight, weightOf, dissent]
    norm_num
  have hreject : ¬ Consensus dissent true := by
    intro h
    have hlast := h _ (List.mem_cons_of_mem _ List.mem_cons_self)
    cases hlast
  rw [happroved]
  exact fun h => hreject (h.mp hscore)

theorem aggregatePollJury_exact_dissent :
    ∃ result, aggregatePollJury dissent false = .ok result ∧
      ((result.approved = true ↔ Consensus dissent false) ↔ ¬ ShortByTolerance dissent false) :=
  aggregatePollJury_exact_iff dissent false (List.cons_ne_nil _ _)
    (by simp [dissent]) (by decide)

end ModelRouting

end AuditSwarm
