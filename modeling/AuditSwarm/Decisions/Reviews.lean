import AuditSwarm.Decisions.Gates

/-!
# What a review can change

A challenge only withdraws a conclusion: from "Effective" to "Not tested".  So it neither adds an
exception to a finding nor takes one away.
-/

namespace AuditSwarm

open Python StrEnum

namespace Decisions

variable {rt : Runtime} {ctx : Context} {decisions : List ReviewDecision} {d : ReviewDecision}
  {active : Dict SlotKey ReviewDecision}

/-! ## Withdrawn conclusions -/

def Withdraws (draft new : Str) : Prop :=
  new = draft ∨ (draft = lit "Effective" ∧ new = lit "Not tested")

/-- What a request stores of one conclusion withdraws the draft's, if it stores anything. -/
theorem challengeField_eq_ok {controlId field draft : Str} {new : Option Str} {kv : Dict Str Str}
    (h : challengeField controlId field draft new = .ok kv) :
    kv = [] ∨ ∃ n, kv = [(field, n)] ∧ Withdraws draft n := by
  unfold challengeField at h
  cases new with
  | none => exact .inl (Except.ok.inj h).symm
  | some n =>
      dsimp only at h
      split at h
      · exact .inl (Except.ok.inj h).symm
      · split at h
        · rename_i hne hallowed
          refine .inr ⟨n, (Except.ok.inj h).symm, ?_⟩
          unfold Policy.conclusionChangeAllowed Policy.conclusionDowngradeTarget
            Policy.conclusionDowngradeFrom at hallowed
          simp only [Bool.or_eq_true, Bool.and_eq_true, decide_eq_true_eq, List.contains_iff_mem,
            List.mem_singleton] at hallowed
          rcases hallowed with hsame | ⟨htarget, hfrom⟩
          · exact .inl hsame
          · exact .inr ⟨hfrom, htarget⟩
        · cases h

theorem withdraws_getD {draft n field : Str} (h : Withdraws draft n) :
    Withdraws draft (Dict.getD [(field, n)] field draft) := by
  simpa [Dict.getD, Dict.get?_cons] using h

/-- The values of a challenge withdraw the conclusions of the finding. -/
structure Challenges (values : Dict Str Str) (f : AuditFindingSchema) : Prop where
  tod : Withdraws (value f.todConclusion)
    (values.getD (lit "tod_conclusion") (value f.todConclusion))
  toe : Withdraws (value f.toeConclusion)
    (values.getD (lit "toe_conclusion") (value f.toeConclusion))

theorem challenges_nil (f : AuditFindingSchema) : Challenges [] f := ⟨.inl rfl, .inl rfl⟩

theorem challengeValues_eq_ok {f : AuditFindingSchema} {tod : Option DesignConclusion}
    {toe : Option OperatingConclusion} {values : Dict Str Str}
    (h : challengeValues f tod toe = .ok values) : Challenges values f := by
  unfold challengeValues at h
  simp only [Except.bind_eq_ok_iff, Except.pure_eq_ok_iff] at h
  obtain ⟨kv, hkv, kv', hkv', rfl⟩ := h
  have hne : lit "toe_conclusion" ≠ lit "tod_conclusion" := by decide
  rcases challengeField_eq_ok hkv with rfl | ⟨n, rfl, hn⟩
  · rcases challengeField_eq_ok hkv' with rfl | ⟨n', rfl, hn'⟩
    · exact challenges_nil f
    · refine ⟨.inl ?_, withdraws_getD hn'⟩
      simp [Dict.getD, Dict.get?_cons, hne]
  · rcases challengeField_eq_ok hkv' with rfl | ⟨n', rfl, hn'⟩
    · refine ⟨withdraws_getD hn, .inl ?_⟩
      simp [Dict.getD, Dict.get?_cons, hne.symm]
    · constructor
      · simpa [Dict.getD, Dict.get?_cons] using hn
      · simpa [Dict.getD, Dict.get?_cons, hne.symm] using hn'

/-- A decision on a finding was built on a finding of its control, whose conclusions it only
withdraws. -/
theorem Built.challenges {status : Str} {preparers : List Str} {uuid : Str}
    (h : Built rt ctx status preparers decisions uuid d)
    (htype : d.decisionType = .signOff ∨ d.decisionType = .challenge) :
    ∃ f, ctx.finding d.subjectId = some f ∧ Challenges d.values f := by
  obtain ⟨active, parsed, decidedAt, -, hstored, -⟩ := h.values
  have hsubject : subjectForType d.decisionType = .finding := by
    rcases htype with htype | htype <;> rw [htype] <;> rfl
  unfold storedValues at hstored
  rw [hsubject] at hstored
  dsimp only at hstored
  split at hstored
  · cases hstored
  · rename_i f hf
    refine ⟨f, hf, ?_⟩
    split at hstored
    · exact challengeValues_eq_ok hstored
    · simp only [Except.bind_eq_ok_iff, Except.pure_eq_ok_iff] at hstored
      obtain ⟨_, -, _, -, hvalues⟩ := hstored
      rw [← hvalues]
      exact challenges_nil f
    · rw [← Except.pure_eq_ok_iff.mp hstored]
      exact challenges_nil f

/-! ## Exceptions -/

/-- Conclusions a review leaves of those of a finding. -/
structure Reviewed (f : AuditFindingSchema) (tod : DesignConclusion) (toe : OperatingConclusion) :
    Prop where
  tod : tod = f.todConclusion ∨ (f.todConclusion = .effective ∧ tod = .notTested)
  toe : toe = f.toeConclusion ∨ (f.toeConclusion = .effective ∧ toe = .notTested)

theorem Reviewed.exception_iff {f : AuditFindingSchema} {tod : DesignConclusion}
    {toe : OperatingConclusion} (h : Reviewed f tod toe) :
    deriveResult tod toe f.exceptionsNoted = .exception ↔ f.derived = .exception := by
  unfold AuditFindingSchema.derived
  have hexc : ∀ t e, deriveResult t e f.exceptionsNoted = .exception ↔
      t = .ineffective ∨ (e = .exceptionsNoted ∨ e = .ineffective) ∨
        0 < f.exceptionsNoted.getD 0 := by
    intro t e
    unfold deriveResult
    constructor
    · intro hresult
      by_contra hnone
      rw [if_neg hnone] at hresult
      split at hresult <;> cases hresult
    · intro hsome
      rw [if_pos hsome]
  rw [hexc, hexc]
  have htod : tod = .ineffective ↔ f.todConclusion = .ineffective := by
    rcases h.tod with htod | ⟨hdraft, htod⟩
    · rw [htod]
    · rw [hdraft, htod]
      decide
  have htoe : (toe = .exceptionsNoted ∨ toe = .ineffective) ↔
      (f.toeConclusion = .exceptionsNoted ∨ f.toeConclusion = .ineffective) := by
    rcases h.toe with htoe | ⟨hdraft, htoe⟩
    · rw [htoe]
    · rw [hdraft, htoe]
      decide
  rw [htod, htoe]

/-- The effective conclusions of a finding under a review that was built on it. -/
theorem effectiveConclusions_of_challenges {f : AuditFindingSchema} {review : Option ReviewDecision}
    (hreview : ∀ d, review = some d → Challenges d.values f) :
    ∃ tod toe, Reviewed f tod toe ∧ effectiveConclusions rt f review =
      .ok (value tod, value toe, value (deriveResult tod toe f.exceptionsNoted)) := by
  have hconclusion : ∀ {draft field : Str},
      (∀ d, review = some d → Withdraws draft (d.values.getD field draft)) →
      Withdraws draft (reviewedConclusion review field draft) := by
    intro draft field hw
    unfold reviewedConclusion
    cases review with
    | none => exact .inl rfl
    | some d =>
        dsimp only
        split
        · exact hw d rfl
        · exact .inl rfl
  have htod : ∃ tod, reviewedConclusion review (lit "tod_conclusion") (value f.todConclusion) =
      value tod ∧ (tod = f.todConclusion ∨ (f.todConclusion = .effective ∧ tod = .notTested)) := by
    rcases hconclusion (fun d hd => (hreview d hd).tod) with h | ⟨hdraft, h⟩
    · exact ⟨_, h, .inl rfl⟩
    · exact ⟨.notTested, h.trans (by decide), .inr ⟨value_injective (hdraft.trans (by decide)), rfl⟩⟩
  have htoe : ∃ toe, reviewedConclusion review (lit "toe_conclusion") (value f.toeConclusion) =
      value toe ∧ (toe = f.toeConclusion ∨ (f.toeConclusion = .effective ∧ toe = .notTested)) := by
    rcases hconclusion (fun d hd => (hreview d hd).toe) with h | ⟨hdraft, h⟩
    · exact ⟨_, h, .inl rfl⟩
    · exact ⟨.notTested, h.trans (by decide), .inr ⟨value_injective (hdraft.trans (by decide)), rfl⟩⟩
  obtain ⟨tod, htod, hkept⟩ := htod
  obtain ⟨toe, htoe, hkept'⟩ := htoe
  refine ⟨tod, toe, ⟨hkept, hkept'⟩, ?_⟩
  unfold effectiveConclusions
  dsimp only
  rw [htod, htoe, ofValue?_value, ofValue?_value]

end Decisions

end AuditSwarm
