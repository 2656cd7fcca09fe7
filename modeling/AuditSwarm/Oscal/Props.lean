import AuditSwarm.Model.Drift
import AuditSwarm.Oscal.Built

/-!
# Props of a risk

What the last prop of a name says.  A risk has one prop for its deficiency id and one each for the
classification, the likelihood and the magnitude of record: what the builder adds to them has
other names.
-/

namespace AuditSwarm

open Python

namespace Oscal

def Lacks (name : Str) (ps : List Property) : Prop := ∀ p ∈ ps, p.name ≠ name

theorem Lacks.nil (name : Str) : Lacks name [] := fun _ hp => absurd hp List.not_mem_nil

theorem Lacks.append {name : Str} {ps qs : List Property} (hps : Lacks name ps)
    (hqs : Lacks name qs) : Lacks name (ps ++ qs) := by
  intro p hp
  rcases List.mem_append.mp hp with hp | hp
  · exact hps p hp
  · exact hqs p hp

theorem lacks_props {name : Str} {pairs : List (Str × Str)} (h : name ∉ pairs.map Prod.fst) :
    Lacks name (props pairs) := by
  intro p hp hname
  unfold props at hp
  rcases List.mem_map.mp hp with ⟨q, hq, hqp⟩
  apply h
  rw [← hname, ← hqp]
  exact List.mem_map_of_mem (List.mem_of_mem_filter hq)

theorem propValue_append_of_lacks {name : Str} (ps : List Property) {qs : List Property}
    (h : Lacks name qs) : propValue (ps ++ qs) name = propValue ps name := by
  have hnone : qs.reverse.find? (fun p => p.name = name) = none := by
    apply List.find?_eq_none.mpr
    intro p hp
    rw [decide_eq_true_eq]
    exact h p (List.mem_reverse.mp hp)
  unfold propValue
  rw [List.reverse_append, List.find?_append, hnone, Option.none_or]

theorem propValue_lacks_append {name : Str} {ps : List Property} (h : Lacks name ps)
    (qs : List Property) : propValue (ps ++ qs) name = propValue qs name := by
  have hnone : ps.reverse.find? (fun p => p.name = name) = none := by
    apply List.find?_eq_none.mpr
    intro p hp
    rw [decide_eq_true_eq]
    exact h p (List.mem_reverse.mp hp)
  unfold propValue
  rw [List.reverse_append, List.find?_append, hnone, Option.or_none]

theorem props_append (as bs : List (Str × Str)) : props (as ++ bs) = props as ++ props bs := by
  unfold props
  rw [List.filter_append, List.map_append]

/-- What a prop shows of a value: nothing of one that is empty in one line. -/
def shownValue (value : Str) : Option Str := if oneLine value = [] then none else some (oneLine value)

theorem propValue_props_singleton (name value : Str) :
    propValue (props [(name, value)]) name = shownValue value := by
  unfold props shownValue
  by_cases h : oneLine value = []
  · rw [if_pos h, List.filter_cons_of_neg (by simp [h])]
    rfl
  · rw [if_neg h, List.filter_cons_of_pos (by simp [h])]
    unfold propValue prop
    simp

theorem propValue_props {name : Str} (as : List (Str × Str)) (value : Str)
    (bs : List (Str × Str)) (has : name ∉ as.map Prod.fst) (hbs : name ∉ bs.map Prod.fst) :
    propValue (props (as ++ (name, value) :: bs)) name = shownValue value := by
  rw [← List.singleton_append, props_append, props_append,
    propValue_lacks_append (lacks_props has), propValue_append_of_lacks _ (lacks_props hbs),
    propValue_props_singleton]

/-! ## The props of record of a risk -/

def recordNames : List Str :=
  [lit "deficiency-id", lit "classification", lit "likelihood", lit "magnitude"]

variable {rt : Runtime} {lib : OscalLibrary} {inp : Inputs} {name : Str}

theorem decidedProps_lacks {ref : Option Decisions.DecisionRef} {label : Str} {ps : List Property}
    (hname : name ∈ recordNames) (hlabel : label = [] ∨ label = lit "remediation-")
    (h : decidedProps rt lib ref label = .ok ps) : Lacks name ps := by
  unfold decidedProps at h
  cases ref with
  | none =>
      rw [← Except.ok.inj h]
      exact Lacks.nil name
  | some d =>
      rcases Except.bind_eq_ok_iff.mp h with ⟨decidedAt, -, h⟩
      rw [← Except.ok.inj h]
      apply lacks_props
      simp only [List.map_cons, List.map_nil]
      revert name
      rcases hlabel with rfl | rfl
      · decide
      · decide

theorem viewProps_lacks {v : Decisions.DeficiencyView} {e : DeficiencyEvaluationSchema}
    {ps : List Property} (hname : name ∈ recordNames) (h : viewProps rt lib v e = .ok ps) :
    Lacks name ps := by
  unfold viewProps at h
  rcases Except.bind_eq_ok_iff.mp h with ⟨decided, hdecided, h⟩
  rw [← Except.ok.inj h]
  apply Lacks.append
  · apply Lacks.append
    · apply lacks_props
      simp only [List.map_cons, List.map_nil]
      revert name
      decide
    · split
      · apply lacks_props
        simp only [List.map_cons, List.map_nil]
        revert name
        decide
      · exact Lacks.nil name
  · exact decidedProps_lacks hname (.inl rfl) hdecided

theorem racmRiskProps_lacks (hname : name ∈ recordNames) (e : DeficiencyEvaluationSchema) :
    Lacks name (racmRiskProps e) := by
  intro p hp
  rcases List.mem_map.mp hp with ⟨r, -, rfl⟩
  show lit "racm-risk-id" ≠ name
  revert name
  decide

theorem verificationLog_lacks {modified : Timestamp} {key : Str}
    {ref : Option Decisions.DecisionRef} {log : List RiskLogEntry} (hname : name ∈ recordNames)
    (h : verificationLog rt lib inp modified key ref = .ok log) :
    Lacks name (log.flatMap RiskLogEntry.props) := by
  unfold verificationLog at h
  cases ref with
  | none =>
      rw [← Except.ok.inj h]
      exact Lacks.nil name
  | some r =>
      rcases Except.bind_eq_ok_iff.mp h with ⟨byReviewer, hby, h⟩
      rcases Except.bind_eq_ok_iff.mp h with ⟨verified, -, h⟩
      rcases Except.bind_eq_ok_iff.mp h with ⟨decided, -, h⟩
      rw [← Except.ok.inj h, List.flatMap_singleton]
      apply Lacks.append
      · apply lacks_props
        simp only [List.map_cons, List.map_nil]
        revert name
        decide
      · exact decidedProps_lacks hname (.inr rfl) hby

/-- What a risk says is of record is what its first props say. -/
theorem propValue_risk {modified : Timestamp} {e : DeficiencyEvaluationSchema} {key : Str}
    {r : DocumentRisk} (hname : name ∈ recordNames)
    (h : documentRisk rt lib inp modified e key = .ok r) :
    propValue r.props name = propValue (classificationProps inp (deficiencyOf inp e) e) name := by
  have hmade := documentRisk_made h
  rcases hmade.props with ⟨ofView, verified, hview, hdraft, hverified, hprops⟩
  have hofView : Lacks name ofView := by
    cases hd : deficiencyOf inp e with
    | none =>
        rw [hdraft hd]
        exact Lacks.nil name
    | some v => exact viewProps_lacks hname (hview v hd)
  rw [hprops, propValue_append_of_lacks _ (verificationLog_lacks hname hverified),
    propValue_append_of_lacks _ (racmRiskProps_lacks hname e), propValue_append_of_lacks _ hofView]

theorem propValue_deficiencyId (dv : Option Decisions.DeficiencyView)
    (e : DeficiencyEvaluationSchema) :
    propValue (classificationProps inp dv e) (lit "deficiency-id") = shownValue e.deficiencyId := by
  unfold classificationProps
  refine propValue_props [] _ _ List.not_mem_nil ?_
  simp only [List.map_cons, List.map_nil]
  decide

theorem propValue_classification (dv : Option Decisions.DeficiencyView)
    (e : DeficiencyEvaluationSchema) :
    propValue (classificationProps inp dv e) (lit "classification") =
        shownValue (classificationOfRecord dv e).classification ∧
      propValue (classificationProps inp dv e) (lit "likelihood") =
        shownValue (classificationOfRecord dv e).likelihood ∧
      propValue (classificationProps inp dv e) (lit "magnitude") =
        shownValue (classificationOfRecord dv e).magnitude := by
  unfold classificationProps
  refine ⟨?_, ?_, ?_⟩
  · refine propValue_props [_] _ _ ?_ ?_
    · simp only [List.map_cons, List.map_nil]
      decide
    · simp only [List.map_cons, List.map_nil]
      decide
  · refine propValue_props [_, _, _, _] _ _ ?_ ?_
    · simp only [List.map_cons, List.map_nil]
      decide
    · simp only [List.map_cons, List.map_nil]
      decide
  · refine propValue_props [_, _, _, _, _] _ _ ?_ ?_
    · simp only [List.map_cons, List.map_nil]
      decide
    · exact List.not_mem_nil

end Oscal

end AuditSwarm
