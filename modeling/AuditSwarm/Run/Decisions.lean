import AuditSwarm.Decisions.Slots
import AuditSwarm.Run.Steps

/-!
# The decisions of a run

Only `record_decision` appends to the decisions of a flow, and what it appends was built on the
flow as it was.  With fresh ids, the decisions of every run are a log.
-/

namespace AuditSwarm

open Python StrEnum Decisions

namespace AuditFlow

variable {rt : Runtime} {f g : AuditFlow} {d : ReviewDecision}

/-- The step recorded the decision: it was built on the flow before, and appended. -/
structure RecordedAt (rt : Runtime) (t : Transition AuditFlow Call (Except Exn Unit))
    (d : ReviewDecision) : Prop where
  call : ∃ req, t.label.op = .record (.recordDecision req)
  built : Decisions.Built rt t.before.decisionContext t.before.machine.status.value
    t.before.preparers t.before.state.reviewDecisions t.label.env.uuid d
  appended : t.after.state.reviewDecisions = t.before.state.reviewDecisions ++ [d]

/-- A call appends at most one decision, the one `build_decision` returns for its request. -/
theorem decision_appended (f : AuditFlow) (c : Call) :
    (step rt f c).2.state.reviewDecisions = f.state.reviewDecisions ∨
      ∃ req, ∃ d : ReviewDecision, c.op = .record (.recordDecision req) ∧
        (decisionAction rt c.env req).check f = .ok d ∧
        (step rt f c).2.state.reviewDecisions = f.state.reviewDecisions ++ [d] := by
  obtain ⟨env, op⟩ := c
  cases op with
  | record a =>
      have hact : act rt env a f = ((act rt env a f).1, (act rt env a f).2) := rfl
      have hcases : (act rt env a f).2 = f ∨ ∃ k, (recorded rt env a).check f = .ok k ∧
          (act rt env a f).2.state.reviewDecisions =
            ((recorded rt env a).mutate k f).state.reviewDecisions := by
        rcases act_cases hact with ⟨err, -, -, hg⟩ | ⟨k, c, hk, -, hg⟩ | ⟨k, e, hk, -, -, hg⟩
        · exact .inl hg
        · exact .inr ⟨k, hk, congrArg (·.state.reviewDecisions) hg⟩
        · refine .inr ⟨k, hk, (congrArg (·.state.reviewDecisions) hg).trans ?_⟩
          cases a <;> rfl
      rcases hcases with hg | ⟨k, hk, hg⟩
      · exact .inl (congrArg (·.state.reviewDecisions) hg)
      · cases a with
        | recordDecision req => exact .inr ⟨req, k, rfl, hk, hg⟩
        | recordPreparer preparedBy required source => exact .inl hg
        | approveGate gate humanId source => exact .inl hg
        | retryPhase phase humanId source => exact .inl hg
        | returnForRework phase humanId notes source => exact .inl hg
        | overrideQaRejection phase humanId reason source => exact .inl hg
  | beginPhase1 =>
      left
      rcases exec_beginPhase1 f with ⟨-, h⟩ | ⟨_, _, h⟩
      · rw [show step rt f ⟨env, .beginPhase1⟩ = beginPhase1.exec f from rfl, h]
        rfl
      · rw [show step rt f ⟨env, .beginPhase1⟩ = beginPhase1.exec f from rfl, h]
  | generate q =>
      left
      rcases @generate_cases rt env f _ ((generate rt env q).exec f).1 q rfl with ⟨e, -, h⟩ | ⟨-, ks, -, hframe, -⟩
      · exact congrArg (·.state.reviewDecisions) h
      · exact hframe.decisions

/-- A call appends at most one decision, and only `record_decision` does. -/
theorem decision_step (f : AuditFlow) (c : Call) :
    (step rt f c).2.state.reviewDecisions = f.state.reviewDecisions ∨
      ∃ d, RecordedAt rt (LabelledRun.transition (step rt) f c) d := by
  rcases @decision_appended rt f c with hsame | ⟨req, d, hop, hd, happ⟩
  · exact .inl hsame
  · exact .inr ⟨d, ⟨req, hop⟩, Decisions.buildDecision_eq_ok hd, happ⟩

/-! ## Fresh ids -/

/-- No two calls of a run draw the same uuid. -/
def FreshIds (calls : List Call) : Prop := (calls.map (·.env.uuid)).Nodup

instance (calls : List Call) : Decidable (FreshIds calls) :=
  inferInstanceAs (Decidable (List.Nodup _))

/-- The decisions of a flow after some steps: a log, each decision recorded by one of the steps. -/
structure DecisionHistory (rt : Runtime)
    (past : List (Transition AuditFlow Call (Except Exn Unit))) (f : AuditFlow) : Prop where
  log : DecisionLog f.state.reviewDecisions
  recorded : ∀ d ∈ f.state.reviewDecisions, ∃ t ∈ past, RecordedAt rt t d

theorem decisionLog_nil : DecisionLog [] where
  wellFormed := .nil
  subjectType := by simp
  artifact := by simp
  phase := by simp

theorem decisionHistory_step {past : List (Transition AuditFlow Call (Except Exn Unit))}
    (f : AuditFlow) (c : Call) (h : DecisionHistory rt past f)
    (hfresh : ∀ t ∈ past, t.label.env.uuid ≠ c.env.uuid) :
    DecisionHistory rt (past ++ [LabelledRun.transition (step rt) f c]) (step rt f c).2 := by
  rcases @decision_step rt f c with hsame | ⟨d, hd⟩
  · refine ⟨by rw [hsame]; exact h.log, ?_⟩
    intro a ha
    rw [hsame] at ha
    obtain ⟨t, ht, hrec⟩ := h.recorded a ha
    exact ⟨t, List.mem_append_left _ ht, hrec⟩
  · have happ : (step rt f c).2.state.reviewDecisions = f.state.reviewDecisions ++ [d] :=
      hd.appended
    have hnew : ∀ a ∈ f.state.reviewDecisions, a.decisionId ≠ c.env.uuid := by
      intro a ha
      obtain ⟨t, ht, hrec⟩ := h.recorded a ha
      rw [hrec.built.id]
      exact hfresh t ht
    refine ⟨by rw [happ]; exact h.log.append hd.built hnew, ?_⟩
    intro a ha
    rw [happ] at ha
    rcases List.mem_append.mp ha with ha | ha
    · obtain ⟨t, ht, hrec⟩ := h.recorded a ha
      exact ⟨t, List.mem_append_left _ ht, hrec⟩
    · rw [List.mem_singleton.mp ha]
      exact ⟨_, List.mem_append_right _ List.mem_cons_self, hd⟩

/-- The labels of the steps of a run are its calls. -/
theorem trace_labels (f : AuditFlow) (calls : List Call) :
    (trace rt f calls).map (·.label) = calls := by
  induction calls generalizing f with
  | nil => rfl
  | cons c calls ih => exact congrArg (c :: ·) (ih _)

theorem decisionHistory_run (theme businessContext : Str) (frameworks : List Str)
    (sessionId : Option Str) {calls : List Call} (hfresh : FreshIds calls) :
    DecisionHistory rt (trace rt (.fresh theme businessContext frameworks sessionId) calls)
      (after rt (.fresh theme businessContext frameworks sessionId) calls) := by
  induction calls using List.reverseRecOn with
  | nil => exact ⟨decisionLog_nil, by rintro d ⟨⟩⟩
  | append_singleton calls c ih =>
      unfold FreshIds at hfresh ih
      rw [List.map_append, List.nodup_append] at hfresh
      rw [trace, after, LabelledRun.trace_append, LabelledRun.final_append]
      refine decisionHistory_step _ c (ih hfresh.1) ?_
      intro t ht
      have hlabel : t.label ∈ calls := by
        rw [← @trace_labels rt (.fresh theme businessContext frameworks sessionId) calls]
        exact List.mem_map_of_mem ht
      exact hfresh.2.2 _ (List.mem_map_of_mem hlabel) _ List.mem_cons_self

end AuditFlow

end AuditSwarm
