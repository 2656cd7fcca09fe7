import AuditSwarm.Run.Entries
import AuditSwarm.Trail.Built

/-!
# The decisions a trail records

Each `record_decision` that returns leaves one entry with the digest of its decision, and no other
action leaves such an entry.  So the trail of a run in which no decision fails to be stamped records
the decisions of the flow, each under its id.
-/

namespace AuditSwarm

open Python StrEnum Decisions

namespace Trail

variable {rt : Runtime} {trail : List Entry} {e : StrEntry}

@[simp] theorem fieldIs_toEntry (e : StrEntry) (k t : Str) :
    fieldIs e.toEntry k t = decide (e.get? k = some t) := by
  unfold fieldIs StrEntry.toEntry
  rw [Dict.get?_mapValues]
  cases e.get? k with
  | none => simp
  | some v => simp

@[simp] theorem fieldTruthy_toEntry (e : StrEntry) (k : Str) :
    fieldTruthy e.toEntry k = decide (e.getD k [] ≠ []) := by
  unfold fieldTruthy StrEntry.toEntry Dict.getD
  rw [Dict.get?_mapValues]
  cases e.get? k with
  | none => simp
  | some v => cases v <;> simp [Json.truthy]

theorem recordedDigests_append_other (h : e.get? (lit "action") ≠ some (lit "review_decision")) :
    recordedDigests rt (trail ++ [e.toEntry]) = recordedDigests rt trail := by
  unfold recordedDigests
  rw [List.foldl_append]
  simp [h]

theorem recordedDigests_append_decision {i digest : Str}
    (haction : e.get? (lit "action") = some (lit "review_decision"))
    (hid : e.get? (lit "decision_id") = some i) (hne : i ≠ [])
    (hdigest : e.get? (lit "decision_digest") = some digest) :
    recordedDigests rt (trail ++ [e.toEntry]) = (recordedDigests rt trail).set i digest := by
  unfold recordedDigests
  rw [List.foldl_append]
  simp [haction, Dict.getD, hid, hne, hdigest]

end Trail

namespace AuditFlow

variable {rt : Runtime} {env : Env} {f g : AuditFlow} {r : Except Exn Unit} {d : ReviewDecision}

/-- The trail of a flow records its decisions, each by its digest. -/
structure DecisionsRecorded (rt : Runtime) (f : AuditFlow) : Prop where
  recorded : ∀ i digest,
    (Trail.recordedDigests rt (f.state.approvalTrail.map StrEntry.toEntry)).get? i = some digest ↔
      ∃ d ∈ f.state.reviewDecisions, d.decisionId = i ∧
        Trail.artifactDigest rt d.toJson = .ok digest
  digested : ∀ d ∈ f.state.reviewDecisions, ∃ digest, Trail.artifactDigest rt d.toJson = .ok digest

/-- The entry of a decision holds its id and its digest. -/
theorem entryOf_decision {req : Request} {e : StrEntry}
    (h : EntryOf rt env (.recordDecision req) f d e) :
    ∃ digest, Trail.artifactDigest rt d.toJson = .ok digest ∧
      e.get? (lit "decision_id") = some d.decisionId ∧
      e.get? (lit "decision_digest") = some digest ∧
      e.get? (lit "phase") = some (decimal d.phase) := by
  obtain ⟨x, hx, hget⟩ := h.extra
  have hx' : (do
      let digest ← Trail.artifactDigest rt d.toJson
      return decisionExtra d digest : Except Exn StrEntry) = .ok x := hx
  obtain ⟨digest, hdigest, hextra⟩ := Except.bind_eq_ok_iff.mp hx'
  obtain rfl := Except.pure_eq_ok_iff.mp hextra
  refine ⟨digest, hdigest, ?_, ?_, ?_⟩
  · rw [hget _ (by simp [commonKeys, Trail.hashFields])]
    simp [decisionExtra, Dict.get?]
  · rw [hget _ (by simp [commonKeys, Trail.hashFields])]
    simp [decisionExtra, Dict.get?]
  · rw [hget _ (by simp [commonKeys, Trail.hashFields])]
    simp [decisionExtra, Dict.get?]

theorem DecisionsRecorded.congr (h : DecisionsRecorded rt f)
    (hdecisions : g.state.reviewDecisions = f.state.reviewDecisions)
    (htrail : Trail.recordedDigests rt (g.state.approvalTrail.map StrEntry.toEntry) =
      Trail.recordedDigests rt (f.state.approvalTrail.map StrEntry.toEntry)) :
    DecisionsRecorded rt g := by
  refine ⟨?_, ?_⟩
  · rw [hdecisions, htrail]
    exact h.recorded
  · rw [hdecisions]
    exact h.digested

theorem DecisionsRecorded.record (h : DecisionsRecorded rt f) {req : Request} {e : StrEntry}
    (he : EntryOf rt env (.recordDecision req) f d e) (hne : d.decisionId ≠ [])
    (hnew : ∀ a ∈ f.state.reviewDecisions, a.decisionId ≠ d.decisionId)
    (hdecisions : g.state.reviewDecisions = f.state.reviewDecisions ++ [d])
    (htrail : g.state.approvalTrail = f.state.approvalTrail ++ [e]) : DecisionsRecorded rt g := by
  obtain ⟨digest, hdigest, hid, hdd, -⟩ := entryOf_decision he
  refine ⟨?_, ?_⟩
  · intro i x
    rw [htrail, List.map_append, List.map_singleton,
      Trail.recordedDigests_append_decision he.stamped.action hid hne hdd, Dict.get?_set,
      hdecisions]
    by_cases hi : d.decisionId = i
    · subst hi
      rw [if_pos rfl, Option.some.injEq]
      constructor
      · rintro rfl
        exact ⟨d, List.mem_append_right _ List.mem_cons_self, rfl, hdigest⟩
      · rintro ⟨a, ha, hai, hax⟩
        rcases List.mem_append.mp ha with ha | ha
        · exact absurd hai (hnew a ha)
        · rw [List.mem_singleton.mp ha] at hax
          exact Except.ok.inj (hdigest.symm.trans hax)
    · rw [if_neg hi, h.recorded]
      constructor
      · rintro ⟨a, ha, hax⟩
        exact ⟨a, List.mem_append_left _ ha, hax⟩
      · rintro ⟨a, ha, hai, hax⟩
        rcases List.mem_append.mp ha with ha | ha
        · exact ⟨a, ha, hai, hax⟩
        · rw [List.mem_singleton.mp ha] at hai
          exact absurd hai hi
  · intro a ha
    rw [hdecisions] at ha
    rcases List.mem_append.mp ha with ha | ha
    · exact h.digested a ha
    · rw [List.mem_singleton.mp ha]
      exact ⟨digest, hdigest⟩

/-! ## Over a run -/

/-- The entry of the decision a call records, if it records one, can be computed. -/
def StampsDecision (rt : Runtime) (f : AuditFlow) (c : Call) : Prop :=
  ∀ req, c.op = .record (.recordDecision req) →
    ∀ d, (decisionAction rt c.env req).check f = .ok d →
      ∃ e, ((decisionAction rt c.env req).proc rt c.env).sealOf d
        ((decisionAction rt c.env req).mutate d f) = .ok e

theorem decisionsRecorded_act {a : RecordedAction} (h : act rt env a f = (r, g))
    (hstamps : StampsDecision rt f ⟨env, .record a⟩) (hne : env.uuid ≠ [])
    (hnew : ∀ b ∈ f.state.reviewDecisions, b.decisionId ≠ env.uuid)
    (hf : DecisionsRecorded rt f) : DecisionsRecorded rt g := by
  rcases act_entry h with ⟨err, -, -, rfl⟩ | ⟨k, err, hk, hseal, -, rfl⟩ | ⟨k, e, hk, he, -, rfl⟩
  · exact hf
  · cases a with
    | recordDecision req =>
        obtain ⟨e, he⟩ := hstamps req rfl k hk
        cases he.symm.trans hseal
    | recordPreparer preparedBy required source => exact hf.congr rfl rfl
    | approveGate gate humanId source => exact hf.congr rfl rfl
    | retryPhase phase humanId source => exact hf.congr rfl rfl
    | returnForRework phase humanId notes source => exact hf.congr rfl rfl
    | overrideQaRejection phase humanId reason source => exact hf.congr rfl rfl
  · have htrail := @act_trail rt env f a k e
    have hother : (recorded rt env a).action ≠ lit "review_decision" →
        Trail.recordedDigests rt (((recorded rt env a).conclude k (pushEntry e
          ((recorded rt env a).mutate k f))).state.approvalTrail.map StrEntry.toEntry) =
        Trail.recordedDigests rt (f.state.approvalTrail.map StrEntry.toEntry) := by
      intro haction
      rw [htrail, List.map_append, List.map_singleton]
      refine Trail.recordedDigests_append_other ?_
      rw [he.stamped.action]
      simpa using haction
    cases a with
    | recordDecision req =>
        have hbuilt := Decisions.buildDecision_eq_ok hk
        exact hf.record he (hbuilt.id ▸ hne) (hbuilt.id ▸ hnew) rfl htrail
    | recordPreparer preparedBy required source => exact hf.congr rfl (hother (by simp))
    | approveGate gate humanId source => exact hf.congr rfl (hother (by simp))
    | retryPhase phase humanId source => exact hf.congr rfl (hother (by simp))
    | returnForRework phase humanId notes source => exact hf.congr rfl (hother (by simp))
    | overrideQaRejection phase humanId reason source => exact hf.congr rfl (hother (by simp))

theorem decisionsRecorded_step (f : AuditFlow) (c : Call) (hstamps : StampsDecision rt f c)
    (hne : c.env.uuid ≠ []) (hnew : ∀ b ∈ f.state.reviewDecisions, b.decisionId ≠ c.env.uuid)
    (hf : DecisionsRecorded rt f) : DecisionsRecorded rt (step rt f c).2 := by
  obtain ⟨env, op⟩ := c
  cases op with
  | record a => exact decisionsRecorded_act (r := (act rt env a f).1) rfl hstamps hne hnew hf
  | beginPhase1 =>
      rcases exec_beginPhase1 f with ⟨-, h⟩ | ⟨_, _, h⟩
      · rw [show step rt f ⟨env, .beginPhase1⟩ = beginPhase1.exec f from rfl, h]
        exact hf.congr rfl rfl
      · rw [show step rt f ⟨env, .beginPhase1⟩ = beginPhase1.exec f from rfl, h]
        exact hf
  | generate q =>
      rcases @generate_cases rt env f _ _ q rfl with
        ⟨e, -, h⟩ | ⟨-, ks, -, hframe, -⟩
      · rw [show (step rt f ⟨env, .generate q⟩).2 = f from h]
        exact hf
      · exact hf.congr hframe.decisions (congrArg (fun T => Trail.recordedDigests rt
          (T.map StrEntry.toEntry)) hframe.trail)

/-- The uuids of the calls of a run name their decisions: none is empty. -/
def NamedIds (calls : List Call) : Prop := ∀ c ∈ calls, c.env.uuid ≠ []

instance (calls : List Call) : Decidable (NamedIds calls) :=
  inferInstanceAs (Decidable (∀ c ∈ calls, c.env.uuid ≠ []))

theorem decisionsRecorded_run (theme businessContext : Str) (frameworks : List Str)
    (sessionId : Option Str) {calls : List Call} (hfresh : FreshIds calls)
    (hnamed : NamedIds calls)
    (hstamps : ∀ t ∈ trace rt (.fresh theme businessContext frameworks sessionId) calls,
      StampsDecision rt t.before t.label) :
    DecisionsRecorded rt (after rt (.fresh theme businessContext frameworks sessionId) calls) := by
  induction calls using List.reverseRecOn with
  | nil => exact ⟨by simp [AuditFlow.fresh, AuditState.fresh, Trail.recordedDigests],
      by simp [AuditFlow.fresh, AuditState.fresh]⟩
  | append_singleton calls c ih =>
      unfold FreshIds at hfresh ih
      rw [List.map_append, List.nodup_append] at hfresh
      rw [trace, LabelledRun.trace_append] at hstamps
      rw [after, LabelledRun.final_append]
      have hbefore := ih hfresh.1 (fun x hx => hnamed x (List.mem_append_left _ hx))
        fun t ht => hstamps t (List.mem_append_left _ ht)
      refine decisionsRecorded_step _ c ?_ (hnamed c (by simp)) ?_ hbefore
      · exact hstamps _ (List.mem_append_right _ List.mem_cons_self)
      · intro b hb
        obtain ⟨t, ht, hrec⟩ := ((@decisionHistory_run rt) theme businessContext frameworks
          sessionId hfresh.1).recorded b hb
        have hlabel : t.label ∈ calls := by
          rw [← @trace_labels rt (.fresh theme businessContext frameworks sessionId) calls]
          exact List.mem_map_of_mem ht
        rw [hrec.built.id]
        exact hfresh.2.2 _ (List.mem_map_of_mem hlabel) _ List.mem_cons_self

end AuditFlow

end AuditSwarm
