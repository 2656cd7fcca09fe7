import AuditSwarm.Decisions.Readable
import AuditSwarm.Persist.SnapshotDetail
import AuditSwarm.Run.Lives

/-!
# A session is shown as it is

What the API shows of a session is taken from its flow when that is in memory, and otherwise put
together again from what is stored.  The two agree for every flow that calls and restarts lead to.
-/

namespace AuditSwarm

open Python Json StrEnum

namespace AuditFlow

variable {rt : Runtime} {co : Coercions} {f : AuditFlow}

/-! ## The view of a flow -/

def ReadableDecisions (f : AuditFlow) : Prop :=
  ∀ d ∈ f.state.reviewDecisions, Decisions.Readable d

theorem readable_step (c : Call) (hf : f.ReadableDecisions) :
    (step rt f c).2.ReadableDecisions := by
  intro d hd
  rcases @decision_appended rt f c with hsame | ⟨req, d', -, hbuilt, happended⟩
  · rw [hsame] at hd
    exact hf d hd
  · rw [happended] at hd
    rcases List.mem_append.mp hd with hd | hd
    · exact hf d hd
    · rw [List.mem_singleton.mp hd]
      exact Decisions.buildDecision_readable hbuilt

theorem readable_lifeStep (hrt : LowersAscii rt) (e : LifeEvent)
    (hf : f.Storable ∧ f.ReadableDecisions) :
    (lifeStep rt co f e).2.Storable ∧ (lifeStep rt co f e).2.ReadableDecisions := by
  refine ⟨storable_lifeStep hrt e hf.1, ?_⟩
  cases e with
  | call c => exact readable_step c hf.2
  | restart env sessions id =>
      show (restarted rt co env sessions id f).ReadableDecisions
      rcases @restarted_cases rt co env _ hrt hf.1 sessions id with h | h
      · rw [h]
        exact hf.2
      · rw [h]
        unfold ReadableDecisions
        rw [reloaded_state]
        exact hf.2

theorem readable_afterLife (hrt : LowersAscii rt) (events : List LifeEvent)
    (hf : f.Storable ∧ f.ReadableDecisions) :
    (afterLife rt co f events).Storable ∧ (afterLife rt co f events).ReadableDecisions :=
  LabelledRun.invariant' (lifeStep rt co)
    (I := fun f => f.Storable ∧ f.ReadableDecisions)
    (fun _ e hg => readable_lifeStep hrt e hg) events hf

theorem readable_fresh (theme businessContext : Str) (frameworks : List Str)
    (sessionId : Option Str) :
    (fresh theme businessContext frameworks sessionId).Storable ∧
      (fresh theme businessContext frameworks sessionId).ReadableDecisions :=
  ⟨storable_fresh theme businessContext frameworks sessionId, fun _ hd => by cases hd⟩

/-- The effective view can be built of every flow that calls and restarts lead to, unless the digest
of one of its artifacts is not computed: no decision that was recorded keeps it from being shown. -/
theorem view_is_built (rt : Runtime) (co : Coercions) (hrt : LowersAscii rt)
    (theme businessContext : Str) (frameworks : List Str) (sessionId : Option Str)
    (events : List LifeEvent) :
    let f := afterLife rt co (.fresh theme businessContext frameworks sessionId) events
    (∃ v, f.effectiveView rt = .ok v) ↔ ∃ digests, f.decisionContext.digests rt = .ok digests := by
  intro f
  have hf := @readable_afterLife rt co _ hrt events
    (readable_fresh theme businessContext frameworks sessionId)
  constructor
  · rintro ⟨v, hv⟩
    rcases Decisions.effectiveView_eq_ok hv with ⟨states, active, hparts⟩
    rcases Except.bind_eq_ok_iff.mp hparts.states_eq with ⟨digests, hdigests, -⟩
    exact ⟨digests, hdigests⟩
  · rintro ⟨digests, hdigests⟩
    rcases Decisions.exists_view hf.2 hdigests f.reviewDecisionsRequired with ⟨states, v, -, hv⟩
    exact ⟨v, hv⟩

end AuditFlow

namespace Sample

def verified : List AuditFlow.LifeEvent := (completed ++ [verification]).map .call

end Sample

namespace AuditFlow

theorem view_is_built_verified :
    let f := afterLife Sample.rt Sample.coercions (.fresh (lit "Access") (lit "A bank") [] none)
      Sample.verified
    (∃ v, f.effectiveView Sample.rt = .ok v) ↔
      ∃ digests, f.decisionContext.digests Sample.rt = .ok digests :=
  view_is_built Sample.rt Sample.coercions (lowersAscii_ascii _) (lit "Access") (lit "A bank") []
    none Sample.verified

end AuditFlow

namespace SessionRoutes

variable {rt : Runtime} {co : Coercions} {f : AuditFlow} {data : Dict Str Json}

/-! ## From memory and from disk -/

theorem exists_flowReview {digests : Dict Str (Option Str)} (hf : f.ReadableDecisions)
    (hdigests : f.decisionContext.digests rt = .ok digests) :
    ∃ records view, flowReview rt f = .ok (records, view) := by
  rcases Decisions.exists_view hf hdigests f.reviewDecisionsRequired with
    ⟨states, view, hstates, hview⟩
  have hstates' : f.flowDecisionStates rt = .ok states := hstates
  have hview' : f.effectiveView rt = .ok view := hview
  unfold flowReview
  rw [hstates', Except.ok_bind, hview']
  exact ⟨_, _, rfl⟩

/-- The detail of a saved flow is that of the flow. -/
theorem ofSnapshot_saved (hrt : LowersAscii rt) (hf : f.Storable) (hreadable : f.ReadableDecisions)
    {digests : Dict Str (Option Str)} (hdigests : f.decisionContext.digests rt = .ok digests)
    (hdata : data.get? (lit "state_snapshot") = some (.obj (f.state.snapshot co)))
    (environ : Environ) (anchor : Trail.Anchor) (id : Str) :
    ofSnapshot rt co environ anchor id data = ofFlow rt environ anchor id data f := by
  rcases exists_flowReview hreadable hdigests with ⟨records, view, hreview⟩
  have hsnapshot : ∀ default : Json,
      data.getD (lit "state_snapshot") default = .obj (f.state.snapshot co) := by
    intro default
    unfold Dict.getD
    rw [hdata]
    rfl
  have hgetting : getting (.obj (f.state.snapshot co)) = .ok (f.state.snapshot co) := rfl
  have hstatus : responseField rt readStr ((f.state.snapshot co).getD (lit "status")
      (.str (lit "WAITING_FOR_SCOPE"))) = .ok f.state.status := rfl
  have htheme : responseField rt readStr ((f.state.snapshot co).getD (lit "theme") (.str [])) =
      .ok f.state.theme := rfl
  have hcontext : responseField rt readStr ((f.state.snapshot co).getD (lit "business_context")
      (.str [])) = .ok f.state.businessContext := rfl
  have hframeworks : responseField rt readStrs ((f.state.snapshot co).getD (lit "frameworks")
      (.arr [])) = .ok f.state.frameworks := by
    show Except.orRaise (readStrs (dumpStrs f.state.frameworks)) _ = _
    rw [(reads_strs f.state.frameworks).self]
    rfl
  have hdossier : responseField rt readStr ((f.state.snapshot co).getD
      (lit "current_human_dossier") (.str [])) = .ok f.state.currentHumanDossier := rfl
  have htrail : responseField rt readTrail ((f.state.snapshot co).getD (lit "approval_trail")
      (.arr [])) = .ok f.state.approvalTrail := by
    show Except.orRaise (readTrail (dumpTrail f.state.approvalTrail)) _ = _
    rw [readsBack_trail f.state.approvalTrail]
    rfl
  have hreason : responseField rt readOptStr ((f.state.snapshot co).getD
      (lit "qa_rejection_reason") .null) = .ok f.state.qaRejectionReason := by
    show Except.orRaise (readOptStr (dumpOptStr f.state.qaRejectionReason)) _ = _
    rw [(reads_optStr f.state.qaRejectionReason).self]
    rfl
  unfold ofSnapshot ofFlow
  rw [hsnapshot, hgetting, Except.ok_bind, snapshotReview_snapshot hrt hf hreview, Except.ok_bind,
    hreview, Except.ok_bind]
  dsimp only
  rw [preparedBy_snapshot (hsnapshot .null), snapshotVerification_snapshot,
    snapshotGenerationRuns_snapshot hf]
  simp only [Except.ok_bind, hstatus, htheme, hcontext, hframeworks, hdossier, htrail, hreason,
    shown_artifact hrt]

theorem ofFlow_congr {g : AuditFlow} {ids : List Str}
    (h : g.state = { f.state with activeSkillIds := ids }) (environ : Environ)
    (anchor : Trail.Anchor) (id : Str) :
    ofFlow rt environ anchor id data g = ofFlow rt environ anchor id data f := by
  cases g with
  | mk state machine skills sessionId kickoffs =>
      dsimp only at h
      subst h
      rfl

theorem buildSummary_congr {g : AuditFlow} {ids : List Str}
    (h : g.state = { f.state with activeSkillIds := ids }) (id : Str) :
    buildSummary rt id data (some g) = buildSummary rt id data (some f) := by
  cases g with
  | mk state machine skills sessionId kickoffs =>
      dsimp only at h
      subst h
      rfl

theorem buildSummary_saved (hdata : data.get? (lit "state_snapshot") =
      some (.obj (f.state.snapshot co)))
    (hstatus : data.get? (lit "status") = some (.str f.state.status)) (id : Str) :
    buildSummary rt id data none = buildSummary rt id data (some f) := by
  have hsnapshot : data.getD (lit "state_snapshot") .null = .obj (f.state.snapshot co) := by
    unfold Dict.getD
    rw [hdata]
    rfl
  have hread : responseField rt readStr (data.getD (lit "status")
      (.str (lit "WAITING_FOR_SCOPE"))) = .ok f.state.status := by
    unfold Dict.getD
    rw [hstatus]
    rfl
  unfold buildSummary
  rw [preparedBy_snapshot hsnapshot]
  dsimp only
  rw [hread]
  rfl

theorem saved_fields {sessions saved : Sessions} {id : Str}
    (hsave : FlowRepository.save co sessions id f = some saved) :
    (saved.getD id []).get? (lit "state_snapshot") = some (.obj (f.state.snapshot co)) ∧
      (saved.getD id []).get? (lit "status") = some (.str f.state.status) := by
  rcases Option.map_eq_some_iff.mp hsave with ⟨entry, -, rfl⟩
  have hentry : (sessions.set id (entry.update (FlowRepository.sessionFields co f.state))).getD
      id [] = entry.update (FlowRepository.sessionFields co f.state) := by
    unfold Dict.getD
    rw [Dict.get?_set_self]
    rfl
  rw [hentry]
  refine ⟨Dict.get?_set_self _ _ _, ?_⟩
  show ((((entry.set _ _).set _ _).set (lit "status") _).set (lit "state_snapshot") _).get? _ = _
  rw [Dict.get?_set_of_ne _ _ (by decide), Dict.get?_set_self]

/-- A session is shown as it is: for every flow that calls and restarts lead to and that is saved,
what the API shows of the session while the flow is in memory, what it shows of what is stored, and
what it shows once the flow is loaded again are the same, in the detail and in the summary. -/
theorem shown_alike (rt : Runtime) (co : Coercions) (hrt : LowersAscii rt)
    (theme businessContext : Str) (frameworks : List Str) (sessionId : Option Str)
    (events : List AuditFlow.LifeEvent) {digests : Dict Str (Option Str)}
    (hdigests : (AuditFlow.afterLife rt co (.fresh theme businessContext frameworks sessionId)
      events).decisionContext.digests rt = .ok digests)
    {sessions saved : Sessions} {id : Str}
    (hsave : FlowRepository.save co sessions id (AuditFlow.afterLife rt co
      (.fresh theme businessContext frameworks sessionId) events) = some saved)
    (env : Env) (environ : Environ) (anchor : Trail.Anchor) :
    let f := AuditFlow.afterLife rt co (.fresh theme businessContext frameworks sessionId) events
    let data := saved.getD id []
    ∃ loaded : LoadResult, FlowRepository.load rt co env saved id = .ok (some loaded) ∧
      ∀ flow ∈ [f, loaded.flow],
        buildDetail rt co environ anchor id data (some flow) =
          buildDetail rt co environ anchor id data none ∧
        buildSummary rt id data (some flow) = buildSummary rt id data none := by
  intro f data
  have hf := @AuditFlow.readable_afterLife rt co _ hrt events
    (AuditFlow.readable_fresh theme businessContext frameworks sessionId)
  rcases saved_fields hsave with ⟨hdata, hstatus⟩
  have hdetail := ofSnapshot_saved hrt hf.1 hf.2 hdigests hdata environ anchor id
  have hsummary := @buildSummary_saved rt co f data hdata hstatus id
  refine ⟨⟨f.reloaded env id, []⟩, load_save hrt hf.1 hsave, ?_⟩
  intro flow hflow
  have hstate : ∃ ids, flow.state = { f.state with activeSkillIds := ids } := by
    rcases List.mem_cons.mp hflow with rfl | hflow
    · exact ⟨f.state.activeSkillIds, rfl⟩
    · rw [List.mem_singleton.mp hflow]
      exact ⟨_, AuditFlow.reloaded_state env id f⟩
  rcases hstate with ⟨ids, hstate⟩
  constructor
  · exact (ofFlow_congr hstate environ anchor id).trans hdetail.symm
  · exact (buildSummary_congr hstate id).trans hsummary.symm

/-- The completed audit is shown alike. -/
theorem shown_alike_verified :
    let f := AuditFlow.afterLife Sample.rt Sample.coercions
      (.fresh (lit "Access") (lit "A bank") [] none) Sample.verified
    let data := (Sample.savedSession f).getD (lit "s1") []
    ∃ loaded : LoadResult, FlowRepository.load Sample.rt Sample.coercions Sample.skilledEnv
        (Sample.savedSession f) (lit "s1") = .ok (some loaded) ∧
      ∀ flow ∈ [f, loaded.flow],
        buildDetail Sample.rt Sample.coercions (fun _ => none) none (lit "s1") data (some flow) =
          buildDetail Sample.rt Sample.coercions (fun _ => none) none (lit "s1") data none ∧
        buildSummary Sample.rt (lit "s1") data (some flow) =
          buildSummary Sample.rt (lit "s1") data none := by
  have hok : ((AuditFlow.afterLife Sample.rt Sample.coercions
      (.fresh (lit "Access") (lit "A bank") [] none) Sample.verified).decisionContext.digests
        Sample.rt).toOption.isSome = true := by decide +kernel
  rcases Option.isSome_iff_exists.mp hok with ⟨digests, hdigests⟩
  exact shown_alike Sample.rt Sample.coercions (lowersAscii_ascii _) (lit "Access") (lit "A bank")
    [] none Sample.verified (toOption_eq_some_iff.mp hdigests)
    (Sample.save_session _) Sample.skilledEnv (fun _ => none) none

end SessionRoutes

end AuditSwarm
