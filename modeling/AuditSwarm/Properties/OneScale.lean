import AuditSwarm.Decisions.Gates
import AuditSwarm.Decisions.Scale
import AuditSwarm.Run.Decisions
import AuditSwarm.Trail.Built

/-!
# One deficiency scale of record

A report with a scale keeps every classification on it.  A report without one checks nothing, so
the reviewer's classifications lie on one scale only while each new one fits the others.
-/

namespace AuditSwarm

open Python StrEnum Decisions

namespace AuditFlow

variable {rt : Runtime} {f g : AuditFlow} {d : ReviewDecision}

/-- A classification `record_decision` accepts on a report without a scale fits those that are
active. -/
def FitsScale (rt : Runtime) (f : AuditFlow) (c : Call) : Prop :=
  ∀ req d, c.op = .record (.recordDecision req) →
    Decisions.buildDecision rt f.decisionContext f.machine.status.value f.preparers
      f.state.reviewDecisions req (c.env.now 0) (c.env.now 1) c.env.uuid = .ok d →
    d.decisionType = .classify → FitsOthers rt f.decisionContext f.state.reviewDecisions req

theorem scaleKept_run (hcf : rt.CollisionFree) (theme businessContext : Str)
    (frameworks : List Str) (sessionId : Option Str) {calls : List Call} (hfresh : FreshIds calls)
    (hfits : ∀ t ∈ trace rt (.fresh theme businessContext frameworks sessionId) calls,
      FitsScale rt t.before t.label) :
    ScaleKept rt
      (after rt (.fresh theme businessContext frameworks sessionId) calls).state.reviewDecisions := by
  induction calls using List.reverseRecOn with
  | nil => exact scaleKept_nil
  | append_singleton calls c ih =>
      unfold FreshIds at hfresh ih
      rw [List.map_append, List.nodup_append] at hfresh
      rw [trace, LabelledRun.trace_append] at hfits
      rw [after, LabelledRun.final_append]
      have hkept := ih hfresh.1 fun t ht => hfits t (List.mem_append_left _ ht)
      have hhistory := @decisionHistory_run rt theme businessContext frameworks sessionId calls
        hfresh.1
      have hfit := hfits _ (List.mem_append_right _ List.mem_cons_self)
      rcases @decision_appended rt (after rt (.fresh theme businessContext frameworks
        sessionId) calls) c with hsame | ⟨req, d, hop, hd, happ⟩
      · change ScaleKept rt (step rt _ c).2.state.reviewDecisions
        rw [hsame]
        exact hkept
      · change ScaleKept rt (step rt _ c).2.state.reviewDecisions
        rw [happ]
        refine hkept.append hcf hhistory.log hd ?_ (hfit req d hop hd)
        intro a ha
        obtain ⟨t, ht, hrec⟩ := hhistory.recorded a ha
        rw [hrec.built.id]
        have hlabel : t.label ∈ calls := by
          rw [← @trace_labels rt (.fresh theme businessContext frameworks sessionId) calls]
          exact List.mem_map_of_mem ht
        exact hfresh.2.2 _ (List.mem_map_of_mem hlabel) _ List.mem_cons_self

/-- The law of one scale, and the rule for a material weakness, of an effective view. -/
structure OneScale (v : EffectiveView) : Prop where
  scale : ∃ s, ∀ d ∈ v.deficiencies, ∃ c ∈ scaleClassifications s,
    d.effective.classification = value c
  materialWeakness : ∀ d ∈ v.deficiencies,
    d.effective.classification = value DeficiencyClassification.materialWeakness →
      d.effective.likelihood ≠ value RiskRating.low ∧ d.effective.magnitude = value RiskRating.high

/-- An effective view of a flow obeys the law while every recorded classification fits. -/
theorem oneScale_view (hcf : rt.CollisionFree) {ctx : Context} {decisions : List ReviewDecision}
    {report : Option ValidReport} (hreport : ctx.report = report.map (·.1))
    (hlog : DecisionLog decisions) (hkept : ScaleKept rt decisions) {required : Bool}
    {v : EffectiveView} (h : Decisions.effectiveView rt ctx decisions required = .ok v) :
    OneScale v := by
  obtain ⟨states, active, hparts⟩ := effectiveView_eq_ok h
  have hdeficiencies := hparts.deficiencies_eq
  unfold deficiencyViews Context.evaluations at hdeficiencies
  cases report with
  | none =>
      rw [hreport] at hdeficiencies
      have hnil : v.deficiencies = [] := (Except.ok.inj hdeficiencies).symm
      constructor
      · exact ⟨.icfr, by simp [hnil]⟩
      · simp [hnil]
  | some report =>
      rw [Option.map_some] at hreport
      rw [hreport] at hdeficiencies
      have hcases : ∀ d ∈ v.deficiencies,
          (∃ e ∈ report.1.deficiencyEvaluations, d.effective =
            ⟨value e.classification, value e.likelihood, value e.magnitude⟩) ∨
          ∃ a c l m, decisionScheme.Standing decisions a ∧ a.decisionType = .classify ∧
            ClassifiedOn rt a report.1 c l m ∧ d.effective = ⟨value c, value l, value m⟩ := by
        intro d hd
        obtain ⟨e, he, hview⟩ := Except.mem_of_mapM_eq_ok hdeficiencies d hd
        rcases effective_cases hcf hlog hkept hreport hparts.active_eq hview with heff | heff
        · exact .inl ⟨e, Dict.mem_of_mem_firstBy he, heff⟩
        · exact .inr heff
      constructor
      · cases hscale : report.1.deficiencyScale with
        | some s =>
            refine ⟨s, ?_⟩
            intro d hd
            rcases hcases d hd with ⟨e, he, heff⟩ | ⟨a, c, l, m, -, -, hon, heff⟩
            · exact ⟨e.classification, onScale_of_valid report.2 hscale e he,
                congrArg (·.classification) heff⟩
            · exact ⟨c, hon.onScale s hscale, congrArg (·.classification) heff⟩
        | none =>
            -- the drafts say "Not a deficiency", which every scale has
            obtain ⟨s, hs⟩ := exists_common_scale
              (p := fun c => ∃ a l m, decisionScheme.Standing decisions a ∧
                a.decisionType = .classify ∧ ClassifiedOn rt a report.1 c l m) (by
                intro c hc c' hc'
                obtain ⟨a, l, m, ha, hta, hona⟩ := hc
                obtain ⟨b, l', m', hb, htb, honb⟩ := hc'
                exact hkept.shared a b ha hb report.1 c l m c' l' m' hona honb hta htb hscale)
            refine ⟨s, ?_⟩
            intro d hd
            rcases hcases d hd with ⟨e, he, heff⟩ | ⟨a, c, l, m, ha, hta, hon, heff⟩
            · refine ⟨.notADeficiency, notADeficiency_mem s, ?_⟩
              rw [heff, notADeficiency_of_valid report.2 hscale e he]
            · exact ⟨c, hs c ⟨a, l, m, ha, hta, hon⟩, congrArg (·.classification) heff⟩
      · intro d hd hweak
        have hrule : ∀ {c : DeficiencyClassification} {l m : RiskRating},
            DeficiencyEvaluationSchema.unsupportedMaterialWeakness c l m = false →
            value c = value DeficiencyClassification.materialWeakness →
            value l ≠ value RiskRating.low ∧ value m = value RiskRating.high := by
          intro c l m hsupported hc
          obtain rfl := value_injective hc
          revert hsupported
          cases l <;> cases m <;> decide
        rcases hcases d hd with ⟨e, he, heff⟩ | ⟨a, c, l, m, -, -, hon, heff⟩
        · rw [heff] at hweak ⊢
          exact hrule (report.2.1 e he).2 hweak
        · rw [heff] at hweak ⊢
          exact hrule hon.supported hweak

/-- One deficiency scale of record: in every run in which each recorded classification fits those
that are active, the effective classifications lie on one scale, and every effective material
weakness is supported. -/
theorem one_scale (rt : Runtime) (hcf : rt.CollisionFree) (theme businessContext : Str)
    (frameworks : List Str) (sessionId : Option Str) (calls : List Call) (hfresh : FreshIds calls)
    (hfits : ∀ t ∈ trace rt (.fresh theme businessContext frameworks sessionId) calls,
      FitsScale rt t.before t.label) :
    let f := after rt (.fresh theme businessContext frameworks sessionId) calls
    ∀ required v,
      Decisions.effectiveView rt f.decisionContext f.state.reviewDecisions required = .ok v →
        OneScale v := by
  intro f required v hv
  have hhistory := (@decisionHistory_run rt) theme businessContext frameworks sessionId hfresh
  have hkept := scaleKept_run hcf theme businessContext frameworks sessionId hfresh hfits
  exact @oneScale_view rt hcf _ _ f.state.finalReport rfl hhistory.log hkept required v hv

/-! ## Runs that meet the condition -/

/-- A request for a classification names one of the scale. -/
def AsksOn (rt : Runtime) (s : DeficiencyScale) (c : Call) : Prop :=
  ∀ req, c.op = .record (.recordDecision req) → ∀ cl l m,
    parseFields rt (req.values.getD []) .classify = some (.classify cl l m) →
      cl ∈ scaleClassifications s

def HoldsOn (s : DeficiencyScale) (f : AuditFlow) : Prop :=
  ∀ d ∈ f.state.reviewDecisions, d.decisionType = .classify →
    ∃ c ∈ scaleClassifications s, d.values.get? (lit "classification") = some (value c)

/-- A call that asks for a classification of the scale records no other. -/
theorem holdsOn_step {s : DeficiencyScale} (f : AuditFlow) (c : Call) (hasks : AsksOn rt s c)
    (h : HoldsOn s f) : HoldsOn s (step rt f c).2 := by
  rcases @decision_appended rt f c with hsame | ⟨req, d, hop, hd, happ⟩
  · unfold HoldsOn
    rw [hsame]
    exact h
  · intro d' hd' htype
    rw [happ, List.mem_append, List.mem_singleton] at hd'
    rcases hd' with hold | rfl
    · exact h d' hold htype
    · rcases buildDecision_classified hd htype with ⟨report, cl, l, m, hclassified⟩
      rcases hclassified.asked with ⟨l', m', hasked⟩
      refine ⟨cl, hasks req hop cl l' m' hasked, ?_⟩
      rw [hclassified.values, Dict.get?_cons, if_pos rfl]

/-- A run that only asks for classifications of one scale meets the condition at each call. -/
theorem fitsScale_of_asksOn {s : DeficiencyScale} {theme businessContext : Str}
    {frameworks : List Str} {sessionId : Option Str} {calls : List Call}
    (hasks : ∀ c ∈ calls, AsksOn rt s c) :
    ∀ t ∈ trace rt (.fresh theme businessContext frameworks sessionId) calls,
      FitsScale rt t.before t.label := by
  have hlabels : ∀ t ∈ trace rt (.fresh theme businessContext frameworks sessionId) calls,
      AsksOn rt s t.label := by
    intro t ht
    apply hasks
    rw [← @trace_labels rt (.fresh theme businessContext frameworks sessionId) calls]
    exact List.mem_map_of_mem ht
  intro t ht
  have hheld : HoldsOn s t.before := by
    refine LabelledRun.invariant_before (step rt) (I := HoldsOn s) (fun f c => holdsOn_step f c)
      hlabels ?_ t ht
    intro d hd
    exact absurd hd List.not_mem_nil
  intro req d hop _ _ report _ _ c l m hparsed active hactive i _ a c' hget hclass
  have hc := hlabels t ht req hop c l m hparsed
  rcases isActive_of_get? hactive hget with ⟨hisActive, hslot⟩
  rcases hheld a hisActive.1 (of_slotKey (t := .classify) hslot).1 with ⟨c'', hc'', hclass'⟩
  rw [hclass, Option.some.injEq] at hclass'
  exact ⟨s, hc, value_injective hclass' ▸ hc''⟩

end AuditFlow

namespace Sample

/-- A report that classifies nothing as a deficiency, so that it has no scale. -/
def unscaledReport : ValidReport :=
  ⟨report none [evaluation "D1" .notADeficiency, evaluation "D2" .notADeficiency],
    by decide +kernel⟩

def emptyPapers : ValidPapers := ⟨papers [], by decide +kernel⟩

/-- A crew that drafts nothing but a report without a scale. -/
def classifyingEnv (uuid : String) : Env := env uuid (crew (racm []) emptyPapers unscaledReport)

def classifying : List Call :=
  [⟨classifyingEnv "u1", .generate .planning⟩,
    ⟨classifyingEnv "u2", .record (.approveGate .planning (lit "B") (lit "declared"))⟩,
    ⟨classifyingEnv "u3", .generate .fieldwork⟩,
    ⟨classifyingEnv "u4", .record (.approveGate .fieldwork (lit "B") (lit "declared"))⟩,
    ⟨classifyingEnv "u5", .generate .reporting⟩]

def icfrRequests : List (Env × Request) :=
  [(classifyingEnv "u6", request "classify" "D1" "C"
      [(lit "classification", .str (lit "Control Deficiency"))]),
    (classifyingEnv "u7", request "classify" "D2" "C"
      [(lit "classification", .str (lit "Material Weakness")),
        (lit "magnitude", .str (lit "High"))])]

def recording (requests : List (Env × Request)) : List Call :=
  requests.map fun r => ⟨r.1, .record (.recordDecision r.2)⟩

def classifyingContext : Context where
  racm := some (racm [])
  papers := some (papers [])
  report := some unscaledReport.1

/-- The decisions that some requests add up to at the last gate of that audit. -/
def decided (decisions : List ReviewDecision) :
    List (Env × Request) → Except Exn (List ReviewDecision)
  | [] => .ok decisions
  | (env, req) :: requests => do
      let d ← buildDecision transparent classifyingContext
        (AuditStatus.waitingHumanGate .reporting).value [[]] decisions req (env.now 0) (env.now 1)
        env.uuid
      decided (decisions ++ [d]) requests

end Sample

namespace AuditFlow

/-- An audit at the last gate of `Sample.classifying`, with some decisions. -/
structure Classifying (f : AuditFlow) (decisions : List ReviewDecision) : Prop where
  status : f.machine.status = .waitingHumanGate .reporting
  preparers : f.preparers = [[]]
  context : f.decisionContext = Sample.classifyingContext
  decisions : f.state.reviewDecisions = decisions

theorem classifying_after : Classifying
    (after Sample.transparent (.fresh (lit "Access") (lit "A bank") [] none) Sample.classifying)
    [] := by
  generalize hf : after Sample.transparent (.fresh (lit "Access") (lit "A bank") [] none)
    Sample.classifying = f
  have h : f.machine.status = .waitingHumanGate .reporting ∧ f.preparers = [[]] ∧
      f.decisionContext.racm = Sample.classifyingContext.racm ∧
      f.decisionContext.papers = Sample.classifyingContext.papers ∧
      f.decisionContext.report = Sample.classifyingContext.report ∧
      f.state.reviewDecisions = [] := by
    rw [← hf]
    decide +kernel
  rcases h with ⟨hstatus, hpreparers, hracm, hpapers, hreport, hdecisions⟩
  refine ⟨hstatus, hpreparers, ?_, hdecisions⟩
  cases hctx : f.decisionContext with
  | mk racm papers report =>
      rw [hctx] at hracm hpapers hreport
      dsimp only at hracm hpapers hreport
      rw [hracm, hpapers, hreport]

theorem preparers_pushEntry {f : AuditFlow} {e : StrEntry}
    (h : e.get? (lit "action") ≠ some (lit "audit_created")) :
    (pushEntry e f).preparers = f.preparers := by
  have hfilter : (f.state.approvalTrail ++ [e]).filter (fun e => decide
      (e.get? (lit "action") = some (lit "audit_created"))) =
        f.state.approvalTrail.filter (fun e => decide
          (e.get? (lit "action") = some (lit "audit_created"))) := by
    simp [h]
  unfold preparers pushEntry
  dsimp only
  rw [hfilter]

theorem Classifying.record {f : AuditFlow} {decisions : List ReviewDecision} {env : Env}
    {req : Request} {d : ReviewDecision} (h : Classifying f decisions)
    (hd : buildDecision Sample.transparent Sample.classifyingContext
      (AuditStatus.waitingHumanGate .reporting).value [[]] decisions req (env.now 0) (env.now 1)
      env.uuid = .ok d) :
    Classifying (step Sample.transparent f ⟨env, .record (.recordDecision req)⟩).2
      (decisions ++ [d]) := by
  have hcheck : (recorded Sample.transparent env (.recordDecision req)).check f = .ok d := by
    change buildDecision Sample.transparent f.decisionContext f.machine.status.value f.preparers
      f.state.reviewDecisions req (env.now 0) (env.now 1) env.uuid = .ok d
    rw [h.context, h.status, h.preparers, h.decisions]
    exact hd
  cases hact : act Sample.transparent env (.recordDecision req) f with
  | mk r g =>
      have hstep : (step Sample.transparent f ⟨env, .record (.recordDecision req)⟩).2 = g :=
        congrArg Prod.snd hact
      rw [hstep]
      rcases act_cases hact with ⟨err, herr, -, -⟩ | ⟨k, c, hk, -, rfl⟩ | ⟨k, e, hk, hst, -, rfl⟩
      · cases herr.symm.trans hcheck
      · cases hk.symm.trans hcheck
        exact ⟨h.status, h.preparers, h.context, congrArg (· ++ [d]) h.decisions⟩
      · cases hk.symm.trans hcheck
        refine ⟨h.status, ?_, h.context, congrArg (· ++ [d]) h.decisions⟩
        refine (preparers_pushEntry ?_).trans h.preparers
        rw [hst.action]
        show some (lit "review_decision") ≠ some (lit "audit_created")
        decide

theorem Classifying.recording {f : AuditFlow} {decisions decisions' : List ReviewDecision}
    {requests : List (Env × Request)} (h : Classifying f decisions)
    (hdecided : Sample.decided decisions requests = .ok decisions') :
    Classifying (after Sample.transparent f (Sample.recording requests)) decisions' := by
  induction requests generalizing f decisions with
  | nil =>
      cases hdecided
      exact h
  | cons r requests ih =>
      unfold Sample.decided at hdecided
      rw [Except.bind_eq_ok_iff] at hdecided
      rcases hdecided with ⟨d, hd, hrest⟩
      exact ih (h.record hd) hrest

theorem classified_icfr :
    let f := after Sample.transparent (.fresh (lit "Access") (lit "A bank") [] none)
      (Sample.classifying ++ Sample.recording Sample.icfrRequests)
    ∃ v, Decisions.effectiveView Sample.transparent f.decisionContext f.state.reviewDecisions
        true = .ok v ∧
      v.deficiencies.map (·.effective.classification) =
        [value DeficiencyClassification.controlDeficiency,
          value DeficiencyClassification.materialWeakness] := by
  intro f
  have hview : ((Sample.decided [] Sample.icfrRequests).bind fun decisions =>
      (Decisions.effectiveView Sample.transparent Sample.classifyingContext decisions true).map
        fun v => v.deficiencies.map (·.effective.classification)) =
      .ok [value DeficiencyClassification.controlDeficiency,
        value DeficiencyClassification.materialWeakness] := by
    decide +kernel
  rcases Except.bind_eq_ok_iff.mp hview with ⟨decisions, hdecided, hmap⟩
  rcases Except.map_eq_ok_iff.mp hmap with ⟨v, hv, hclassifications⟩
  have hend : Classifying f decisions := by
    have hrecorded := classifying_after.recording hdecided
    rw [after, ← LabelledRun.final_append] at hrecorded
    exact hrecorded
  refine ⟨v, ?_, hclassifications⟩
  rw [hend.context, hend.decisions]
  exact hv

/-- Each call of that audit asks for a classification of the ICFR scale. -/
theorem asksOn_icfr : ∀ c ∈ Sample.classifying ++ Sample.recording Sample.icfrRequests,
    AsksOn Sample.transparent .icfr c := by
  intro c hc req hop cl l m hparsed
  simp only [Sample.classifying, Sample.recording, Sample.icfrRequests, List.map_cons, List.map_nil,
    List.cons_append, List.nil_append, List.mem_cons, List.not_mem_nil, or_false] at hc
  rcases hc with rfl | rfl | rfl | rfl | rfl | rfl | rfl <;> cases hop
  · have h : parseFields Sample.transparent
        [(lit "classification", .str (lit "Control Deficiency"))] .classify =
          some (.classify .controlDeficiency none none) := by rfl
    cases h.symm.trans hparsed
    decide
  · have h : parseFields Sample.transparent
        [(lit "classification", .str (lit "Material Weakness")),
          (lit "magnitude", .str (lit "High"))] .classify =
          some (.classify .materialWeakness none (some .high)) := by rfl
    cases h.symm.trans hparsed
    decide

/-- The law on an audit whose two deficiencies are classified on one scale. -/
theorem one_scale_classified :
    let f := after Sample.transparent (.fresh (lit "Access") (lit "A bank") [] none)
      (Sample.classifying ++ Sample.recording Sample.icfrRequests)
    (∃ v, Decisions.effectiveView Sample.transparent f.decisionContext f.state.reviewDecisions
        true = .ok v ∧
      v.deficiencies.map (·.effective.classification) =
        [value DeficiencyClassification.controlDeficiency,
          value DeficiencyClassification.materialWeakness]) ∧
    ∀ required v,
      Decisions.effectiveView Sample.transparent f.decisionContext f.state.reviewDecisions required =
        .ok v → OneScale v :=
  ⟨classified_icfr, one_scale Sample.transparent Runtime.collisionFree_transparent (lit "Access")
    (lit "A bank") [] none (Sample.classifying ++ Sample.recording Sample.icfrRequests)
    (by decide +kernel) (fitsScale_of_asksOn asksOn_icfr)⟩

end AuditFlow
namespace Sample

def unscaledEnv (uuid : String) : Env := env uuid (crew smallRacm smallPapers unscaledReport)

/-- An audit whose reviewer classifies one deficiency on each scale. -/
def mixed : List Call :=
  [⟨unscaledEnv "u1", .generate .planning⟩,
    ⟨unscaledEnv "u2", .record (.approveGate .planning (lit "B") (lit "declared"))⟩,
    ⟨unscaledEnv "u3", .generate .fieldwork⟩,
    ⟨unscaledEnv "u4", .record (.approveGate .fieldwork (lit "B") (lit "declared"))⟩,
    ⟨unscaledEnv "u5", .generate .reporting⟩,
    ⟨unscaledEnv "u6", .record (.recordDecision (request "classify" "D1" "C"
      [(lit "classification", .str (lit "Control Deficiency"))]))⟩,
    ⟨unscaledEnv "u7", .record (.recordDecision (request "classify" "D2" "C"
      [(lit "classification", .str (lit "High"))]))⟩]

end Sample

namespace AuditFlow

/-- A report without a scale takes one classification on each. -/
theorem classifications_mix :
    let f := after Sample.rt (.fresh (lit "Access") (lit "A bank") [] none) Sample.mixed
    ∃ v, Decisions.effectiveView Sample.rt f.decisionContext f.state.reviewDecisions true = .ok v ∧
      ¬ OneScale v := by
  intro f
  have hmixed : (Decisions.effectiveView Sample.rt f.decisionContext f.state.reviewDecisions
      true).map (fun v => v.deficiencies.map (·.effective.classification)) =
        .ok [value DeficiencyClassification.controlDeficiency,
          value DeficiencyClassification.high] := by
    decide +kernel
  obtain ⟨v, hv, hclassifications⟩ := Except.map_eq_ok_iff.mp hmixed
  refine ⟨v, hv, ?_⟩
  intro h
  obtain ⟨s, hs⟩ := h.scale
  have hon : ∀ c : DeficiencyClassification,
      value c ∈ v.deficiencies.map (·.effective.classification) → c ∈ scaleClassifications s := by
    intro c hc
    obtain ⟨d, hd, heff⟩ := List.mem_map.mp hc
    obtain ⟨c', hc', heff'⟩ := hs d hd
    exact value_injective (heff.symm.trans heff') ▸ hc'
  rw [hclassifications] at hon
  have hicfr := hon .controlDeficiency (by simp)
  have hrisk := hon .high (by simp)
  revert hicfr hrisk
  cases s <;> decide

end AuditFlow

end AuditSwarm
