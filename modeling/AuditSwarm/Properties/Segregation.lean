import AuditSwarm.Decisions.Build
import AuditSwarm.Properties.GateOrder

/-!
# Segregation of duties

The identity recorded as the preparer of an audit stays excluded from the reviewing actions and
decisions over every later run, whatever is done to the stored preparer afterwards: the rule reads
the `audit_created` entry of the trail as well.
-/

namespace AuditSwarm

open Python StrEnum

namespace AuditFlow

/-- A call of the flow, or a change of the stored preparer behind its back. -/
inductive Event where
  | call (c : Call)
  | editPreparer (name : Str)

def eventStep (rt : Runtime) (f : AuditFlow) : Event → Except Exn Unit × AuditFlow
  | .call c => step rt f c
  | .editPreparer name => (.ok (), { f with state := { f.state with preparedBy := name } })

abbrev afterEvents (rt : Runtime) (f : AuditFlow) (events : List Event) : AuditFlow :=
  LabelledRun.final (eventStep rt) f events

/-- No event of a run raises because a trail digest cannot be computed. -/
def EventDigestsSucceed (rt : Runtime) (f : AuditFlow) (events : List Event) : Prop :=
  ∀ t ∈ LabelledRun.trace (eventStep rt) f events, ∀ c, t.result ≠ .error (.digest c)

instance (rt : Runtime) (f : AuditFlow) (events : List Event) :
    Decidable (EventDigestsSucceed rt f events) :=
  decidable_of_iff (∀ t ∈ LabelledRun.trace (eventStep rt) f events, digestFailed t.result = false)
    (forall₂_congr fun _ _ => digestFailed_eq_false_iff)

variable {rt : Runtime} {env : Env} {f g : AuditFlow} {r : Except Exn Unit} {p : Str}

/-! ## Who the preparers are -/

def CreatedBy (p : Str) (f : AuditFlow) : Prop :=
  strip p ≠ [] ∧ ∃ e ∈ f.state.approvalTrail,
    e.get? (lit "action") = some (lit "audit_created") ∧ e.get? (lit "human") = some (strip p)

theorem CreatedBy.mono (h : CreatedBy p f)
    (htrail : f.state.approvalTrail <+: g.state.approvalTrail) : CreatedBy p g := by
  obtain ⟨hne, e, he, haction, hhuman⟩ := h
  exact ⟨hne, e, htrail.subset he, haction, hhuman⟩

/-- Whoever the trail says created the audit is one of its preparers. -/
theorem CreatedBy.mem_preparers (h : CreatedBy p f) : strip p ∈ f.preparers := by
  obtain ⟨hne, e, he, haction, hhuman⟩ := h
  have hmem : strip p ∈ (f.state.preparedBy :: (f.state.approvalTrail.filter fun e =>
      e.get? (lit "action") = some (lit "audit_created")).map fun e =>
        e.getD (lit "human") []).filter (· ≠ []) := by
    rw [List.mem_filter]
    refine ⟨List.mem_cons_of_mem _ (List.mem_map.mpr ⟨e, ?_, ?_⟩), by simpa using hne⟩
    · simp [List.mem_filter, he, haction]
    · simp [Dict.getD, hhuman]
  unfold preparers
  simp only
  rw [if_neg (List.ne_nil_of_mem hmem)]
  exact hmem

theorem checkSod_eq_ok {action humanId : Str} {gate : Option Phase} {u : Unit}
    (h : f.checkSod rt action humanId gate = .ok u) :
    ∀ q ∈ f.preparers,
      Policy.sodViolation rt action humanId (some q) f.state.approvalTrail gate = none := by
  unfold checkSod at h
  rw [Except.raiseSome_eq_ok_iff, Option.map_eq_none_iff] at h
  exact fun q hq => List.findSome?_eq_none_iff.mp h q hq

/-- An action that passes the check is not by whoever created the audit. -/
theorem CreatedBy.not_samePerson (hcreated : CreatedBy p f) {action humanId : Str}
    {gate : Option Phase} {u : Unit} (ha : action ∈ Policy.preparerExcludedActions)
    (h : f.checkSod rt action humanId gate = .ok u) :
    Policy.samePerson rt (some humanId) (some p) = false := by
  have hsod := checkSod_eq_ok h _ hcreated.mem_preparers
  have hsame := Policy.sodViolation_of_preparer ha hsod
  unfold Policy.samePerson at hsame ⊢
  rwa [Policy.normaliseIdentity_strip] at hsame

/-! ## The invariant -/

def IsApprovalOf (gate : Phase) (e : StrEntry) : Prop :=
  e.get? (lit "action") = some (lit "gate_approval") ∧ e.get? (lit "gate") = some gate.gateLabel

/-- Nothing the preparer is excluded from is by `p`, and Gates 2 and 3 have different
approvers. -/
structure Segregated (rt : Runtime) (p : Str) (f : AuditFlow) : Prop where
  actions : ∀ e ∈ f.state.approvalTrail, ∀ action ∈ Policy.preparerExcludedActions,
    e.get? (lit "action") = some action →
      Policy.samePerson rt (e.get? (lit "human")) (some p) = false
  decisions : ∀ d ∈ f.state.reviewDecisions, d.decisionType ∈ Policy.preparerExcludedDecisions →
    Policy.samePerson rt (some d.decidedBy) (some p) = false
  approvers : ∀ e₂ ∈ f.state.approvalTrail, ∀ e₃ ∈ f.state.approvalTrail,
    IsApprovalOf .fieldwork e₂ → IsApprovalOf .reporting e₃ →
      Policy.samePerson rt (e₃.get? (lit "human")) (e₂.get? (lit "human")) = false

/-- What a change of neither the trail nor the decisions keeps. -/
theorem Segregated.congr (h : Segregated rt p f)
    (htrail : g.state.approvalTrail = f.state.approvalTrail)
    (hdecisions : g.state.reviewDecisions = f.state.reviewDecisions) : Segregated rt p g := by
  constructor
  · rw [htrail]
    exact h.actions
  · rw [hdecisions]
    exact h.decisions
  · rw [htrail]
    exact h.approvers

/-- What one more entry that is not a gate approval keeps, when its human may perform it. -/
theorem Segregated.append (h : Segregated rt p f) {e : StrEntry} {gate human action : Str}
    (he : Stamped gate human action e) (hne : action ≠ lit "gate_approval")
    (hhuman : action ∈ Policy.preparerExcludedActions →
      Policy.samePerson rt (some human) (some p) = false)
    (htrail : g.state.approvalTrail = f.state.approvalTrail ++ [e])
    (hdecisions : g.state.reviewDecisions = f.state.reviewDecisions) : Segregated rt p g := by
  have hnot : ∀ q, ¬ IsApprovalOf q e := by
    rintro q ⟨ha, -⟩
    rw [he.action] at ha
    exact hne (Option.some.inj ha)
  constructor
  · rw [htrail]
    intro x hx a ha hxa
    rcases List.mem_append.mp hx with hx | hx
    · exact h.actions x hx a ha hxa
    · obtain rfl := List.mem_singleton.mp hx
      rw [he.action] at hxa
      rw [he.human]
      exact hhuman (Option.some.inj hxa ▸ ha)
  · rw [hdecisions]
    exact h.decisions
  · rw [htrail]
    intro x hx y hy h2 h3
    rcases List.mem_append.mp hx with hx | hx
    · rcases List.mem_append.mp hy with hy | hy
      · exact h.approvers x hx y hy h2 h3
      · exact absurd (List.mem_singleton.mp hy ▸ h3) (hnot _)
    · exact absurd (List.mem_singleton.mp hx ▸ h2) (hnot _)

/-! ## Approving a gate -/

theorem mem_approvedGates {gate : Phase} {e : StrEntry} {trail : List StrEntry} (he : e ∈ trail)
    (h : IsApprovalOf gate e) : some gate.gateLabel ∈ approvedGates trail := by
  refine List.mem_map.mpr ⟨e, ?_, h.2⟩
  simp [isApproval, he, h.1]

theorem nodup_closedGates (s : AuditStatus) :
    (s.closedGates.map fun p => some p.gateLabel).Nodup := by
  refine List.Nodup.map (fun a b h => Phase.gateLabel_injective (Option.some.inj h)) ?_
  rcases s with _ | q | q | q | q | _
  any_goals cases q
  all_goals decide

/-- A gate is approved once, so its approver is the human of its only approval. -/
theorem gateApprover_eq (hf : GateInv f) {gate : Phase} {e : StrEntry}
    (he : e ∈ f.state.approvalTrail) (h : IsApprovalOf gate e) :
    Policy.gateApprover f.state.approvalTrail gate = e.get? (lit "human") := by
  have hnodup : ((f.state.approvalTrail.filter isApproval).map
      fun e => e.get? (lit "gate")).Nodup := by
    have hgates := hf.gates
    unfold approvedGates at hgates
    rw [hgates]
    exact nodup_closedGates _
  have hunique : ∀ x ∈ f.state.approvalTrail, IsApprovalOf gate x → x = e := by
    intro x hx hxa
    refine List.inj_on_of_nodup_map hnodup ?_ ?_ (hxa.2.trans h.2.symm)
    · simp [isApproval, hx, hxa.1]
    · simp [isApproval, he, h.1]
  unfold Policy.gateApprover
  have hmem : e ∈ f.state.approvalTrail.filter fun x =>
      x.get? (lit "action") = some (lit "gate_approval") &&
        x.get? (lit "gate") = some gate.gateLabel := by
    simp [he, h.1, h.2]
  cases hlast : (f.state.approvalTrail.filter fun x =>
      x.get? (lit "action") = some (lit "gate_approval") &&
        x.get? (lit "gate") = some gate.gateLabel).getLast? with
  | none =>
      rw [List.getLast?_eq_none_iff] at hlast
      rw [hlast] at hmem
      cases hmem
  | some x =>
      have hx := List.mem_filter.mp (List.mem_of_getLast? hlast)
      simp only [Bool.and_eq_true, decide_eq_true_eq] at hx
      rw [hunique x hx.1 hx.2, Option.bind_some]

/-- A gate approval that passed its checks is not by `p`, and not by the approver of Gate 2 when
it is the approval of Gate 3. -/
theorem segregated_approve (h : Segregated rt p f) (hf : GateInv f) (hcreated : CreatedBy p f)
    {gate : Phase} {humanId : Str} {plan : ApprovalPlan} {e : StrEntry}
    (hplan : Approvable rt env f gate humanId plan)
    (he : Stamped gate.gateLabel plan.humanId (lit "gate_approval") e)
    (htrail : g.state.approvalTrail = f.state.approvalTrail ++ [e])
    (hdecisions : g.state.reviewDecisions = f.state.reviewDecisions) : Segregated rt p g := by
  have hsod := hplan.sod
  have hgate : ∀ q, IsApprovalOf q e → q = gate := by
    rintro q ⟨-, hq⟩
    rw [he.gate] at hq
    exact (Phase.gateLabel_injective (Option.some.inj hq)).symm
  have hopen : ∀ q, some q.gateLabel ∈ approvedGates f.state.approvalTrail → q ∈ gate.before := by
    intro q hq
    rw [hf.gates, hplan.status] at hq
    obtain ⟨q', hq', heq⟩ := List.mem_map.mp hq
    rwa [← Phase.gateLabel_injective (Option.some.inj heq)]
  constructor
  · rw [htrail]
    intro x hx a ha hxa
    rcases List.mem_append.mp hx with hx | hx
    · exact h.actions x hx a ha hxa
    · obtain rfl := List.mem_singleton.mp hx
      rw [he.human]
      exact hcreated.not_samePerson (by simp [Policy.preparerExcludedActions]) hsod
  · rw [hdecisions]
    exact h.decisions
  · rw [htrail]
    intro x hx y hy h2 h3
    rcases List.mem_append.mp hx with hold₂ | hnew₂ <;>
      rcases List.mem_append.mp hy with hold₃ | hnew₃
    · exact h.approvers x hold₂ y hold₃ h2 h3
    · -- the new entry approves Gate 3
      obtain rfl := List.mem_singleton.mp hnew₃
      obtain rfl := hgate _ h3
      have hdistinct := @Policy.sodViolation_of_approver _ _ _ _ _ .fieldwork
        (by simp [Policy.distinctApproverGates]) (checkSod_eq_ok hsod _ hcreated.mem_preparers)
      rwa [gateApprover_eq hf hold₂ h2, ← he.human] at hdistinct
    · -- the new entry approves Gate 2, so Gate 3 is still open
      obtain rfl := List.mem_singleton.mp hnew₂
      obtain rfl := hgate _ h2
      have hclosed := hopen .reporting (mem_approvedGates hold₃ h3)
      simp [Phase.before] at hclosed
    · obtain rfl := List.mem_singleton.mp hnew₂
      obtain rfl := List.mem_singleton.mp hnew₃
      cases (hgate _ h2).trans (hgate _ h3).symm

theorem Segregated.addDecision (h : Segregated rt p f) {d : ReviewDecision} {e : StrEntry}
    {gate : Str} (hd : d.decisionType ∈ Policy.preparerExcludedDecisions →
      Policy.samePerson rt (some d.decidedBy) (some p) = false)
    (he : Stamped gate d.decidedBy (lit "review_decision") e)
    (htrail : g.state.approvalTrail = f.state.approvalTrail ++ [e])
    (hdecisions : g.state.reviewDecisions = f.state.reviewDecisions ++ [d]) :
    Segregated rt p g := by
  have hmiddle : Segregated rt p { f with state := { f.state with
      approvalTrail := f.state.approvalTrail ++ [e] } } :=
    h.append he (by simp) (by simp [Policy.preparerExcludedActions]) rfl rfl
  constructor
  · rw [htrail]
    exact hmiddle.actions
  · rw [hdecisions]
    intro x hx
    rcases List.mem_append.mp hx with hx | hx
    · exact h.decisions x hx
    · rw [List.mem_singleton.mp hx]
      exact hd
  · rw [htrail]
    exact hmiddle.approvers

theorem segregated_act {a : RecordedAction} (h : act rt env a f = (r, g))
    (hdigest : ∀ c, r ≠ .error (.digest c)) (hf : GateInv f) (hcreated : CreatedBy p f)
    (hs : Segregated rt p f) : Segregated rt p g := by
  rcases act_ok h hdigest with rfl | ⟨k, e, hk, he, rfl⟩
  · exact hs
  cases a with
  | recordPreparer preparedBy required source =>
      exact hs.append he (by simp)
        (by simp [Policy.preparerExcludedActions]) rfl rfl
  | recordDecision req =>
      have hbuilt := Decisions.buildDecision_eq_ok hk
      refine hs.addDecision (d := k) ?_ he rfl rfl
      intro ht
      have hsod := Policy.decisionSodViolation_of_preparer ht
        (hbuilt.sod _ hcreated.mem_preparers)
      unfold Policy.samePerson at hsod ⊢
      rwa [Policy.normaliseIdentity_strip] at hsod
  | approveGate gate humanId source =>
      exact segregated_approve hs hf hcreated (checkApproval_eq_ok hk) he rfl rfl
  | retryPhase phase humanId source =>
      exact hs.append he (by simp)
        (by simp [Policy.preparerExcludedActions]) rfl rfl
  | returnForRework phase humanId notes source =>
      refine hs.append he (by simp) (fun ha => ?_) rfl rfl
      exact hcreated.not_samePerson ha (checkRework_eq_ok hk).sod
  | overrideQaRejection phase humanId reason source =>
      refine hs.append he (by simp) (fun ha => ?_) rfl rfl
      exact hcreated.not_samePerson ha (checkOverride_eq_ok hk).sod

/-! ## Runs -/

/-- What holds from the first call on. -/
structure PreparedBy (rt : Runtime) (p : Str) (f : AuditFlow) : Prop where
  gates : GateInv f
  created : CreatedBy p f
  segregated : Segregated rt p f

theorem decisions_step {c : Call} (h : ∀ a, c.op ≠ .record a) :
    (step rt f c).2.state.reviewDecisions = f.state.reviewDecisions ∧
      (step rt f c).2.state.approvalTrail = f.state.approvalTrail := by
  obtain ⟨env, op⟩ := c
  cases op with
  | record a => exact absurd rfl (h a)
  | beginPhase1 =>
      rcases exec_beginPhase1 f with ⟨-, hb⟩ | ⟨_, _, hb⟩
      · rw [show step rt f ⟨env, .beginPhase1⟩ = beginPhase1.exec f from rfl, hb]
        exact ⟨rfl, rfl⟩
      · rw [show step rt f ⟨env, .beginPhase1⟩ = beginPhase1.exec f from rfl, hb]
        exact ⟨rfl, rfl⟩
  | generate q =>
      rcases @generate_cases rt env f _ _ q rfl with
        ⟨e, -, hg⟩ | ⟨-, ks, -, hframe, -⟩
      · exact ⟨congrArg (·.state.reviewDecisions) hg, congrArg (·.state.approvalTrail) hg⟩
      · exact ⟨hframe.decisions, hframe.trail⟩

theorem preparedBy_eventStep {ev : Event}
    (hdigest : ∀ c, (eventStep rt f ev).1 ≠ .error (.digest c)) (h : PreparedBy rt p f) :
    PreparedBy rt p (eventStep rt f ev).2 := by
  cases ev with
  | editPreparer name =>
      exact ⟨⟨h.gates.mirrored, h.gates.gates⟩, h.created.mono (List.prefix_refl _),
        h.segregated.congr rfl rfl⟩
  | call c =>
      refine ⟨gateInv_step hdigest h.gates, h.created.mono (trail_step f c), ?_⟩
      obtain ⟨env, op⟩ := c
      cases op with
      | record a =>
          exact segregated_act (a := a) (r := (act rt env a f).1) rfl hdigest h.gates h.created
            h.segregated
      | beginPhase1 =>
          obtain ⟨hd, ht⟩ := @decisions_step rt f ⟨env, .beginPhase1⟩ (by simp)
          exact h.segregated.congr ht hd
      | generate q =>
          obtain ⟨hd, ht⟩ := @decisions_step rt f ⟨env, .generate q⟩ (by simp)
          exact h.segregated.congr ht hd

/-- Recording the preparer of a fresh flow puts the preparer in the trail. -/
theorem preparedBy_first {theme businessContext : Str} {frameworks : List Str}
    {sessionId : Option Str} {required : Bool} {source : Str}
    (h : act rt env (.recordPreparer p required source)
      (.fresh theme businessContext frameworks sessionId) = (.ok (), g)) : PreparedBy rt p g := by
  have hinv := gateInv_act h (by simp) (gateInv_fresh theme businessContext frameworks sessionId)
  rcases act_cases h with ⟨err, -, hr, -⟩ | ⟨k, c, -, hr, -⟩ | ⟨k, e, hk, he, -, rfl⟩
  · cases hr
  · cases hr
  obtain ⟨hne, hname, -, -⟩ := checkPreparer_eq_ok hk
  have hhuman : e.get? (lit "human") = some (strip p) := hname ▸ he.human
  refine ⟨hinv, ⟨hne, e, ?_, he.action, hhuman⟩, ?_⟩
  · exact List.mem_singleton.mpr rfl
  · have hempty : Segregated rt p (.fresh theme businessContext frameworks sessionId) :=
      ⟨by simp [fresh, AuditState.fresh], by simp [fresh, AuditState.fresh],
        by simp [fresh, AuditState.fresh]⟩
    exact hempty.append he (by simp)
      (by simp [Policy.preparerExcludedActions]) rfl rfl

/-- Segregation of duties over whole runs: once `p` is recorded as the preparer, no later run has
a gate approval, a return for rework, a QA override or a reviewer decision by `p` under any
spelling, and Gate 3 is not approved by the approver of Gate 2. -/
theorem segregation_of_duties (rt : Runtime) (env : Env) (theme businessContext : Str)
    (frameworks : List Str) (sessionId : Option Str) (p : Str) (required : Bool) (source : Str)
    (f : AuditFlow) (events : List Event)
    (hfirst : act rt env (.recordPreparer p required source)
      (.fresh theme businessContext frameworks sessionId) = (.ok (), f))
    (hdigest : EventDigestsSucceed rt f events) :
    Segregated rt p (afterEvents rt f events) :=
  (LabelledRun.invariant (eventStep rt) (P := fun t => ∀ c, t.result ≠ .error (.digest c))
    (fun _ _ => preparedBy_eventStep) hdigest (preparedBy_first hfirst)).segregated

/-- The preparer tries to approve the first gate after the stored preparer was cleared, and then
someone else does. -/
theorem segregation_of_duties_created :
    Segregated Sample.rt (lit "Ann") (afterEvents Sample.rt Sample.created
      [.editPreparer [], .call ⟨Sample.smallEnv "u2", .generate .planning⟩,
        .call ⟨Sample.smallEnv "u3", .record (.approveGate .planning (lit "ANN") (lit "declared"))⟩,
        .call ⟨Sample.smallEnv "u4", .record (.approveGate .planning (lit "Bob") (lit "declared"))⟩]) :=
  segregation_of_duties Sample.rt (Sample.smallEnv "u1") (lit "Access") (lit "A bank") [] none
    (lit "Ann") true (lit "declared") Sample.created _
    (Prod.ext (by decide +kernel) (by rw [Sample.created])) (by decide +kernel)

end AuditFlow

end AuditSwarm
