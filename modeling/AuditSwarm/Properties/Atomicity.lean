import AuditSwarm.Run.Steps

/-!
# Atomicity of the recorded actions

Every recorded action changes the flow before the digest of its trail entry is computed, so a call
that raises leaves the flow as it was exactly when a check refused it or the digest cannot fail.
-/

namespace AuditSwarm

open Python StrEnum

namespace AuditFlow

variable {rt : Runtime} {env : Env} {f g : AuditFlow}

/-! ## When an entry can be stamped -/

theorem encodable_identitySource (i : IdentitySource) : Encodable (value i) := by
  cases i <;> exact encodable_lit _

/-- An entry is stamped exactly when the key is readable and the texts of the entry, and what it
links to, encode. -/
theorem stampEntry_isOk_iff (i : IdentitySource) {gate human action timestamp : Str}
    {extra : StrEntry} (hextra : Additional extra) :
    (∃ e, f.stampEntry rt env gate human action (value i) timestamp extra = .ok e) ↔
      Trail.KeyReadable env.environ ∧ Trail.LinkEncodes f.state.approvalTrail ∧
        (Encodable gate ∧ Encodable human ∧ Encodable timestamp ∧ Encodable action) ∧
        Trail.TextsEncode extra := by
  set base : StrEntry := [(lit "gate", gate), (lit "human", human), (lit "timestamp", timestamp),
    (lit "action", action), (lit "identity_source", value i)] with hbase
  have hfresh : ∀ kv ∈ extra, base.get? kv.1 = none := by
    intro kv hkv
    have hkey := hextra.fresh kv hkv
    simp only [commonKeys, List.mem_append, List.mem_cons, List.not_mem_nil, or_false,
      not_or] at hkey
    obtain ⟨⟨h1, h2, h3, h4, h5⟩, -⟩ := hkey
    simp [hbase, Dict.get?, Ne.symm h1, Ne.symm h2, Ne.symm h3, Ne.symm h4, Ne.symm h5]
  have hown : Trail.ownFields (base ++ extra) = base ++ extra := by
    refine List.filter_eq_self.mpr ?_
    intro kv hkv
    rcases List.mem_append.mp hkv with hkv | hkv
    · simp only [hbase, List.mem_cons, List.not_mem_nil, or_false] at hkv
      rcases hkv with rfl | rfl | rfl | rfl | rfl <;> simp [Trail.hashFields]
    · have hkey := hextra.fresh kv hkv
      rw [List.mem_append, not_or] at hkey
      simpa using hkey.2
  unfold stampEntry
  simp only [identitySource_value, Except.ok_bind]
  rw [Dict.update_eq_append hfresh hextra.nodup, Trail.appendEntry_isOk_iff]
  have htexts : Trail.TextsEncode (base ++ extra) ↔
      (Encodable gate ∧ Encodable human ∧ Encodable timestamp ∧ Encodable action) ∧
        Trail.TextsEncode extra := by
    simp [Trail.TextsEncode, hbase, encodable_identitySource, and_assoc]
  rw [← htexts]
  constructor
  · rintro ⟨hkey, hlink, ht⟩
    exact ⟨hkey, hlink, hown ▸ ht⟩
  · rintro ⟨hkey, hlink, ht⟩
    exact ⟨hkey, hlink, hown.symm ▸ ht⟩

/-! ## What an action writes -/

def provenanceTexts (f : AuditFlow) (p : Phase) : List Str :=
  match f.latestRunForPhase p with
  | none => []
  | some run => [run.runId, run.promptFingerprint, run.provider, run.model]

/-- The evidence a QA override of a phase would accept. -/
def unverifiedTexts (rt : Runtime) (env : Env) (f : AuditFlow) (phase : Int) : List Str :=
  if Phase.ofNumber? phase = some .fieldwork then
    ((f.unverifiedEvidence rt env).toOption).getD []
  else []

/-- The values an action digests before it records its entry. -/
def dumps (rt : Runtime) (env : Env) (f : AuditFlow) : RecordedAction → List Json
  | .recordDecision req =>
      match (decisionAction rt env req).check f with
      | .ok d => [ReviewDecision.toJson d]
      | .error _ => []
  | .approveGate gate _ _ => (f.state.artifact gate).toList
  | .returnForRework phase _ _ _ => ((Phase.ofNumber? phase).bind f.state.artifact).toList
  | _ => []

/-- The texts an action writes into its entry, besides those of the values it digests. -/
def texts (rt : Runtime) (env : Env) (f : AuditFlow) : RecordedAction → List Str
  | .recordPreparer preparedBy _ _ => [preparedBy, env.now 0]
  | .recordDecision _ => [env.now 2]
  | .approveGate gate humanId _ => [humanId, env.now 0] ++ f.provenanceTexts gate
  | .retryPhase phase humanId _ => [humanId, env.now 0, f.state.qaRejectionReason.getD []] ++
      ((Phase.ofNumber? phase).map f.provenanceTexts).getD []
  | .returnForRework phase humanId notes _ => [humanId, env.now 0, notes] ++
      ((Phase.ofNumber? phase).map f.provenanceTexts).getD []
  | .overrideQaRejection phase humanId reason _ =>
      [humanId, env.now 0, reason, f.state.qaRejectionReason.getD []] ++
        unverifiedTexts rt env f phase ++ ((Phase.ofNumber? phase).map f.provenanceTexts).getD []

/-- The trail entry of an action can be computed: the key is readable, and what the entry links
to, the values it digests and the texts it holds have UTF-8 encodings. -/
structure Sealable (rt : Runtime) (env : Env) (f : AuditFlow) (a : RecordedAction) : Prop where
  key : Trail.KeyReadable env.environ
  link : Trail.LinkEncodes f.state.approvalTrail
  dumps : ∀ j ∈ dumps rt env f a, j.Signable
  texts : ∀ t ∈ texts rt env f a, Encodable t

theorem encodable_label (p : Phase) : Encodable p.label := by
  cases p <;> exact encodable_lit _

theorem encodable_gateLabel (p : Phase) : Encodable p.gateLabel := by
  cases p <;> exact encodable_lit _

theorem encodable_artifactField (p : Phase) : Encodable p.artifactField := by
  cases p <;> exact encodable_lit _

theorem encodable_status (s : AuditStatus) : Encodable s.value := by
  have hdigits : ∀ p : Phase, Encodable p.digits := by
    intro p
    cases p <;> exact encodable_lit _
  cases s <;> simp [AuditStatus.value, hdigits]

theorem textsEncode_append {x y : StrEntry} :
    Trail.TextsEncode (x ++ y) ↔ Trail.TextsEncode x ∧ Trail.TextsEncode y :=
  List.forall_mem_append

theorem textsEncode_provenance (f : AuditFlow) (p : Phase) :
    Trail.TextsEncode (f.runProvenanceExtra p) ↔ ∀ t ∈ f.provenanceTexts p, Encodable t := by
  unfold runProvenanceExtra provenanceTexts
  cases f.latestRunForPhase p with
  | none => simp [Trail.TextsEncode]
  | some run => simp [Trail.TextsEncode]

theorem artifactDigest_isOk_iff {j : Json} :
    (∃ d, Trail.artifactDigest rt j = .ok d) ↔ j.Signable := by
  unfold Json.Signable
  rw [Option.isSome_iff_exists]
  constructor
  · rintro ⟨d, h⟩
    obtain ⟨data, hdata, -⟩ := Trail.artifactDigest_eq_ok_iff.mp h
    exact ⟨data, hdata⟩
  · rintro ⟨data, hdata⟩
    exact ⟨_, Trail.artifactDigest_eq_ok_iff.mpr ⟨data, hdata, rfl⟩⟩

/-- The entry of an action that passed its checks has an encoding. -/
def EntryEncodes (rt : Runtime) (env : Env) (f : AuditFlow) (a : RecordedAction)
    (k : (recorded rt env a).κ) : Prop :=
  Encodable ((recorded rt env a).gate k) ∧ Encodable ((recorded rt env a).human k) ∧
    Encodable (recorded rt env a).timestamp ∧
    ∃ x, (recorded rt env a).extra k ((recorded rt env a).mutate k f) = .ok x ∧
      Trail.TextsEncode x

theorem entryEncodes_preparer {preparedBy source : Str} {required : Bool} {k : PreparerPlan}
    (hk : checkPreparer preparedBy source f = .ok k) :
    EntryEncodes rt env f (.recordPreparer preparedBy required source) k ↔
      ∀ t ∈ texts rt env f (.recordPreparer preparedBy required source), Encodable t := by
  obtain ⟨-, hname, -, -⟩ := checkPreparer_eq_ok hk
  have hextra : Trail.TextsEncode
      (if required then [(lit "review_decisions_required", lit "true")] else []) := by
    cases required <;> simp [Trail.TextsEncode]
  simp [EntryEncodes, recorded, preparerAction, hname, texts, hextra]

theorem entryEncodes_decision {req : Decisions.Request} {d : ReviewDecision}
    (hk : (decisionAction rt env req).check f = .ok d) :
    EntryEncodes rt env f (.recordDecision req) d ↔
      (∀ j ∈ dumps rt env f (.recordDecision req), j.Signable) ∧
        ∀ t ∈ texts rt env f (.recordDecision req), Encodable t := by
  have hgate : Encodable (lit "Review decision (" ++
      ((Phase.ofNumber? d.phase).map Phase.label).getD [] ++ lit ")") := by
    cases Phase.ofNumber? d.phase <;> simp [encodable_label]
  have hextra : ∀ digest : Str, Encodable digest → d.toJson.Signable →
      Encodable d.decidedBy ∧ Trail.TextsEncode (decisionExtra d digest) := by
    intro digest hdigest hd
    simp only [ReviewDecision.toJson, Json.signable_obj, List.forall_mem_cons,
      StrEnum.toJson, Json.signable_str, encodable_lit, true_and] at hd
    obtain ⟨hid, -, hartifact, -, hstype, hsubject, htype, -, -, hby, -, -, hsup, -⟩ := hd
    refine ⟨hby, ?_⟩
    unfold decisionExtra
    rw [textsEncode_append]
    refine ⟨by simp [Trail.TextsEncode, hid, hdigest, htype, hstype, hsubject, hartifact], ?_⟩
    cases hs : d.supersedes with
    | none => simp [Trail.TextsEncode]
    | some s =>
        rw [hs] at hsup
        by_cases hnil : s = []
        · simp [hnil, Trail.TextsEncode]
        · have henc : Encodable s := Json.signable_str.mp hsup
          simp [hnil, Trail.TextsEncode, henc]
  simp only [EntryEncodes, recorded, dumps, hk, List.mem_singleton, forall_eq, texts]
  constructor
  · rintro ⟨-, -, hnow, x, hx, -⟩
    simp only [decisionAction] at hx
    obtain ⟨digest, hdigest, -⟩ := Except.bind_eq_ok_iff.mp hx
    exact ⟨artifactDigest_isOk_iff.mp ⟨digest, hdigest⟩, hnow⟩
  · rintro ⟨hd, hnow⟩
    obtain ⟨digest, hdigest⟩ := (@artifactDigest_isOk_iff rt).mpr hd
    have henc : Encodable digest := by
      obtain ⟨data, -, rfl⟩ := Trail.artifactDigest_eq_ok_iff.mp hdigest
      exact encodable_hexdigest _
    obtain ⟨hby, htexts⟩ := hextra digest henc hd
    refine ⟨hgate, hby, hnow, decisionExtra d digest, ?_, htexts⟩
    simp only [decisionAction, hdigest, Except.ok_bind]
    rfl

theorem encodable_of_artifactDigest {j : Json} {digest : Str}
    (h : Trail.artifactDigest rt j = .ok digest) : Encodable digest := by
  obtain ⟨data, -, rfl⟩ := Trail.artifactDigest_eq_ok_iff.mp h
  exact encodable_hexdigest _

theorem entryEncodes_approval {gate : Phase} {humanId source : Str} {plan : ApprovalPlan}
    (hk : checkApproval rt env gate humanId source f = .ok plan) :
    EntryEncodes rt env f (.approveGate gate humanId source) plan ↔
      (∀ j ∈ dumps rt env f (.approveGate gate humanId source), j.Signable) ∧
        ∀ t ∈ texts rt env f (.approveGate gate humanId source), Encodable t := by
  obtain ⟨hhuman, -, -, -, -, hartifact, -⟩ := checkApproval_eq_ok hk
  have hsealed : Trail.TextsEncode plan.sealedFields := by
    have hfields := checkApproval_sealedFields hk
    unfold sealedFields at hfields
    split at hfields
    · rw [← Except.ok.inj hfields]
      simp [Trail.TextsEncode]
    · simp only [Except.bind_eq_ok_iff, Except.pure_eq_ok_iff] at hfields
      obtain ⟨digest, hdigest, hfields⟩ := hfields
      rw [← hfields]
      simp [Trail.TextsEncode, encodable_of_artifactDigest hdigest]
  have hprov := textsEncode_provenance f gate
  simp only [EntryEncodes, recorded, dumps, hartifact, Option.toList_some, List.mem_singleton,
    forall_eq, texts, List.forall_mem_append]
  constructor
  · rintro ⟨-, henc, hnow, x, hx, htexts⟩
    simp only [approvalAction] at henc hnow hx
    obtain ⟨digest, hdigest, hx⟩ := Except.bind_eq_ok_iff.mp hx
    rw [Except.pure_eq_ok_iff] at hx
    rw [← hx, textsEncode_append] at htexts
    refine ⟨artifactDigest_isOk_iff.mp ⟨digest, hdigest⟩, ?_, hprov.mp htexts.2⟩
    rw [hhuman, encodable_strip] at henc
    simp [henc, hnow]
  · rintro ⟨hj, hown, htexts⟩
    obtain ⟨digest, hdigest⟩ := (@artifactDigest_isOk_iff rt).mpr hj
    simp only [List.forall_mem_cons, List.not_mem_nil, false_imp_iff, implies_true,
      and_true] at hown
    refine ⟨encodable_gateLabel gate, ?_, hown.2, [(lit "artifact", gate.artifactField),
      (lit "artifact_digest", digest)] ++ plan.sealedFields ++ f.runProvenanceExtra gate, ?_, ?_⟩
    · simp only [approvalAction, hhuman, encodable_strip]
      exact hown.1
    · simp only [approvalAction, hdigest, Except.ok_bind]
      rfl
    · rw [textsEncode_append, textsEncode_append]
      refine ⟨⟨?_, hsealed⟩, hprov.mpr htexts⟩
      simp [Trail.TextsEncode, encodable_artifactField, encodable_of_artifactDigest hdigest]

theorem entryEncodes_retry {phase : Int} {humanId source : Str} {plan : RetryPlan}
    (hk : checkRetry phase humanId source f = .ok plan) :
    EntryEncodes rt env f (.retryPhase phase humanId source) plan ↔
      ∀ t ∈ texts rt env f (.retryPhase phase humanId source), Encodable t := by
  obtain ⟨hphase, -, hhuman, -, hprevious⟩ := checkRetry_eq_ok hk
  have hprov : Trail.TextsEncode ((f.moveTo (.running plan.phase)).runProvenanceExtra plan.phase) ↔
      ∀ t ∈ f.provenanceTexts plan.phase, Encodable t := textsEncode_provenance f plan.phase
  have hown : Trail.TextsEncode [(lit "previous_status", plan.previous),
      (lit "previous_reason", f.state.qaRejectionReason.getD [])] ↔
        Encodable (f.state.qaRejectionReason.getD []) := by
    simp [Trail.TextsEncode, hprevious, encodable_status]
  simp only [EntryEncodes, recorded, retryAction, texts, hphase, Option.map_some, Option.getD_some,
    List.forall_mem_append, Except.ok.injEq, exists_eq_left', textsEncode_append, hprov]
  simp only [moveTo, hown, hhuman, encodable_strip, encodable_append, encodable_lit,
    encodable_label, List.forall_mem_cons, List.not_mem_nil, false_imp_iff, implies_true]
  tauto

theorem entryEncodes_rework {phase : Int} {humanId notes source : Str} {plan : ReworkPlan}
    (hk : checkRework rt phase humanId notes source f = .ok plan) :
    EntryEncodes rt env f (.returnForRework phase humanId notes source) plan ↔
      (∀ j ∈ dumps rt env f (.returnForRework phase humanId notes source), j.Signable) ∧
        ∀ t ∈ texts rt env f (.returnForRework phase humanId notes source), Encodable t := by
  obtain ⟨hphase, hhuman, hnotes, -, -, -⟩ := checkRework_eq_ok hk
  have hprov : Trail.TextsEncode ((f.moveTo (.running plan.phase)).runProvenanceExtra plan.phase) ↔
      ∀ t ∈ f.provenanceTexts plan.phase, Encodable t := textsEncode_provenance f plan.phase
  have hdigest : (∃ fields, digestField rt (f.state.artifact plan.phase) = .ok fields ∧
      Trail.TextsEncode fields) ↔ ∀ j ∈ (f.state.artifact plan.phase).toList, j.Signable := by
    unfold digestField
    cases f.state.artifact plan.phase with
    | none => simp [Trail.TextsEncode]
    | some j =>
        simp only [Option.toList_some, List.mem_singleton, forall_eq, Except.bind_eq_ok_iff,
          Except.pure_eq_ok_iff]
        rw [← (@artifactDigest_isOk_iff rt)]
        constructor
        · rintro ⟨fields, ⟨digest, hd, -⟩, -⟩
          exact ⟨digest, hd⟩
        · rintro ⟨digest, hd⟩
          refine ⟨_, ⟨digest, hd, rfl⟩, ?_⟩
          simp [Trail.TextsEncode, encodable_of_artifactDigest hd]
  have hextra : (∃ x, reworkExtra rt (f.moveTo (.running plan.phase)) plan = .ok x ∧
      Trail.TextsEncode x) ↔
        (∀ j ∈ (f.state.artifact plan.phase).toList, j.Signable) ∧ Encodable notes ∧
          ∀ t ∈ f.provenanceTexts plan.phase, Encodable t := by
    rw [← hdigest, ← hprov]
    unfold reworkExtra
    simp only [Except.bind_eq_ok_iff, Except.pure_eq_ok_iff]
    have hsame : (f.moveTo (.running plan.phase)).state.artifact plan.phase =
        f.state.artifact plan.phase := by
      cases plan.phase <;> rfl
    rw [hsame]
    constructor
    · rintro ⟨x, ⟨fields, hfields, rfl⟩, htexts⟩
      rw [textsEncode_append, textsEncode_append] at htexts
      have hown := htexts.1.1
      simp only [Trail.TextsEncode, List.forall_mem_cons, hnotes, encodable_strip] at hown
      exact ⟨⟨fields, hfields, htexts.1.2⟩, hown.1.2, htexts.2⟩
    · rintro ⟨⟨fields, hfields, hf⟩, henc, hp⟩
      refine ⟨_, ⟨fields, hfields, rfl⟩, ?_⟩
      rw [textsEncode_append, textsEncode_append]
      refine ⟨⟨?_, hf⟩, hp⟩
      simp [Trail.TextsEncode, hnotes, henc, encodable_artifactField]
  simp only [EntryEncodes, recorded, reworkAction, hextra]
  simp only [dumps, texts, hphase, Option.bind_some, Option.map_some, Option.getD_some,
    List.forall_mem_append, hhuman, encodable_strip, encodable_append, encodable_lit,
    encodable_label, List.forall_mem_cons, List.not_mem_nil, false_imp_iff, implies_true]
  tauto

theorem entryEncodes_override {phase : Int} {humanId reason source : Str} {plan : OverridePlan}
    (hk : checkOverride rt env phase humanId reason source f = .ok plan) :
    EntryEncodes rt env f (.overrideQaRejection phase humanId reason source) plan ↔
      ∀ t ∈ texts rt env f (.overrideQaRejection phase humanId reason source), Encodable t := by
  obtain ⟨hphase, hhuman, -, hreason, -, -, -, ⟨dumped, -, hdigest⟩, hunverified⟩ :=
    checkOverride_eq_ok hk
  have hprov : Trail.TextsEncode
      ((f.moveTo (.waitingHumanGate plan.phase)).runProvenanceExtra plan.phase) ↔
        ∀ t ∈ f.provenanceTexts plan.phase, Encodable t := textsEncode_provenance f plan.phase
  have hu : unverifiedTexts rt env f phase = plan.unverified := by
    unfold unverifiedTexts
    rw [hphase]
    by_cases hp : plan.phase = .fieldwork
    · rw [if_pos hp] at hunverified
      simp [hp, hunverified, Except.toOption]
    · rw [if_neg hp] at hunverified
      simp [hp, Except.ok.inj hunverified]
  have hown : Trail.TextsEncode (if plan.unverified = [] then []
      else [(lit "unverified_controls", join (lit ",") plan.unverified)]) ↔
        ∀ t ∈ plan.unverified, Encodable t := by
    by_cases hnil : plan.unverified = []
    · simp [hnil, Trail.TextsEncode]
    · simp [hnil, Trail.TextsEncode, encodable_join]
  have hfirst : Trail.TextsEncode [(lit "reason", plan.reason),
      (lit "qa_rejection_reason", f.state.qaRejectionReason.getD []),
      (lit "artifact", plan.phase.artifactField), (lit "artifact_digest", plan.digest)] ↔
        Encodable reason ∧ Encodable (f.state.qaRejectionReason.getD []) := by
    simp [Trail.TextsEncode, hreason, encodable_artifactField,
      encodable_of_artifactDigest hdigest]
  simp only [EntryEncodes, recorded, overrideAction, overrideExtra, texts, hu, hphase,
    Option.map_some, Option.getD_some, List.forall_mem_append, Except.ok.injEq, exists_eq_left',
    textsEncode_append, hprov, hown]
  simp only [moveTo, hfirst, hhuman, encodable_strip, encodable_append, encodable_lit,
    encodable_label, List.forall_mem_cons, List.not_mem_nil, false_imp_iff, implies_true]
  tauto

theorem entryEncodes_iff {a : RecordedAction} {k : (recorded rt env a).κ}
    (hk : (recorded rt env a).check f = .ok k) :
    EntryEncodes rt env f a k ↔
      (∀ j ∈ dumps rt env f a, j.Signable) ∧ ∀ t ∈ texts rt env f a, Encodable t := by
  cases a with
  | recordPreparer preparedBy required source =>
      simpa [dumps] using entryEncodes_preparer hk
  | recordDecision req => exact entryEncodes_decision hk
  | approveGate gate humanId source => exact entryEncodes_approval hk
  | retryPhase phase humanId source =>
      simpa [dumps] using entryEncodes_retry (retryAction_check_eq_ok hk).1
  | returnForRework phase humanId notes source => exact entryEncodes_rework hk
  | overrideQaRejection phase humanId reason source =>
      simpa [dumps] using entryEncodes_override hk

/-- The trail entry of an action that passed its checks can be computed exactly when the action
is sealable. -/
theorem sealOf_isOk_iff {a : RecordedAction} {k : (recorded rt env a).κ}
    (hk : (recorded rt env a).check f = .ok k) :
    (∃ e, ((recorded rt env a).proc rt env).sealOf k ((recorded rt env a).mutate k f) = .ok e) ↔
      Sealable rt env f a := by
  obtain ⟨i, hi⟩ := source_of_check hk
  have haction : Encodable (recorded rt env a).action := by
    cases a <;> simp
  have htrail : ((recorded rt env a).mutate k f).state.approvalTrail = f.state.approvalTrail := by
    cases a <;> rfl
  have hentry := entryEncodes_iff hk
  unfold EntryEncodes at hentry
  simp only [Recorded.proc, hi]
  rcases extra_cases hk ((recorded rt env a).mutate k f) with ⟨c, hc⟩ | ⟨x, hx, hadd⟩
  · simp only [hc, reduceCtorEq, false_and, exists_false, and_false, false_iff] at hentry
    simp only [hc, Except.error_bind, reduceCtorEq, exists_false, false_iff]
    exact fun h => hentry ⟨h.dumps, h.texts⟩
  · simp only [hx, Except.ok.injEq, exists_eq_left'] at hentry
    rw [hx, Except.ok_bind, stampEntry_isOk_iff i hadd, htrail]
    constructor
    · rintro ⟨hkey, hlink, ⟨hgate, hhuman, hnow, -⟩, htexts⟩
      obtain ⟨hd, ht⟩ := hentry.mp ⟨hgate, hhuman, hnow, htexts⟩
      exact ⟨hkey, hlink, hd, ht⟩
    · rintro ⟨hkey, hlink, hd, ht⟩
      obtain ⟨hgate, hhuman, hnow, htexts⟩ := hentry.mpr ⟨hd, ht⟩
      exact ⟨hkey, hlink, ⟨hgate, hhuman, hnow, haction⟩, htexts⟩

/-! ## The property -/

/-- What an action must leave alone when it raises. -/
structure Persisted where
  status : Str
  machine : AuditStateMachine
  preparedBy : Str
  approvalTrail : List StrEntry
  reviewDecisions : List ReviewDecision
  racmPlan : Option RiskControlMatrixSchema
  workingPapers : Option ValidPapers
  finalReport : Option ValidReport
  qaRejectionReason : Option Str

def persisted (f : AuditFlow) : Persisted where
  status := f.state.status
  machine := f.machine
  preparedBy := f.state.preparedBy
  approvalTrail := f.state.approvalTrail
  reviewDecisions := f.state.reviewDecisions
  racmPlan := f.state.racmPlan
  workingPapers := f.state.workingPapers
  finalReport := f.state.finalReport
  qaRejectionReason := f.state.qaRejectionReason

/-- A call that raises leaves everything persisted as it was. -/
def Atomic (rt : Runtime) (env : Env) (f : AuditFlow) (a : RecordedAction) : Prop :=
  ∀ err, (act rt env a f).1 = .error err → (act rt env a f).2.persisted = f.persisted

def Refused (rt : Runtime) (env : Env) (f : AuditFlow) (a : RecordedAction) : Prop :=
  ∃ err, (recorded rt env a).check f = .error err

theorem persisted_mutate {a : RecordedAction} {k : (recorded rt env a).κ}
    (hk : (recorded rt env a).check f = .ok k) :
    ((recorded rt env a).mutate k f).persisted ≠ f.persisted := by
  intro h
  cases a with
  | recordPreparer preparedBy required source =>
      obtain ⟨hne, hname, -, hempty⟩ := checkPreparer_eq_ok hk
      have hsame : PreparerPlan.preparedBy k = f.state.preparedBy := congrArg Persisted.preparedBy h
      rw [hname, hempty] at hsame
      exact hne hsame
  | recordDecision req =>
      let d : ReviewDecision := k
      have hsame : f.state.reviewDecisions ++ [d] = f.state.reviewDecisions :=
        congrArg Persisted.reviewDecisions h
      simpa using congrArg List.length hsame
  | approveGate gate humanId source =>
      have hsame : (⟨AuditStateMachine.approvalTarget gate⟩ : AuditStateMachine) = f.machine :=
        congrArg Persisted.machine h
      have hstatus := (checkApproval_eq_ok hk).status
      rw [← hsame] at hstatus
      cases gate <;> cases hstatus
  | retryPhase phase humanId source =>
      have hsame : (⟨.running (RetryPlan.phase k)⟩ : AuditStateMachine) = f.machine :=
        congrArg Persisted.machine h
      rcases (retryAction_check_eq_ok hk).2 with hstatus | hstatus
      · rw [← hsame] at hstatus
        cases hstatus
      · rw [← hsame] at hstatus
        cases hstatus
  | returnForRework phase humanId notes source =>
      have hsame : (⟨.running (ReworkPlan.phase k)⟩ : AuditStateMachine) = f.machine :=
        congrArg Persisted.machine h
      have hstatus := (checkRework_eq_ok hk).status
      rw [← hsame] at hstatus
      cases hstatus
  | overrideQaRejection phase humanId reason source =>
      have hsame : (⟨.waitingHumanGate (OverridePlan.phase k)⟩ : AuditStateMachine) = f.machine :=
        congrArg Persisted.machine h
      have hstatus := (checkOverride_eq_ok hk).status
      rw [← hsame] at hstatus
      cases hstatus

/-- A recorded action is atomic exactly when its validation refuses the call or its trail entry
can be computed. -/
theorem atomic_iff_refused_or_sealable (rt : Runtime) (env : Env) (f : AuditFlow)
    (a : RecordedAction) : Atomic rt env f a ↔ Refused rt env f a ∨ Sealable rt env f a := by
  have hatomic := SealedProc.atomic_iff (a := (recorded rt env a).proc rt env) (s := f) persisted
    (fun k hk => persisted_mutate hk)
  have hact : Atomic rt env f a ↔
      ∀ e, (((recorded rt env a).proc rt env).run f).1 = .error e →
        (((recorded rt env a).proc rt env).run f).2.persisted = f.persisted := by
    unfold Atomic
    rw [act_eq]
    unfold reported
    cases (((recorded rt env a).proc rt env).run f).1 <;> simp [Except.map]
  rw [hact, hatomic]
  unfold SealedProc.SealFails Refused
  constructor
  · intro h
    cases hk : (recorded rt env a).check f with
    | error err => exact .inl ⟨err, rfl⟩
    | ok k =>
        refine .inr ((sealOf_isOk_iff hk).mp ?_)
        cases hseal : ((recorded rt env a).proc rt env).sealOf k
            ((recorded rt env a).mutate k f) with
        | error e => exact absurd ⟨k, e, hk, hseal⟩ h
        | ok e => exact ⟨e, rfl⟩
  · rintro (⟨err, herr⟩ | hseal) ⟨k, e, hk, he⟩
    · cases herr.symm.trans hk
    · obtain ⟨e', he'⟩ := (sealOf_isOk_iff hk).mpr hseal
      cases he.symm.trans he'

/-- With a key that is not Base64, recording the preparer of a new audit raises and leaves the
preparer recorded. -/
theorem recordPreparer_not_atomic :
    ∃ f env, Reachable Sample.rt f ∧
      ¬ Atomic Sample.rt env f (.recordPreparer (lit "Ann") false (lit "declared")) := by
  let env : Env := { Sample.smallEnv "u1" with environ := fun _ => some (lit "a") }
  refine ⟨Sample.fresh, env, ⟨lit "Access", lit "A bank", [], none, [], rfl⟩, ?_⟩
  intro h
  have hraised : ∃ err, (act Sample.rt env (.recordPreparer (lit "Ann") false (lit "declared"))
      Sample.fresh).1 = .error err := ⟨_, rfl⟩
  obtain ⟨err, herr⟩ := hraised
  have hprep := congrArg Persisted.preparedBy (h err herr)
  revert hprep
  decide +kernel

end AuditFlow

end AuditSwarm
