import AuditSwarm.Model.ExportRoutes
import AuditSwarm.Properties.GateEntry
import AuditSwarm.Properties.VerificationReturns
import AuditSwarm.Run.BackedApprovals

/-!
# What an approved label rests on

An exported file calls the artifact of a phase approved whenever the status of the flow is none of
the four of that phase.  A flow that a run has led to then has an approval of the artifact in its
trail, whether it is exported live or from what was saved of it.  A stored session no run led to
need not: its trail is compared with the artifact only when all of it could be verified, and only
where it has an approval.
-/

namespace AuditSwarm

open Python

namespace Trail

variable {rt : Runtime} {environ : Environ} {trail : List Entry} {anchor : Anchor}
  {decisions : Option (List Json)}

/-! ## The last approval of an artifact -/

def RecordsApproval (e : Entry) : Prop :=
  fieldIs e (lit "action") (lit "gate_approval") = true ∧
    fieldTruthy e (lit "artifact_digest") = true

/-- The entry is the last approval that records a digest of an artifact. -/
def LastApprovalOf (rt : Runtime) (trail : List Entry) (field : Str) (e : Entry) : Prop :=
  ∃ before after, trail = before ++ e :: after ∧ RecordsApproval e ∧
    fieldText rt e (lit "artifact") = field ∧
    ∀ later ∈ after, RecordsApproval later → fieldText rt later (lit "artifact") ≠ field

theorem not_decision_of_approval {e : Entry}
    (h : fieldIs e (lit "action") (lit "gate_approval") = true) :
    fieldIs e (lit "action") (lit "review_decision") = false := by
  unfold fieldIs at h ⊢
  cases he : e.get? (lit "action") with
  | none => rfl
  | some j =>
      rw [he] at h
      cases j with
      | str s =>
          dsimp only at h ⊢
          rw [decide_eq_true_eq] at h
          rw [h]
          decide
      | _ => rfl

/-- The scan adds what an approval records and leaves the rest. -/
theorem approvalScan_latest (st : ApprovalScan) (e : Entry) :
    (¬ RecordsApproval e ∧ (approvalScan rt st e).latest = st.latest) ∨
      (RecordsApproval e ∧ ∃ a, a.digest = fieldText rt e (lit "artifact_digest") ∧
        (approvalScan rt st e).latest = st.latest.set (fieldText rt e (lit "artifact")) a) := by
  unfold approvalScan
  by_cases hdecision : fieldIs e (lit "action") (lit "review_decision") = true
  · left
    refine ⟨fun h => ?_, ?_⟩
    · rw [not_decision_of_approval h.1] at hdecision
      cases hdecision
    · rw [if_pos hdecision]
      split
      · rfl
      · rfl
  · rw [if_neg hdecision]
    by_cases happroval : RecordsApproval e
    · right
      refine ⟨happroval, ?_⟩
      rw [if_pos (by rw [happroval.1, happroval.2]; rfl)]
      exact ⟨_, rfl, rfl⟩
    · left
      refine ⟨happroval, ?_⟩
      rw [if_neg]
      intro h
      rw [Bool.and_eq_true] at h
      exact happroval h

/-- Entries that record no approval of an artifact leave what the scan has for it. -/
theorem approvalScan_keeps {field : Str} {after : List Entry}
    (h : ∀ later ∈ after, RecordsApproval later → fieldText rt later (lit "artifact") ≠ field)
    (st : ApprovalScan) :
    (after.foldl (approvalScan rt) st).latest.get? field = st.latest.get? field := by
  induction after generalizing st with
  | nil => rfl
  | cons later after ih =>
      rw [List.foldl_cons, ih fun e he => h e (List.mem_cons_of_mem _ he)]
      rcases @approvalScan_latest rt st later with ⟨-, hlatest⟩ | ⟨hrecords, a, -, hlatest⟩
      · rw [hlatest]
      · rw [hlatest, Dict.get?_set_of_ne]
        exact (h later List.mem_cons_self hrecords).symm

/-- The scan ends with the digest of the last approval of an artifact. -/
theorem lastApprovals_of_last {field : Str} {e : Entry} (h : LastApprovalOf rt trail field e) :
    ∃ a, (lastApprovals rt trail).get? field = some a ∧
      a.digest = fieldText rt e (lit "artifact_digest") := by
  rcases h with ⟨before, after, rfl, hrecords, hfield, hafter⟩
  unfold lastApprovals
  rw [List.foldl_append, List.foldl_cons, approvalScan_keeps hafter]
  rcases @approvalScan_latest rt (before.foldl (approvalScan rt) ⟨[], []⟩) e with
    ⟨hnot, -⟩ | ⟨-, a, hdigest, hlatest⟩
  · exact absurd hrecords hnot
  · rw [hlatest, hfield, Dict.get?_set_self]
    exact ⟨a, rfl, hdigest⟩

/-! ## A verification that finds nothing -/

/-- A trail that is reported as ok has no entries, or its contents have been checked. -/
theorem contentCheck_of_ok {artifacts : Option (Dict Str Json)} {v : Verification}
    (h : verifyTrail rt environ trail anchor artifacts decisions = .ok v) (hok : v.status = .ok) :
    trail = [] ∨ ∃ first anchored keyed,
      contentCheck rt trail first anchored keyed artifacts decisions = .ok v := by
  unfold verifyTrail at h
  simp only [Except.bind_eq_ok_iff] at h
  rcases h with ⟨count, hcount, h⟩
  split at h
  · left
    split at h
    · have hv := Except.ok.inj h
      rw [← hv] at hok
      simp only [result] at hok
      split at hok
      · cases hok
      · cases hok
    · split at h
      · assumption
      · have hv := Except.ok.inj h
        rw [← hv] at hok
        cases hok
  · right
    simp only [Except.bind_eq_ok_iff] at h
    rcases h with ⟨key, hkey, check, hcheck, h⟩
    cases check with
    | stop status index detail =>
        have hv := Except.ok.inj h
        rw [← hv] at hok
        rcases chainLoop_stop hcheck with rfl | rfl
        · cases hok
        · cases hok
    | through st =>
        simp only [Except.bind_eq_ok_iff] at h
        rcases h with ⟨found, hfound, h⟩
        cases found with
        | some bad =>
            rcases bad with ⟨status, index, detail⟩
            have hv := Except.ok.inj h
            rw [← hv] at hok
            rcases anchorCheck_failed hfound with rfl | rfl
            · cases hok
            · cases hok
        | none =>
            cases key with
            | none => exact ⟨_, _, _, h⟩
            | some k =>
                cases hp : st.lastPlain with
                | none =>
                    simp only [hp] at h
                    exact ⟨_, _, _, h⟩
                | some index =>
                    simp only [hp] at h
                    have hv := Except.ok.inj h
                    rw [← hv] at hok
                    cases hok

theorem filterAuxM_eq_nil {α : Type} {p : α → Except Exn Bool} {xs acc : List α}
    (h : List.filterAuxM p xs acc = .ok []) : acc = [] ∧ ∀ x ∈ xs, p x = .ok false := by
  induction xs generalizing acc with
  | nil => exact ⟨Except.ok.inj h, fun x hx => absurd hx List.not_mem_nil⟩
  | cons x xs ih =>
      unfold List.filterAuxM at h
      rcases Except.bind_eq_ok_iff.mp h with ⟨b, hb, h⟩
      cases b with
      | true => exact absurd (ih h).1 (List.cons_ne_nil x acc)
      | false =>
          refine ⟨(ih h).1, fun y hy => ?_⟩
          rcases List.mem_cons.mp hy with rfl | hy
          · exact hb
          · exact (ih h).2 y hy

theorem filterM_eq_nil {α : Type} {p : α → Except Exn Bool} {xs : List α}
    (h : xs.filterM p = .ok []) : ∀ x ∈ xs, p x = .ok false := by
  unfold List.filterM at h
  rcases Except.bind_eq_ok_iff.mp h with ⟨kept, hkept, h⟩
  rw [List.reverse_eq_nil_iff.mp (Except.pure_eq_ok_iff.mp h)] at hkept
  exact (filterAuxM_eq_nil hkept).2

/-- An approval that is not reported as changed is of the given artifact. -/
theorem digest_of_unchanged {given : Dict Str Json} {field : Str} {a : Approval} {current : Json}
    (hget : given.get? field = some current) (hnull : current ≠ .null)
    (h : approvalChanged rt given decisions (storedById rt decisions) field a = .ok false) :
    artifactDigest rt current = .ok a.digest := by
  rcases @approvalChanged_cases rt given decisions field a current hget hnull with ⟨_, -, heq⟩
  rw [heq] at h
  rcases Except.bind_eq_ok_iff.mp h with ⟨now, hnow, h⟩
  rcases Except.bind_eq_ok_iff.mp h with ⟨same, hsame, h⟩
  cases same with
  | false => cases Except.ok.inj h
  | true =>
      rw [hnow, compareDigest_true hsame]

/-- The last approval of an artifact in a trail that is reported as ok is of the given artifact. -/
theorem lastApproval_unchanged {given : Dict Str Json} {v : Verification}
    (h : verifyTrail rt environ trail anchor (some given) decisions = .ok v)
    (hok : v.status = .ok) {field : Str} {e : Entry} (he : LastApprovalOf rt trail field e)
    {current : Json} (hget : given.get? field = some current) (hnull : current ≠ .null) :
    artifactDigest rt current = .ok (fieldText rt e (lit "artifact_digest")) := by
  rcases lastApprovals_of_last he with ⟨a, ha, hdigest⟩
  rw [← hdigest]
  rcases contentCheck_of_ok h hok with hnil | ⟨first, anchored, keyed, hcontent⟩
  · rw [hnil] at ha
    cases ha
  unfold contentCheck at hcontent
  rcases Except.bind_eq_ok_iff.mp hcontent with ⟨changed, hchanged, hcontent⟩
  rcases Except.bind_eq_ok_iff.mp hcontent with ⟨problems, -, hcontent⟩
  have hnone : changed = [] := by
    by_contra hne
    rw [if_pos hne] at hcontent
    rw [← Except.ok.inj hcontent] at hok
    cases hok
  rw [hnone] at hchanged
  unfold artifactCheck changedSinceApproval at hchanged
  rcases Except.bind_eq_ok_iff.mp hchanged with ⟨kept, hkept, hmap⟩
  have hnil : kept = [] := List.map_eq_nil_iff.mp (Except.ok.inj hmap)
  rw [hnil] at hkept
  have hsame := filterM_eq_nil hkept (field, a) (Dict.mem_of_get? ha)
  exact digest_of_unchanged hget hnull hsame

end Trail

namespace Exports

open Trail Json

variable {rt : Runtime} {co : Coercions} {env : Env} {anchor : Anchor}

/-! ## Labels -/

/-- The entry is an approval of the gate of a phase. -/
def ApprovesGate (p : Phase) (e : Entry) : Prop :=
  fieldIs e (lit "action") (lit "gate_approval") = true ∧
    fieldIs e (lit "gate") p.gateLabel = true

/-- A trail with an approval of the gate of a phase that records the digest of the artifact. -/
def BackedBy (rt : Runtime) (trail : List Entry) (p : Phase) (artifact : Json) : Prop :=
  ∃ e ∈ trail, ApprovesGate p e ∧
    artifactDigest rt artifact = .ok (fieldText rt e (lit "artifact_digest"))

/-- The statuses in which the artifact of a phase is not called approved. -/
def openStatuses (p : Phase) : List Str :=
  [lit "QA_REJECTED_PHASE_" ++ p.digits, lit "RUNNING_PHASE_" ++ p.digits,
    lit "ERROR_PHASE_" ++ p.digits, lit "WAITING_HUMAN_GATE_" ++ p.digits]

theorem artifactState_approved_iff {status : Str} {p : Phase} :
    artifactState status p = lit "Approved at Gate " ++ p.digits ↔ status ∉ openStatuses p := by
  unfold artifactState openStatuses
  simp only [List.mem_cons, List.not_mem_nil, or_false, not_or]
  by_cases hqa : status = lit "QA_REJECTED_PHASE_" ++ p.digits
  · rw [if_pos hqa]
    refine iff_of_false ?_ fun h => h.1 hqa
    cases p <;> decide
  rw [if_neg hqa]
  by_cases hrun : status = lit "RUNNING_PHASE_" ++ p.digits ∨
      status = lit "ERROR_PHASE_" ++ p.digits
  · rw [if_pos hrun]
    refine iff_of_false ?_ fun h => ?_
    · cases p <;> decide
    · rcases hrun with hrun | herror
      · exact h.2.1 hrun
      · exact h.2.2.1 herror
  rw [if_neg hrun]
  by_cases hwait : status = lit "WAITING_HUMAN_GATE_" ++ p.digits
  · rw [if_pos hwait]
    refine iff_of_false ?_ fun h => h.2.2.2 hwait
    cases p <;> decide
  rw [if_neg hwait]
  exact iff_of_true rfl ⟨hqa, fun h => hrun (.inl h), fun h => hrun (.inr h), hwait⟩

theorem approved_not_open {inp : Oscal.Inputs} (h : inp.approved = true) :
    inp.sessionStatus ∉ openStatuses .reporting := by
  have hstatus : inp.sessionStatus = lit "COMPLETED" := of_decide_eq_true h
  rw [hstatus]
  decide

theorem load_eq_ok {sessions : Sessions} {anchors : AnchorsFile} {live : Option AuditFlow}
    {id : Str} {f : AuditFlow} {v : Verification}
    (h : load rt co env sessions anchors live id = .ok (f, v)) :
    (live = some f ∨ live = none ∧ ∃ loaded,
        FlowRepository.load rt co env sessions id = .ok (some loaded) ∧ loaded.flow = f) ∧
      f.verifyTrail rt env.environ (anchors.getTrailAnchor id) = .ok v := by
  unfold load at h
  rcases Except.bind_eq_ok_iff.mp h with ⟨_, -, h⟩
  rcases Except.bind_eq_ok_iff.mp h with ⟨flow, hflow, h⟩
  rcases Except.bind_eq_ok_iff.mp h with ⟨found, hfound, h⟩
  rcases Except.bind_eq_ok_iff.mp h with ⟨v', hv, h⟩
  cases Except.ok.inj h
  rw [Except.mapError_eq_ok_iff] at hflow
  rw [Except.orRaise_eq_ok_iff] at hfound
  rw [hfound] at hflow
  constructor
  · cases live with
    | some g => exact .inl (Except.ok.inj hflow)
    | none =>
        rcases Except.map_eq_ok_iff.mp hflow with ⟨loaded, hloaded, hsome⟩
        rcases Option.map_eq_some_iff.mp hsome with ⟨found, rfl, hf⟩
        exact .inr ⟨rfl, found, hloaded, hf⟩
  · unfold verifiedTrail at hv
    rcases Except.bind_eq_ok_iff.mp hv with ⟨w, hw, hv⟩
    rcases Except.bind_eq_ok_iff.mp hv with ⟨_, -, hv⟩
    cases Except.ok.inj hv
    exact Except.mapError_eq_ok_iff.mp hw

/-! ## Flows of runs -/

theorem gateLabel_injective {p q : Phase} (h : p.gateLabel = q.gateLabel) : p = q := by
  cases p <;> cases q <;> first | rfl | exact absurd h (by decide)

/-- A closed gate was approved with the artifact the flow has. -/
theorem backedBy_of_closed {f : AuditFlow} (hf : AuditFlow.ApprovalsBacked rt f) {p : Phase}
    {artifact : Json} (hartifact : f.state.artifact p = some artifact)
    (hclosed : p ∈ f.machine.status.closedGates) :
    BackedBy rt (f.state.approvalTrail.map StrEntry.toEntry) p artifact := by
  have hgate : some p.gateLabel ∈ AuditFlow.approvedGates f.state.approvalTrail := by
    rw [hf.gates.gates]
    exact List.mem_map_of_mem hclosed
  rcases List.mem_map.mp hgate with ⟨e, he, hlabel⟩
  rcases List.mem_filter.mp he with ⟨he, happroval⟩
  rcases hf.approved e he happroval with ⟨q, hq⟩
  have hpq : q = p := gateLabel_injective (Option.some.inj (hq.gate.symm.trans hlabel))
  rcases hq.digest with ⟨artifact', digest, hartifact', hdigest, hget⟩
  rw [hpq, hartifact, Option.some.injEq] at hartifact'
  refine ⟨e.toEntry, List.mem_map_of_mem he, ⟨?_, ?_⟩, ?_⟩
  · rw [fieldIs_toEntry]
    exact happroval
  · rw [fieldIs_toEntry, hlabel]
    exact decide_eq_true rfl
  · rw [fieldText_toEntry, Dict.getD, hget, Option.getD_some, hartifact']
    exact hdigest

/-- In a status that is none of the four of a phase, the artifact there is was approved. -/
theorem backedBy_of_status {f : AuditFlow} (hf : AuditFlow.ApprovalsBacked rt f) {p : Phase}
    {artifact : Json} (hartifact : f.state.artifact p = some artifact)
    (hstatus : f.state.status ∉ openStatuses p) :
    BackedBy rt (f.state.approvalTrail.map StrEntry.toEntry) p artifact := by
  apply backedBy_of_closed hf hartifact
  have hreached := hf.drafted p (AuditFlow.storedModel_ne_none hartifact)
  rcases AuditStatus.ofPhase_or_closed hreached with hphase | hclosed
  · refine absurd ?_ hstatus
    have hmirrored : f.state.status = f.machine.status.value := hf.gates.mirrored
    rw [hmirrored]
    unfold openStatuses
    rcases hphase with h | h | h | h
    · rw [h]
      exact List.mem_cons_of_mem _ List.mem_cons_self
    · rw [h]
      exact List.mem_cons_of_mem _ (List.mem_cons_of_mem _
        (List.mem_cons_of_mem _ List.mem_cons_self))
    · rw [h]
      exact List.mem_cons_self
    · rw [h]
      exact List.mem_cons_of_mem _ (List.mem_cons_of_mem _ List.mem_cons_self)
  · exact hclosed

/-- The flow an export is made of, where `get_flow` returns a flow of a run, or nothing while the
session holds what was saved of one. -/
theorem approvalsBacked_of_load (hrt : LowersAscii rt) {f : AuditFlow}
    (hf : AuditFlow.Stamping rt co f) {sessions : Sessions} {anchors : AnchorsFile}
    {live : Option AuditFlow} {id : Str}
    (hserved : live = some f ∨
      live = none ∧ ∃ before, FlowRepository.save co before id f = some sessions)
    {g : AuditFlow} {v : Verification}
    (hload : load rt co env sessions anchors live id = .ok (g, v)) :
    AuditFlow.ApprovalsBacked rt g := by
  rcases (load_eq_ok hload).1 with hlive | ⟨hlive, loaded, hloaded, rfl⟩
  · rcases hserved with hserved | ⟨hserved, -⟩
    · rw [hserved, Option.some.injEq] at hlive
      rw [← hlive]
      exact hf.approvalsBacked hrt
    · rw [hserved] at hlive
      cases hlive
  · rcases hserved with hserved | ⟨-, before, hsave⟩
    · rw [hserved] at hlive
      cases hlive
    · exact (AuditFlow.Stamping.reload hf hsave hloaded).approvalsBacked hrt

/-- Whatever a session holds, an export that is verified as ok has the artifact its last approval
records. -/
theorem verified_approval_digest {sessions : Sessions} {anchors : AnchorsFile}
    {live : Option AuditFlow} {id : Str} {f : AuditFlow} {v : Verification} {p : Phase}
    {artifact : Json} {e : Entry} (hload : load rt co env sessions anchors live id = .ok (f, v))
    (hok : v.status = .ok) (hartifact : f.state.artifact p = some artifact)
    (hlast : LastApprovalOf rt (f.state.approvalTrail.map StrEntry.toEntry) p.artifactField e) :
    artifactDigest rt artifact = .ok (fieldText rt e (lit "artifact_digest")) :=
  lastApproval_unchanged (load_eq_ok hload).2 hok hlast (AuditFlow.artifacts_get? hartifact)
    (AuditFlow.artifact_ne_null hartifact)

/-- An export whose verification is ok has the artifact its last approval records.  Where a run has
led to the flow, live or saved, the export calls an artifact approved, and the classifications
approved with the report, only over an approval of the gate that records the digest of this
artifact. -/
theorem approved_label_backed (rt : Runtime) (hrt : LowersAscii rt) (co : Coercions) (env : Env)
    (sessions : Sessions) (anchors : AnchorsFile) (live : Option AuditFlow) (id : Str)
    (g : AuditFlow) (v : Verification)
    (hload : load rt co env sessions anchors live id = .ok (g, v)) (p : Phase) (artifact : Json)
    (hartifact : g.state.artifact p = some artifact) :
    (v.status = .ok → ∀ e,
      LastApprovalOf rt (g.state.approvalTrail.map StrEntry.toEntry) p.artifactField e →
        artifactDigest rt artifact = .ok (fieldText rt e (lit "artifact_digest"))) ∧
      ∀ f, AuditFlow.Stamping rt co f →
        (live = some f ∨
          live = none ∧ ∃ before, FlowRepository.save co before id f = some sessions) →
        (artifactState g.state.status p = lit "Approved at Gate " ++ p.digits →
            BackedBy rt (g.state.approvalTrail.map StrEntry.toEntry) p artifact) ∧
          (p = .reporting → ∀ inp : Oscal.Inputs, inp.sessionStatus = g.state.status →
            inp.approved = true →
              BackedBy rt (g.state.approvalTrail.map StrEntry.toEntry) p artifact) := by
  constructor
  · intro hok e hlast
    exact verified_approval_digest hload hok hartifact hlast
  intro f hf hserved
  have hbacked := approvalsBacked_of_load hrt hf hserved hload
  constructor
  · intro hlabel
    exact backedBy_of_status hbacked hartifact (artifactState_approved_iff.mp hlabel)
  · rintro rfl inp hstatus happroved
    refine backedBy_of_status hbacked hartifact ?_
    rw [← hstatus]
    exact approved_not_open happroved

/-! ## A session no run led to -/

namespace Sample

/-- A completed session with a matrix and without a trail. -/
def unapprovedSnapshot : Dict Str Json :=
  [(lit "status", .str (lit "COMPLETED")),
    (lit "racm_plan", .obj [(lit "theme", .str (lit "Access")), (lit "risks", .arr [])])]

def unapproved : Sessions := [(lit "s1", [(lit "state_snapshot", .obj unapprovedSnapshot)])]

/-- The flow of an audit from its start to its completion. -/
def completedFlow : AuditFlow :=
  AuditFlow.after AuditSwarm.Sample.rt AuditSwarm.Sample.fresh AuditSwarm.Sample.completed

end Sample

/-- The matrix of this session is exported as approved, although nothing was approved. -/
theorem unapproved_label :
    ∃ f v artifact, load AuditSwarm.Sample.rt AuditSwarm.Sample.coercions
        (AuditSwarm.Sample.smallEnv "u1") Sample.unapproved .missing none (lit "s1") = .ok (f, v) ∧
      f.state.artifact .planning = some artifact ∧
      artifactState f.state.status .planning = lit "Approved at Gate 1" ∧
      ¬ BackedBy AuditSwarm.Sample.rt (f.state.approvalTrail.map StrEntry.toEntry) .planning
        artifact := by
  refine ⟨_, _, _, rfl, rfl, rfl, ?_⟩
  rintro ⟨e, he, -⟩
  cases he

/-! ## A completed audit -/

theorem stamping_completed :
    AuditFlow.Stamping AuditSwarm.Sample.rt AuditSwarm.Sample.coercions Sample.completedFlow := by
  have hdigest := AuditFlow.digestsSucceed_completed.left
  exact LabelledRun.invariant (AuditFlow.step AuditSwarm.Sample.rt)
    (P := fun t => ∀ c, t.result ≠ .error (.digest c))
    (fun f c hc hf => .call c hf hc) hdigest (.fresh _ _ _ _)

/-- The report of a completed audit is exported as approved, from what was saved of it. -/
theorem approved_label_backed_completed :
    ∃ g v artifact,
      load AuditSwarm.Sample.rt AuditSwarm.Sample.coercions (AuditSwarm.Sample.smallEnv "u1")
        (AuditSwarm.Sample.savedSession Sample.completedFlow) .missing none (lit "s1") =
          .ok (g, v) ∧
      g.state.artifact .reporting = some artifact ∧
      artifactState g.state.status .reporting = lit "Approved at Gate 3" ∧
      BackedBy AuditSwarm.Sample.rt (g.state.approvalTrail.map StrEntry.toEntry) .reporting
        artifact := by
  have hrt : LowersAscii AuditSwarm.Sample.rt := lowersAscii_ascii _
  have hexported : (load AuditSwarm.Sample.rt AuditSwarm.Sample.coercions
      (AuditSwarm.Sample.smallEnv "u1") (AuditSwarm.Sample.savedSession Sample.completedFlow)
      .missing none (lit "s1")).map
        (fun x => (x.1.state.status, (x.1.state.artifact .reporting).isSome)) =
      .ok (lit "COMPLETED", true) := by
    decide +kernel
  rcases Except.map_eq_ok_iff.mp hexported with ⟨⟨g, v⟩, hload, heq⟩
  rw [Prod.mk.injEq] at heq
  rcases Option.isSome_iff_exists.mp heq.2 with ⟨artifact, hartifact⟩
  have hlabel : artifactState g.state.status .reporting = lit "Approved at Gate 3" := by
    rw [show g.state.status = lit "COMPLETED" from heq.1]
    decide
  refine ⟨g, v, artifact, hload, hartifact, hlabel, ?_⟩
  exact ((approved_label_backed AuditSwarm.Sample.rt hrt AuditSwarm.Sample.coercions
    (AuditSwarm.Sample.smallEnv "u1") (AuditSwarm.Sample.savedSession Sample.completedFlow)
    .missing none (lit "s1") g v hload .reporting artifact hartifact).2
    Sample.completedFlow stamping_completed
    (.inr ⟨rfl, _, AuditSwarm.Sample.save_session Sample.completedFlow⟩)).1 hlabel

end Exports

end AuditSwarm
