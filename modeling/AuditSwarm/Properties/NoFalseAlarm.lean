import AuditSwarm.Model.Verification
import AuditSwarm.Properties.AcceptedDecisions
import AuditSwarm.Properties.AnchoredChain
import AuditSwarm.Properties.VerificationReturns
import AuditSwarm.Run.Approvals
import AuditSwarm.Run.OwnTrail

/-!
# No false alarm

Whatever a flow has been through, the verification of its own trail reports nothing: the chain
holds, the anchors taken earlier are met, the approved artifacts are those that were approved, and
the decisions are those that were recorded.
-/

namespace AuditSwarm

open Python StrEnum Decisions

namespace Trail

variable {rt : Runtime} {environ : Environ}

/-! ## Decisions that match the trail -/

@[simp] theorem fieldText_decision_id (d : ReviewDecision) :
    fieldText rt (decisionFields d.toJson) (lit "decision_id") = d.decisionId := by
  simp [fieldText, decisionFields, ReviewDecision.toJson, Dict.getD, Dict.get?_cons]

theorem compareDigest_of_digest {j : Json} {digest : Str} (h : artifactDigest rt j = .ok digest) :
    compareDigest digest digest = .ok true :=
  compareDigest_self (isAscii_artifactDigest h)

theorem decisionProblem_of_recorded {recorded : Dict Str Str} {d : ReviewDecision} {digest : Str}
    (hget : recorded.get? d.decisionId = some digest)
    (hdigest : artifactDigest rt d.toJson = .ok digest) :
    decisionProblem rt recorded d.toJson = .ok none := by
  have hobj : Json.obj (decisionFields d.toJson) = d.toJson := rfl
  unfold decisionProblem
  dsimp only
  rw [fieldText_decision_id, hget, hobj]
  dsimp only
  rw [hdigest, Except.ok_bind, compareDigest_of_digest hdigest]
  rfl

/-- No decision is reported when each is recorded by its digest, and nothing else is. -/
theorem decisionsChanged_of_recorded {trail : List Entry} {decisions : List ReviewDecision}
    (hrecorded : ∀ d ∈ decisions, ∃ digest,
      (recordedDigests rt trail).get? d.decisionId = some digest ∧
        artifactDigest rt d.toJson = .ok digest)
    (hkeys : ∀ kv ∈ recordedDigests rt trail, ∃ d ∈ decisions, d.decisionId = kv.1) :
    decisionsChanged rt trail (decisions.map ReviewDecision.toJson) = .ok [] := by
  have hproblems : (decisions.map ReviewDecision.toJson).mapM
      (decisionProblem rt (recordedDigests rt trail)) = .ok (decisions.map fun _ => none) := by
    rw [Except.mapM_eq_ok_iff, List.forall₂_map_left_iff, List.forall₂_map_right_iff,
      List.forall₂_same]
    intro d hd
    rcases hrecorded d hd with ⟨digest, hget, hdigest⟩
    exact decisionProblem_of_recorded hget hdigest
  have hremoved : (recordedDigests rt trail).filter (fun kv =>
      !((decisions.map ReviewDecision.toJson).map fun d =>
        fieldText rt (decisionFields d) (lit "decision_id")).contains kv.1) = [] := by
    rw [List.filter_eq_nil_iff]
    intro kv hkv
    rcases hkeys kv hkv with ⟨d, hd, hid⟩
    rw [Bool.not_eq_true, Bool.not_eq_false', List.contains_iff_mem, List.map_map]
    refine List.mem_map.mpr ⟨d, hd, ?_⟩
    rw [← hid]
    exact fieldText_decision_id d
  unfold decisionsChanged
  dsimp only
  rw [hproblems, Except.ok_bind, hremoved]
  have hnone : ((decisions.map fun _ => (none : Option Str)).filterMap id) = [] := by
    rw [List.filterMap_eq_nil_iff]
    intro x hx
    rcases List.mem_map.mp hx with ⟨d, -, rfl⟩
    rfl
  rw [hnone]
  rfl

theorem nodup_recordedDigests (trail : List Entry) :
    ((recordedDigests rt trail).map Prod.fst).Nodup := by
  unfold recordedDigests
  induction trail using List.reverseRecOn with
  | nil => exact List.nodup_nil
  | append_singleton trail e ih =>
      rw [List.foldl_append, List.foldl_cons, List.foldl_nil]
      split
      · exact Dict.nodup_keys_set ih _ _
      · exact ih

/-! ## Approvals that match the artifacts -/

theorem nodup_scanned (trail : List Entry) :
    ((scanned rt trail).latest.map Prod.fst).Nodup := by
  induction trail using List.reverseRecOn with
  | nil => exact List.nodup_nil
  | append_singleton trail e ih =>
      rw [scanned_concat]
      unfold approvalScan
      split
      · split
        · exact ih
        · exact ih
      · split
        · exact Dict.nodup_keys_set ih _ _
        · exact ih

theorem storedById_get? {decisions : List ReviewDecision}
    (hids : (decisions.map (·.decisionId)).Nodup) {d : ReviewDecision} (hd : d ∈ decisions) :
    (storedById rt (some (decisions.map ReviewDecision.toJson))).get? d.decisionId =
      some (decisionFields d.toJson) := by
  unfold storedById
  rw [Option.getD_some, List.foldl_map]
  simp only [fieldText_decision_id]
  induction decisions using List.reverseRecOn with
  | nil => cases hd
  | append_singleton decisions last ih =>
      rw [List.map_append, List.nodup_append] at hids
      rw [List.foldl_append, List.foldl_cons, List.foldl_nil]
      rcases List.mem_append.mp hd with hd | hd
      · have hne : d.decisionId ≠ last.decisionId :=
          hids.2.2 _ (List.mem_map_of_mem hd) _ List.mem_cons_self
        rw [Dict.get?_set_of_ne _ _ hne]
        exact ih hids.1 hd
      · rw [List.mem_singleton.mp hd, Dict.get?_set_self]

theorem mapM_storedById {decisions ds : List ReviewDecision}
    (hids : (decisions.map (·.decisionId)).Nodup) (hds : ∀ d ∈ ds, d ∈ decisions) :
    (ds.map (·.decisionId)).mapM
        (storedById rt (some (decisions.map ReviewDecision.toJson))).get? =
      some (ds.map fun d => decisionFields d.toJson) := by
  induction ds with
  | nil => rfl
  | cons d ds ih =>
      rw [List.map_cons, List.mapM_cons, storedById_get? hids (hds d List.mem_cons_self),
        ih fun d' hd' => hds d' (List.mem_cons_of_mem _ hd')]
      rfl

/-- An approval of the current artifact is as good as the seal of its decisions. -/
theorem approvalChanged_of_same {artifacts : Dict Str Json} {decisions : Option (List Json)}
    {field : Str} {a : Approval} {current : Json} (hget : artifacts.get? field = some current)
    (hnull : current ≠ .null) (hdigest : artifactDigest rt current = .ok a.digest) :
    approvalChanged rt artifacts decisions (storedById rt decisions) field a =
      sealChanged rt decisions a := by
  have hsame := compareDigest_of_digest hdigest
  unfold approvalChanged sealChanged
  rw [hget]
  cases current with
  | null => exact absurd rfl hnull
  | _ =>
      dsimp only
      rw [hdigest, Except.ok_bind, hsame, Except.ok_bind]
      cases a.sealedDigest with
      | none => rfl
      | some sealed =>
          cases decisions with
          | none => rfl
          | some ds => rfl

theorem sealChanged_of_held {a : Approval} {decisions : List ReviewDecision}
    (hids : (decisions.map (·.decisionId)).Nodup)
    (h : ∀ digest, a.sealedDigest = some digest → ∃ ds : List ReviewDecision,
      (∀ d ∈ ds, d ∈ decisions) ∧ a.ids = ds.map (·.decisionId) ∧
        decisionsDigest rt (ds.map ReviewDecision.toJson) = .ok digest) :
    sealChanged rt (some (decisions.map ReviewDecision.toJson)) a = .ok false := by
  unfold sealChanged
  cases hsealed : a.sealedDigest with
  | none => rfl
  | some digest =>
      rcases h digest hsealed with ⟨ds, hds, hmap, hdigest⟩
      have hobj : (ds.map fun d => decisionFields d.toJson).map Json.obj =
          ds.map ReviewDecision.toJson := by
        rw [List.map_map]
        rfl
      dsimp only
      rw [hmap, mapM_storedById hids hds]
      dsimp only
      rw [hobj, hdigest, Except.ok_bind, compareDigest_of_digest hdigest]
      rfl

theorem filterAuxM_of_false {α : Type} {p : α → Except Exn Bool} {xs acc : List α}
    (h : ∀ x ∈ xs, p x = .ok false) : List.filterAuxM p xs acc = .ok acc := by
  induction xs with
  | nil => rfl
  | cons x xs ih =>
      unfold List.filterAuxM
      rw [h x List.mem_cons_self]
      exact ih fun y hy => h y (List.mem_cons_of_mem _ hy)

theorem filterM_of_false {α : Type} {p : α → Except Exn Bool} {xs : List α}
    (h : ∀ x ∈ xs, p x = .ok false) : xs.filterM p = .ok [] := by
  unfold List.filterM
  rw [filterAuxM_of_false h]
  rfl

end Trail

namespace AuditFlow

variable {rt : Runtime} {environ : Environ} {f : AuditFlow}

theorem artifactCheck_of_held (hids : (f.state.reviewDecisions.map (·.decisionId)).Nodup)
    (h : ApprovalsHeld rt f) :
    Trail.artifactCheck rt (f.state.approvalTrail.map StrEntry.toEntry) (some f.artifacts)
      (some (f.state.reviewDecisions.map ReviewDecision.toJson)) = .ok [] := by
  have hall : ∀ kv ∈ (scan rt f).latest,
      Trail.approvalChanged rt f.artifacts
        (some (f.state.reviewDecisions.map ReviewDecision.toJson))
        (Trail.storedById rt (some (f.state.reviewDecisions.map ReviewDecision.toJson))) kv.1 kv.2 =
          .ok false := by
    intro kv hkv
    rcases h.latest kv.1 kv.2 ((Dict.mem_iff_get? (Trail.nodup_scanned _)).mp hkv) with
      ⟨p, artifact, hheld⟩
    have hget : f.artifacts.get? kv.1 = some artifact := by
      rw [hheld.field_eq]
      exact artifacts_get? hheld.artifact_eq
    rw [Trail.approvalChanged_of_same hget (artifact_ne_null hheld.artifact_eq)
      hheld.digest]
    exact Trail.sealChanged_of_held hids hheld.sealHeld
  have hnone := Trail.filterM_of_false hall
  unfold Trail.artifactCheck Trail.changedSinceApproval
  exact congrArg (fun x => x >>= fun changed : List (Str × Trail.Approval) =>
    Except.ok (changed.map fun kv => kv.2.gate)) hnone

theorem decisionCheck_of_recorded (h : DecisionsRecorded rt f) :
    Trail.decisionCheck rt (f.state.approvalTrail.map StrEntry.toEntry)
      (some (f.state.reviewDecisions.map ReviewDecision.toJson)) = .ok [] := by
  refine Trail.decisionsChanged_of_recorded (fun d hd => ?_) fun kv hkv => ?_
  · rcases h.digested d hd with ⟨digest, hdigest⟩
    exact ⟨digest, (h.recorded d.decisionId digest).mpr ⟨d, hd, rfl, hdigest⟩, hdigest⟩
  · have hget := (Dict.mem_iff_get? (Trail.nodup_recordedDigests _)).mp hkv
    rcases (h.recorded kv.1 kv.2).mp hget with ⟨d, hd, hid, -⟩
    exact ⟨d, hd, hid⟩

/-! ## The anchors of a run -/

/-- The trail of a flow only ever grew, under one key setting. -/
theorem builtUnder_step {c : Call} (henv : c.env.environ = environ)
    (hf : Trail.BuiltUnder rt environ f.state.approvalTrail) :
    Trail.BuiltUnder rt environ (step rt f c).2.state.approvalTrail := by
  rcases c with ⟨env, op⟩
  cases op with
  | record a =>
      have hact : act rt env a f = ((act rt env a f).1, (act rt env a f).2) := rfl
      show Trail.BuiltUnder rt environ (act rt env a f).2.state.approvalTrail
      rcases act_entry hact with ⟨err, -, -, hg⟩ | ⟨k, err, hk, hseal, hr, hg⟩ |
        ⟨k, e, hk, he, -, hg⟩
      · rw [hg]
        exact hf
      · rw [hg]
        cases a <;> exact hf
      · rcases he.appended with ⟨entry, happended⟩
        rw [hg, act_trail]
        rw [henv] at happended
        exact hf.append happended
  | beginPhase1 =>
      have hstep : step rt f ⟨env, .beginPhase1⟩ = beginPhase1.exec f := rfl
      rcases exec_beginPhase1 f with ⟨-, h⟩ | ⟨_, _, h⟩
      · rw [hstep, h]
        exact hf
      · rw [hstep, h]
        exact hf
  | generate q =>
      rcases @generate_cases rt env f _ _ q rfl with ⟨e, -, h⟩ | ⟨-, ks, -, hframe, -⟩
      · rw [show (step rt f ⟨env, .generate q⟩).2 = f from h]
        exact hf
      · have htrail : (step rt f ⟨env, .generate q⟩).2.state.approvalTrail =
            f.state.approvalTrail := hframe.trail
        rw [htrail]
        exact hf

theorem trail_after (f : AuditFlow) (calls : List Call) :
    f.state.approvalTrail <+: (after rt f calls).state.approvalTrail :=
  LabelledRun.invariant' (step rt)
    (I := fun g => f.state.approvalTrail <+: g.state.approvalTrail)
    (fun g c h => h.trans (trail_step g c)) calls (List.prefix_refl _)

theorem isAscii_lastHash {trail : List StrEntry} {key : Option Bytes}
    (h : Trail.OwnChain rt environ key trail) : isAscii (Trail.lastHash trail) = true := by
  unfold Trail.lastHash
  cases hlast : trail.getLast? with
  | none => rfl
  | some last =>
      have hmem : last.toEntry ∈ trail.map StrEntry.toEntry :=
        List.mem_map_of_mem (List.mem_of_getLast? hlast)
      rcases h.linked.checked hmem with ⟨prev, alg, hchecked⟩
      have hascii := hchecked.isAscii_hash
      rw [Trail.entryHash, Trail.fieldText_toEntry] at hascii
      exact hascii

theorem anchorMet_of_prefix {trail more : List StrEntry}
    (hpre : trail <+: more) (h : Trail.BuiltUnder rt environ trail) :
    Trail.AnchorMet rt (more.map StrEntry.toEntry) trail.length (Trail.lastHash trail) := by
  by_cases hnil : trail = []
  · rw [hnil]
    exact .inl rfl
  · right
    rcases h.key_eq hnil with ⟨key, hkey⟩
    refine ⟨?_, isAscii_lastHash (h.ownChain hkey), ?_⟩
    · rw [List.length_map]
      exact hpre.length_le
    · rcases hpre with ⟨rest, rfl⟩
      have hpos := List.length_pos_iff.mpr hnil
      rw [List.getElem?_map, List.getElem?_append_left (by omega), ← List.getLast?_eq_getElem?,
        Option.map_map]
      unfold Trail.lastHash
      have hhash : Trail.entryHash rt ∘ StrEntry.toEntry =
          fun e : StrEntry => e.getD (lit "entry_hash") [] :=
        funext fun e => Trail.fieldText_toEntry e _
      rw [hhash]

/-! ## The property -/

/-- What holds at every point of a run under one key setting. -/
structure Untampered (rt : Runtime) (environ : Environ) (f : AuditFlow) : Prop where
  trail : Trail.BuiltUnder rt environ f.state.approvalTrail
  approvals : ApprovalsHeld rt f
  gates : GateInv f

theorem untampered_after {f : AuditFlow} {calls : List Call} (hints : ReadsPhases rt)
    (henv : ∀ c ∈ calls, c.env.environ = environ) (hdigest : DigestsSucceed rt f calls)
    (hf : Untampered rt environ f) : Untampered rt environ (after rt f calls) := by
  refine LabelledRun.invariant (step rt) (P := fun t => t.label.env.environ = environ ∧
    ∀ c, t.result ≠ .error (.digest c)) (fun g c hstep hg => ?_) (fun t ht => ?_) hf
  · exact ⟨builtUnder_step hstep.1 hg.trail,
      approvalsHeld_step hints hstep.2 hg.gates hg.approvals, gateInv_step hstep.2 hg.gates⟩
  · refine ⟨henv t.label ?_, hdigest t ht⟩
    rw [← @trace_labels rt f calls]
    exact List.mem_map_of_mem ht

/-- A call whose digests could be computed stamped the decision it recorded. -/
theorem stamps_of_digest {c : Call} (hdigest : ∀ cause, (step rt f c).1 ≠ .error (.digest cause)) :
    StampsDecision rt f c := by
  intro req hop d hd
  rcases c with ⟨env, op⟩
  cases hop
  have hact : act rt env (.recordDecision req) f =
      ((act rt env (.recordDecision req) f).1, (act rt env (.recordDecision req) f).2) := rfl
  rcases act_entry hact with ⟨err, hcheck, -, -⟩ | ⟨k, err, hk, hseal, hr, -⟩ | ⟨k, e, hk, he, -, -⟩
  · cases hcheck.symm.trans hd
  · exfalso
    rcases sealOf_cases hk ((recorded rt env (.recordDecision req)).mutate k f) with
      ⟨cause, hcause⟩ | ⟨e, he, -⟩
    · rw [hseal] at hcause
      rw [Except.error.inj hcause] at hr
      exact hdigest cause hr
    · cases hseal.symm.trans he
  · cases Except.ok.inj (hk.symm.trans hd)
    exact ⟨e, he.sealed⟩

theorem untampered_fresh (theme businessContext : Str) (frameworks : List Str)
    (sessionId : Option Str) :
    Untampered rt environ (.fresh theme businessContext frameworks sessionId) where
  trail := .nil
  approvals := approvalsHeld_fresh theme businessContext frameworks sessionId
  gates := gateInv_fresh theme businessContext frameworks sessionId

/-- In every run of a flow under one key setting in which no digest fails to be computed, after
every call and against the anchor of every earlier point, the verification of the flow's own trail,
artifacts and decisions reports nothing. -/
theorem no_false_alarm (rt : Runtime) (hints : ReadsPhases rt) (environ : Environ)
    (theme businessContext : Str) (frameworks : List Str) (sessionId : Option Str)
    (past calls : List Call)
    (henv : ∀ c ∈ past ++ calls, c.env.environ = environ) (hfresh : FreshIds (past ++ calls))
    (hnamed : NamedIds (past ++ calls))
    (hdigest : DigestsSucceed rt (.fresh theme businessContext frameworks sessionId)
      (past ++ calls)) :
    ∃ v, (after rt (.fresh theme businessContext frameworks sessionId)
        (past ++ calls)).verifyTrail rt environ
          (Trail.anchorOf (after rt (.fresh theme businessContext frameworks sessionId)
            past).state.approvalTrail) = .ok v ∧ Trail.Clean v := by
  have hstart := @untampered_fresh rt environ theme businessContext frameworks sessionId
  have hpast := untampered_after hints (fun c hc => henv c (List.mem_append_left _ hc))
    hdigest.left hstart
  have hnow := untampered_after hints henv hdigest hstart
  have hrecorded := decisionsRecorded_run theme businessContext frameworks sessionId hfresh hnamed
    fun t ht => stamps_of_digest fun cause => by
      rw [← result_of_mem_trace ht]
      exact hdigest t ht cause
  have hids : ((after rt (.fresh theme businessContext frameworks sessionId)
      (past ++ calls)).state.reviewDecisions.map (·.decisionId)).Nodup :=
    (decisionHistory_run theme businessContext frameworks sessionId hfresh).log.nodup
  have hpre : (after rt (.fresh theme businessContext frameworks sessionId)
      past).state.approvalTrail <+: (after rt (.fresh theme businessContext frameworks sessionId)
        (past ++ calls)).state.approvalTrail := by
    have hafter := LabelledRun.final_append (step rt)
      (.fresh theme businessContext frameworks sessionId) past calls
    unfold after
    rw [hafter]
    exact trail_after _ calls
  unfold verifyTrail
  refine hnow.trail.verify (Trail.anchorCount_anchorOf _) ?_
    (artifactCheck_of_held hids hnow.approvals) (decisionCheck_of_recorded hrecorded)
  rw [Trail.anchorHead_anchorOf]
  exact anchorMet_of_prefix hpre hpast.trail

/-- The completed audit, verified after its remediation against the anchor of its completion. -/
theorem no_false_alarm_completed :
    ∃ v, (after Sample.rt (.fresh (lit "Access") (lit "A bank") [] none)
        (Sample.completed ++ [Sample.verification])).verifyTrail Sample.rt (fun _ => none)
          (Trail.anchorOf (after Sample.rt (.fresh (lit "Access") (lit "A bank") [] none)
            Sample.completed).state.approvalTrail) = .ok v ∧ Trail.Clean v := by
  have henv : ∀ c ∈ Sample.completed ++ [Sample.verification], c.env.environ = fun _ => none :=
    List.forall_iff_forall_mem.mp ⟨rfl, rfl, rfl, rfl, rfl, rfl, rfl, rfl⟩
  have hfresh : FreshIds (Sample.completed ++ [Sample.verification]) := by decide +kernel
  have hnamed : NamedIds (Sample.completed ++ [Sample.verification]) := by decide +kernel
  exact no_false_alarm Sample.rt (fun p => by cases p <;> rfl) (fun _ => none) (lit "Access")
    (lit "A bank") [] none Sample.completed [Sample.verification] henv hfresh hnamed
    digestsSucceed_completed

end AuditFlow

end AuditSwarm
