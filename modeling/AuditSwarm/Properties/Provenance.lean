import AuditSwarm.Properties.GateEntry
import AuditSwarm.Properties.GateOrder
import AuditSwarm.Run.Records

/-!
# Generation provenance

A reviewer's entry names the generation run it acted on.  The entry looks up the latest run of the
phase; at a gate and after a rejection that run is the one whose last attempt produced the stored
artifact.
-/

namespace AuditSwarm

open Python StrEnum

namespace AuditFlow

variable {rt : Runtime} {env : Env} {f g : AuditFlow} {r : Except Exn Unit} {p : Phase}
variable {past : List (Transition AuditFlow Call (Except Exn Unit))}

/-! ## The run behind an artifact -/

/-- The step ran the phase, its record was appended, and its last crew attempt produced the
artifact. -/
structure Produced (rt : Runtime) (p : Phase) (t : Transition AuditFlow Call (Except Exn Unit))
    (run : GenerationRun) (a : PyModel) : Prop where
  call : t.label.op = .generate p
  recorded : RunRecorded t.label.env p run t.before t.after
  attempt : ∃ ks k qa, TwoKickoffs p t.before t.after ks ∧ ks.getLast? = some k ∧
    ReadAs rt p k qa (some a)

/-- The stored artifact of the phase is what the latest run of the phase produced. -/
def Backed (rt : Runtime) (past : List (Transition AuditFlow Call (Except Exn Unit))) (p : Phase)
    (f : AuditFlow) : Prop :=
  ∀ a, storedModel f.state p = some a →
    ∃ t ∈ past, ∃ run, Produced rt p t run a ∧ f.latestRunForPhase p = some run

/-- At a gate an artifact is stored; there and after a rejection it is backed. -/
structure GateBacked (rt : Runtime) (past : List (Transition AuditFlow Call (Except Exn Unit)))
    (f : AuditFlow) : Prop where
  stored : ∀ p, f.machine.status = .waitingHumanGate p → storedModel f.state p ≠ none
  backed : ∀ p, f.machine.status = .waitingHumanGate p ∨ f.machine.status = .qaRejected p →
    Backed rt past p f

theorem latestRunForPhase_congr (h : g.state.generationRuns = f.state.generationRuns) :
    g.latestRunForPhase p = f.latestRunForPhase p := by
  unfold latestRunForPhase
  rw [h]

theorem RunRecorded.latest {run : GenerationRun} (h : RunRecorded env p run f g) :
    g.latestRunForPhase p = some run := by
  unfold latestRunForPhase
  rw [h.appended, List.reverse_append]
  simp [h.phase]

theorem Backed.kept {t : Transition AuditFlow Call (Except Exn Unit)}
    (h : Backed rt past p f) (hstored : storedModel g.state p = storedModel f.state p)
    (hruns : g.state.generationRuns = f.state.generationRuns) : Backed rt (past ++ [t]) p g := by
  intro a ha
  obtain ⟨u, hu, run, hproduced, hlatest⟩ := h a (hstored ▸ ha)
  exact ⟨u, List.mem_append_left _ hu, run, hproduced,
    (latestRunForPhase_congr hruns).trans hlatest⟩

theorem getLast?_of_append {α : Type} {xs ks : List α} {k : α} (hne : ks ≠ [])
    (h : (xs ++ ks).getLast? = some k) : ks.getLast? = some k := by
  rw [List.getLast?_append] at h
  obtain ⟨b, hb⟩ : ∃ b, ks.getLast? = some b := ⟨_, List.getLast?_eq_some_getLast hne⟩
  rw [hb, Option.some_or] at h
  rw [hb, h]

/-- A recorded action comes to a gate only from the gate or from a rejection whose artifact is
stored, and to a rejection from nowhere else. -/
theorem act_gate {a : RecordedAction} (h : act rt env a f = (r, g)) :
    (∀ p, g.machine.status = .waitingHumanGate p →
      f.machine.status = .waitingHumanGate p ∨
        (f.machine.status = .qaRejected p ∧ storedModel f.state p ≠ none)) ∧
    ∀ p, g.machine.status = .qaRejected p → f.machine.status = .qaRejected p := by
  have hcases : g = f ∨ ∃ k, (recorded rt env a).check f = .ok k ∧
      g.machine = ((recorded rt env a).mutate k f).machine := by
    rcases act_cases h with ⟨err, -, -, rfl⟩ | ⟨k, c, hk, -, rfl⟩ | ⟨k, e, hk, -, -, rfl⟩
    · exact .inl rfl
    · exact .inr ⟨k, hk, rfl⟩
    · refine .inr ⟨k, hk, ?_⟩
      cases a <;> rfl
  rcases hcases with rfl | ⟨k, hk, hmachine⟩
  · exact ⟨fun p hp => .inl hp, fun p hp => hp⟩
  · rw [hmachine]
    cases a with
    | recordPreparer preparedBy required source => exact ⟨fun p hp => .inl hp, fun p hp => hp⟩
    | recordDecision req => exact ⟨fun p hp => .inl hp, fun p hp => hp⟩
    | approveGate gate humanId source =>
        constructor
        · intro p hp
          have htarget : AuditStateMachine.approvalTarget gate = .waitingHumanGate p := hp
          cases gate <;> cases htarget
        · intro p hp
          have htarget : AuditStateMachine.approvalTarget gate = .qaRejected p := hp
          cases gate <;> cases htarget
    | retryPhase phase humanId source =>
        constructor
        · intro p hp
          cases hp
        · intro p hp
          cases hp
    | returnForRework phase humanId notes source =>
        constructor
        · intro p hp
          cases hp
        · intro p hp
          cases hp
    | overrideQaRejection phase humanId reason source =>
        constructor
        · intro p hp
          have hcheck := checkOverride_eq_ok hk
          obtain rfl : OverridePlan.phase k = p := AuditStatus.waitingHumanGate.inj hp
          obtain ⟨dumped, hdumped, -⟩ := hcheck.artifact
          exact .inr ⟨hcheck.status, storedModel_ne_none hdumped⟩
        · intro p hp
          cases hp

theorem gateBacked_act {a : RecordedAction} {t : Transition AuditFlow Call (Except Exn Unit)}
    (h : act rt env a f = (r, g)) (hf : GateBacked rt past f) : GateBacked rt (past ++ [t]) g := by
  have hframe := act_artifactFrame h
  have hruns := generationRuns_act h
  obtain ⟨hgate, hrejected⟩ := act_gate h
  constructor
  · intro p hp
    rw [hframe.storedModel p]
    rcases hgate p hp with hwaiting | ⟨-, hstored⟩
    · exact hf.stored p hwaiting
    · exact hstored
  · intro p hp
    have hbefore : f.machine.status = .waitingHumanGate p ∨ f.machine.status = .qaRejected p := by
      rcases hp with hp | hp
      · rcases hgate p hp with hwaiting | ⟨hrej, -⟩
        · exact .inl hwaiting
        · exact .inr hrej
      · exact .inr (hrejected p hp)
    exact (hf.backed p hbefore).kept (hframe.storedModel p) hruns

/-- A phase run that stopped anywhere but at its gate or at a rejection leaves nothing to back. -/
theorem gateBacked_of_stopped {q : Phase}
    (hs : g.machine.status = .running q ∨ g.machine.status = .error q) : GateBacked rt past g := by
  constructor
  · intro p hp
    rcases hs with hs | hs
    · cases hs.symm.trans hp
    · cases hs.symm.trans hp
  · intro p hp
    rcases hp with hp | hp
    · rcases hs with hs | hs
      · cases hs.symm.trans hp
      · cases hs.symm.trans hp
    · rcases hs with hs | hs
      · cases hs.symm.trans hp
      · cases hs.symm.trans hp

/-- A run that came to its gate or was rejected backs the artifact it left. -/
theorem backed_of_run {q : Phase} {run : GenerationRun} {ks : List Kickoff} {k : Kickoff}
    {qa artifact : Option PyModel}
    (hrecord : RunRecorded env q run f g) (hks : TwoKickoffs q f g ks) (hne : ks ≠ [])
    (hlast : g.kickoffs.getLast? = some k) (hread : ReadAs rt q k qa artifact)
    (hstored : storedModel g.state q = none ∨ storedModel g.state q = artifact) :
    Backed rt (past ++ [⟨f, ⟨env, .generate q⟩, r, g⟩]) q g := by
  intro a ha
  have hartifact : artifact = some a := by
    rcases hstored with hnone | hsome
    · cases hnone.symm.trans ha
    · exact hsome.symm.trans ha
  rw [hartifact] at hread
  rw [hks.kickoffs] at hlast
  exact ⟨_, List.mem_append_right _ List.mem_cons_self, run,
    ⟨rfl, hrecord, ks, k, qa, hks, getLast?_of_append hne hlast, hread⟩, hrecord.latest⟩

theorem gateBacked_generate {q : Phase} (h : (generate rt env q).exec f = (r, g))
    (hf : GateBacked rt past f) :
    GateBacked rt (past ++ [⟨f, ⟨env, .generate q⟩, r, g⟩]) g := by
  have hkept : g = f → GateBacked rt (past ++ [⟨f, ⟨env, .generate q⟩, r, g⟩]) g := by
    rintro rfl
    exact ⟨hf.stored, fun p hp => (hf.backed p hp).kept rfl rfl⟩
  rcases generate_cases h with ⟨e, -, hg⟩ | ⟨hrunning, ks, hks, -, hend⟩
  · exact hkept hg
  · rcases generate_records h with ⟨-, hg⟩ | hrecord
    · exact hkept hg
    · cases hrecord with
      | stuck hruns hstatus => exact gateBacked_of_stopped (.inl hstatus)
      | missing hruns hstatus => exact gateBacked_of_stopped (.inr hstatus)
      | recorded run hrun =>
          cases hend with
          | stuck e _ _ hmachine =>
              exact gateBacked_of_stopped (.inl ((congrArg (·.status) hmachine).trans hrunning))
          | ended _ _ _ hend =>
              cases hend with
              | failed hstatus => exact gateBacked_of_stopped (.inr hstatus)
              | rejected hstatus hne hrejected =>
                  obtain ⟨k, qa, artifact, hk, hread, hstored⟩ := hrejected
                  constructor
                  · intro p hp
                    cases hstatus.symm.trans hp
                  · intro p hp
                    obtain rfl : q = p := by
                      rcases hp with hp | hp
                      · cases hstatus.symm.trans hp
                      · exact AuditStatus.qaRejected.inj (hstatus.symm.trans hp)
                    exact backed_of_run hrun hks hne hk hread hstored
              | approved hstatus hne happroved =>
                  obtain ⟨k, qa, a, hk, hread, -, hstored, -⟩ := happroved
                  constructor
                  · intro p hp
                    obtain rfl : q = p := AuditStatus.waitingHumanGate.inj (hstatus.symm.trans hp)
                    rw [hstored]
                    simp
                  · intro p hp
                    obtain rfl : q = p := by
                      rcases hp with hp | hp
                      · exact AuditStatus.waitingHumanGate.inj (hstatus.symm.trans hp)
                      · cases hstatus.symm.trans hp
                    exact backed_of_run hrun hks hne hk hread (.inr hstored)

theorem gateBacked_step (f : AuditFlow) (c : Call) (hf : GateBacked rt past f) :
    GateBacked rt (past ++ [LabelledRun.transition (step rt) f c]) (step rt f c).2 := by
  obtain ⟨env, op⟩ := c
  cases op with
  | record a => exact gateBacked_act (a := a) rfl hf
  | beginPhase1 =>
      rcases exec_beginPhase1 f with ⟨-, h⟩ | ⟨_, _, h⟩
      · rw [show (step rt f ⟨env, .beginPhase1⟩).2 = _ from congrArg Prod.snd h]
        exact gateBacked_of_stopped (.inl rfl)
      · rw [show (step rt f ⟨env, .beginPhase1⟩).2 = f from congrArg Prod.snd h]
        exact ⟨hf.stored, fun p hp => (hf.backed p hp).kept rfl rfl⟩
  | generate q => exact gateBacked_generate rfl hf

theorem gateBacked_run (theme businessContext : Str) (frameworks : List Str)
    (sessionId : Option Str) (calls : List Call) :
    GateBacked rt (trace rt (.fresh theme businessContext frameworks sessionId) calls)
      (after rt (.fresh theme businessContext frameworks sessionId) calls) := by
  refine LabelledRun.history (step rt) (H := GateBacked rt) ⟨?_, ?_⟩
    (fun _ f c hf => gateBacked_step f c hf) calls
  · intro p hp
    cases hp
  · intro p hp
    rcases hp with hp | hp
    · cases hp
    · cases hp

/-! ## The records of a run -/

/-- Every record of the flow was appended by one of the steps, ended, and no two have one id. -/
structure RecordHistory (past : List (Transition AuditFlow Call (Except Exn Unit)))
    (f : AuditFlow) : Prop where
  recorded : ∀ run ∈ f.state.generationRuns, ∃ t ∈ past, ∃ p, t.label.op = .generate p ∧
    RunRecorded t.label.env p run t.before t.after
  nodup : (f.state.generationRuns.map (·.runId)).Nodup

theorem recordHistory_step (f : AuditFlow) (c : Call) (h : RecordHistory past f)
    (hfresh : ∀ t ∈ past, t.label.env.uuid ≠ c.env.uuid) :
    RecordHistory (past ++ [LabelledRun.transition (step rt) f c]) (step rt f c).2 := by
  rcases @records_step rt f c with hsame | ⟨p, run, hop, hrun, -⟩
  · constructor
    · intro run hmem
      rw [hsame] at hmem
      obtain ⟨t, ht, hrec⟩ := h.recorded run hmem
      exact ⟨t, List.mem_append_left _ ht, hrec⟩
    · rw [hsame]
      exact h.nodup
  · constructor
    · intro run' hmem
      rw [hrun.appended] at hmem
      rcases List.mem_append.mp hmem with hmem | hmem
      · obtain ⟨t, ht, hrec⟩ := h.recorded run' hmem
        exact ⟨t, List.mem_append_left _ ht, hrec⟩
      · rw [List.mem_singleton.mp hmem]
        exact ⟨_, List.mem_append_right _ List.mem_cons_self, p, hop, hrun⟩
    · rw [hrun.appended, List.map_append, List.nodup_append]
      refine ⟨h.nodup, by simp, ?_⟩
      intro id hid id' hid'
      obtain ⟨run', hmem, rfl⟩ := List.mem_map.mp hid
      obtain ⟨t, ht, q, -, hrec⟩ := h.recorded run' hmem
      rw [List.map_singleton, List.mem_singleton] at hid'
      rw [hid', hrun.runId, hrec.runId]
      exact hfresh t ht

theorem recordHistory_run (theme businessContext : Str) (frameworks : List Str)
    (sessionId : Option Str) {calls : List Call} (hfresh : FreshIds calls) :
    RecordHistory (trace rt (.fresh theme businessContext frameworks sessionId) calls)
      (after rt (.fresh theme businessContext frameworks sessionId) calls) := by
  induction calls using List.reverseRecOn with
  | nil =>
      constructor
      · intro run hmem
        cases hmem
      · exact List.nodup_nil
  | append_singleton calls c ih =>
      unfold FreshIds at hfresh ih
      rw [List.map_append, List.nodup_append] at hfresh
      rw [trace, after, LabelledRun.trace_append, LabelledRun.final_append]
      refine recordHistory_step _ c (ih hfresh.1) ?_
      intro t ht
      have hlabel : t.label ∈ calls := by
        rw [← @trace_labels rt (.fresh theme businessContext frameworks sessionId) calls]
        exact List.mem_map_of_mem ht
      exact hfresh.2.2 _ (List.mem_map_of_mem hlabel) _ List.mem_cons_self

theorem records_prefix (f : AuditFlow) (c : Call) :
    f.state.generationRuns <+: (step rt f c).2.state.generationRuns := by
  rcases @records_step rt f c with hsame | ⟨p, run, -, hrun, -⟩
  · rw [hsame]
  · rw [hrun.appended]
    exact List.prefix_append _ _

/-- No step of a run changes a record that is there. -/
theorem records_prefix_trace (f : AuditFlow) (calls : List Call) :
    ∀ t ∈ trace rt f calls, t.before.state.generationRuns <+: t.after.state.generationRuns := by
  induction calls generalizing f with
  | nil => simp
  | cons c calls ih =>
      intro t ht
      rcases List.mem_cons.mp ht with rfl | ht
      · exact records_prefix f c
      · exact ih _ t ht

theorem mem_of_latestRunForPhase {run : GenerationRun} (h : f.latestRunForPhase p = some run) :
    run ∈ f.state.generationRuns :=
  List.mem_reverse.mp (List.mem_of_find?_eq_some h)

/-! ## Every run has its input -/

/-- In each phase, the artifact the phase works from is stored. -/
def InputsStored (f : AuditFlow) : Prop :=
  ∀ p q, inputPhase p = some q → f.machine.status.ofPhase p → storedModel f.state q ≠ none

theorem ofPhase_inj {s : AuditStatus} {q : Phase} (hp : s.ofPhase p) (hq : s.ofPhase q) : p = q := by
  unfold AuditStatus.ofPhase at hp hq
  rcases hp with rfl | rfl | rfl | rfl
  all_goals simpa using hq

theorem inputPhase_ne {q : Phase} (h : inputPhase p = some q) : q ≠ p := by
  rintro rfl
  cases q <;> cases h

/-- A recorded action enters a phase only by approving the gate of its input. -/
theorem act_phase {a : RecordedAction} (h : act rt env a f = (r, g)) :
    ∀ p, g.machine.status.ofPhase p → f.machine.status.ofPhase p ∨
      ∃ q, inputPhase p = some q ∧ storedModel f.state q ≠ none := by
  have hcases : g = f ∨ ∃ k, (recorded rt env a).check f = .ok k ∧
      g.machine = ((recorded rt env a).mutate k f).machine := by
    rcases act_cases h with ⟨err, -, -, rfl⟩ | ⟨k, c, hk, -, rfl⟩ | ⟨k, e, hk, -, -, rfl⟩
    · exact .inl rfl
    · exact .inr ⟨k, hk, rfl⟩
    · refine .inr ⟨k, hk, ?_⟩
      cases a <;> rfl
  intro p hp
  rcases hcases with rfl | ⟨k, hk, hmachine⟩
  · exact .inl hp
  · rw [hmachine] at hp
    cases a with
    | recordPreparer preparedBy required source => exact .inl hp
    | recordDecision req => exact .inl hp
    | approveGate gate humanId source =>
        right
        have hstored := storedModel_ne_none (checkApproval_eq_ok hk).artifact
        have htarget : (AuditStateMachine.approvalTarget gate).ofPhase p := hp
        cases gate with
        | planning =>
            obtain rfl : p = .fieldwork := ofPhase_inj htarget (.inl rfl)
            exact ⟨.planning, rfl, hstored⟩
        | fieldwork =>
            obtain rfl : p = .reporting := ofPhase_inj htarget (.inl rfl)
            exact ⟨.fieldwork, rfl, hstored⟩
        | reporting =>
            exfalso
            unfold AuditStatus.ofPhase at htarget
            rcases htarget with h | h | h | h <;> cases h
    | retryPhase phase humanId source =>
        left
        obtain rfl : p = RetryPlan.phase k := ofPhase_inj hp (.inl rfl)
        rcases (retryAction_check_eq_ok hk).2 with hs | hs
        · exact .inr (.inr (.inl hs))
        · exact .inr (.inr (.inr hs))
    | returnForRework phase humanId notes source =>
        left
        obtain rfl : p = ReworkPlan.phase k := ofPhase_inj hp (.inl rfl)
        exact .inr (.inl (checkRework_eq_ok hk).status)
    | overrideQaRejection phase humanId reason source =>
        left
        obtain rfl : p = OverridePlan.phase k := ofPhase_inj hp (.inr (.inl rfl))
        exact .inr (.inr (.inl (checkOverride_eq_ok hk).status))

theorem inputsStored_generate {q : Phase} (h : (generate rt env q).exec f = (r, g))
    (hf : InputsStored f) : InputsStored g := by
  rcases generate_cases h with ⟨e, -, rfl⟩ | ⟨hrunning, ks, -, hframe, hend⟩
  · exact hf
  · have hstatus : g.machine.status.ofPhase q := by
      cases hend with
      | stuck e _ _ hmachine => exact .inl ((congrArg (·.status) hmachine).trans hrunning)
      | ended _ _ _ hend =>
          cases hend with
          | failed hstatus => exact .inr (.inr (.inr hstatus))
          | rejected hstatus => exact .inr (.inr (.inl hstatus))
          | approved hstatus => exact .inr (.inl hstatus)
    intro p input hinput hp
    obtain rfl : p = q := ofPhase_inj hp hstatus
    rw [hframe.artifacts input (inputPhase_ne hinput)]
    rcases started_status.mp hrunning with hs | ⟨rfl, -⟩
    · exact hf p input hinput (.inl hs)
    · cases hinput

theorem inputsStored_step (f : AuditFlow) (c : Call) (hf : InputsStored f) :
    InputsStored (step rt f c).2 := by
  obtain ⟨env, op⟩ := c
  cases op with
  | record a =>
      intro p q hq hp
      have hact : act rt env a f = ((act rt env a f).1, (act rt env a f).2) := rfl
      have hsame : storedModel (step rt f ⟨env, .record a⟩).2.state q = storedModel f.state q :=
        (act_artifactFrame hact).storedModel q
      rw [hsame]
      rcases act_phase hact p hp with hbefore | ⟨q', hq', hstored⟩
      · exact hf p q hq hbefore
      · obtain rfl : q' = q := Option.some.inj (hq'.symm.trans hq)
        exact hstored
  | beginPhase1 =>
      rcases exec_beginPhase1 f with ⟨-, h⟩ | ⟨_, _, h⟩
      · rw [show (step rt f ⟨env, .beginPhase1⟩).2 = _ from congrArg Prod.snd h]
        intro p q hq hp
        obtain rfl : p = .planning := ofPhase_inj hp (.inl rfl)
        cases hq
      · rw [show (step rt f ⟨env, .beginPhase1⟩).2 = f from congrArg Prod.snd h]
        exact hf
  | generate q => exact inputsStored_generate (q := q) rfl hf

theorem inputsStored_fresh (theme businessContext : Str) (frameworks : List Str)
    (sessionId : Option Str) : InputsStored (.fresh theme businessContext frameworks sessionId) := by
  intro p q _ hp
  unfold AuditStatus.ofPhase at hp
  rcases hp with h | h | h | h <;> cases h

theorem recorded_of_returned {q : Phase} (h : (generate rt env q).exec f = (.ok (), g))
    (hf : InputsStored f) : ∃ run, RunRecorded env q run f g := by
  rcases generate_cases h with ⟨e, hr, -⟩ | ⟨hrunning, -⟩
  · cases hr
  · rcases generate_records h with ⟨hr, -⟩ | hrecord
    · exact absurd rfl hr
    · cases hrecord with
      | stuck _ _ hr => exact absurd rfl hr
      | missing _ _ hinput =>
          obtain ⟨input, hinput, hnone⟩ := hinput
          rcases started_status.mp hrunning with hs | ⟨rfl, -⟩
          · exact absurd hnone (hf q input hinput (.inl hs))
          · cases hinput
      | recorded run hrun => exact ⟨run, hrun⟩

/-- Every phase run of a run that returned has recorded its outcome. -/
theorem recorded_of_mem_trace {calls : List Call} (hf : InputsStored f) :
    ∀ t ∈ trace rt f calls, ∀ q, t.label.op = .generate q → t.result = .ok () →
      ∃ run, RunRecorded t.label.env q run t.before t.after := by
  induction calls generalizing f with
  | nil => simp
  | cons c calls ih =>
      intro t ht q hop hr
      rcases List.mem_cons.mp ht with rfl | ht
      · obtain ⟨env, op⟩ := c
        obtain rfl : op = .generate q := hop
        exact recorded_of_returned (Prod.ext hr rfl) hf
      · exact ih (inputsStored_step f c hf) t ht q hop hr

/-! ## What a reviewer's entry names -/

/-- A call that reviews the artifact of the phase: an approval of its gate, an override of its
rejection, or its return for rework. -/
def Reviews (p : Phase) (c : Call) : Prop :=
  (∃ humanId source, c.op = .record (.approveGate p humanId source)) ∨
    (∃ phase humanId reason source,
      c.op = .record (.overrideQaRejection phase humanId reason source) ∧
        Phase.ofNumber? phase = some p) ∨
    ∃ phase humanId notes source,
      c.op = .record (.returnForRework phase humanId notes source) ∧
        Phase.ofNumber? phase = some p

structure NamesRun (run : GenerationRun) (e : StrEntry) : Prop where
  runId : e.get? (lit "generation_run_id") = some run.runId
  promptFingerprint : e.get? (lit "generation_prompt_fingerprint") = some run.promptFingerprint
  model : e.get? (lit "generation_model") = some (run.provider ++ lit "/" ++ run.model)

/-- The entry records the digest of an artifact, and names the run that produced it. -/
def BoundTo (rt : Runtime) (past : List (Transition AuditFlow Call (Except Exn Unit)))
    (p : Phase) (f : AuditFlow) (e : StrEntry) : Prop :=
  ∃ a dumped digest, storedModel f.state p = some a ∧ f.state.artifact p = some dumped ∧
    Trail.artifactDigest rt dumped = .ok digest ∧
    e.get? (lit "artifact_digest") = some digest ∧
    ∃ t ∈ past, ∃ run : GenerationRun, Produced rt p t run a ∧ NamesRun run e ∧
      run ∈ f.state.generationRuns ∧
      ∀ other ∈ f.state.generationRuns, other.runId = run.runId → other = run

/-- The review fields an entry was made of. -/
structure ReviewFields (rt : Runtime) (p : Phase) (f : AuditFlow) (e : StrEntry) : Prop where
  status : f.machine.status = .waitingHumanGate p ∨ f.machine.status = .qaRejected p
  artifact : ∃ dumped digest, f.state.artifact p = some dumped ∧
    Trail.artifactDigest rt dumped = .ok digest ∧ e.get? (lit "artifact_digest") = some digest
  provenance : ∀ key ∈ [lit "generation_run_id", lit "generation_prompt_fingerprint",
    lit "generation_model"], e.get? key = (f.runProvenanceExtra p).get? key

theorem names_of_provenance {e : StrEntry} {run : GenerationRun}
    (hlatest : f.latestRunForPhase p = some run)
    (h : ∀ key ∈ [lit "generation_run_id", lit "generation_prompt_fingerprint",
      lit "generation_model"], e.get? key = (f.runProvenanceExtra p).get? key) :
    NamesRun run e := by
  have hextra : f.runProvenanceExtra p = [(lit "generation_run_id", run.runId),
      (lit "generation_prompt_fingerprint", run.promptFingerprint),
      (lit "generation_model", run.provider ++ lit "/" ++ run.model)] := by
    unfold runProvenanceExtra
    rw [hlatest]
  rw [hextra] at h
  constructor
  · rw [h _ (by simp)]
    simp [Dict.get?]
  · rw [h _ (by simp)]
    simp [Dict.get?]
  · rw [h _ (by simp)]
    simp [Dict.get?]

theorem artifact_of_storedModel {s : AuditState} (h : storedModel s p ≠ none) :
    ∃ dumped, s.artifact p = some dumped := by
  cases p with
  | planning => cases hs : s.racmPlan <;> simp_all [AuditState.artifact, storedModel]
  | fieldwork => cases hs : s.workingPapers <;> simp_all [AuditState.artifact, storedModel]
  | reporting => cases hs : s.finalReport <;> simp_all [AuditState.artifact, storedModel]

theorem get?_provenance {fields : StrEntry} {key : Str}
    (hkey : key ∈ [lit "generation_run_id", lit "generation_prompt_fingerprint",
      lit "generation_model"])
    (hfields : ∀ kv ∈ fields, kv.1 ∉ [lit "generation_run_id",
      lit "generation_prompt_fingerprint", lit "generation_model"]) :
    (fields ++ f.runProvenanceExtra p).get? key = (f.runProvenanceExtra p).get? key := by
  have hnone : Dict.get? fields key = none := by
    cases h : Dict.get? fields key with
    | none => rfl
    | some v => exact absurd hkey (hfields _ (Dict.mem_of_get? h))
  rw [Dict.get?_append, hnone, Option.none_or]

theorem provenance_ne_common {key : Str}
    (hkey : key ∈ [lit "generation_run_id", lit "generation_prompt_fingerprint",
      lit "generation_model"]) : key ∉ commonKeys ++ Trail.hashFields := by
  simp only [List.mem_cons, List.not_mem_nil, or_false] at hkey
  rcases hkey with rfl | rfl | rfl
  all_goals simp [commonKeys, Trail.hashFields]

theorem reviewFields_approval {humanId source : Str} {plan : ApprovalPlan} {e : StrEntry}
    (hk : checkApproval rt env p humanId source f = .ok plan)
    (he : EntryOf rt env (.approveGate p humanId source) f plan e) : ReviewFields rt p f e := by
  obtain ⟨x, hx, hget⟩ := he.extra
  simp only [recorded, approvalAction, Except.bind_eq_ok_iff, Except.pure_eq_ok_iff] at hx
  obtain ⟨digest, hdigest, rfl⟩ := hx
  have hcheck := checkApproval_eq_ok hk
  refine ⟨.inl hcheck.status, ⟨plan.artifact, digest, hcheck.artifact, hdigest, ?_⟩, ?_⟩
  · rw [hget _ (by simp [commonKeys, Trail.hashFields])]
    simp [Dict.get?]
  · intro key hkey
    rw [hget key (provenance_ne_common hkey), get?_provenance hkey]
    · rfl
    · intro kv hkv
      rcases sealedFields_cases (checkApproval_sealedFields hk) with hs | ⟨d, hs⟩
      · simp only [hs, List.append_nil, List.mem_cons, List.not_mem_nil, or_false] at hkv
        rcases hkv with rfl | rfl <;> simp
      · simp only [hs, List.cons_append, List.nil_append, List.mem_cons, List.not_mem_nil,
          or_false] at hkv
        rcases hkv with rfl | rfl | rfl | rfl <;> simp

theorem reviewFields_override {phase : Int} {humanId reason source : Str} {plan : OverridePlan}
    {e : StrEntry} (hk : checkOverride rt env phase humanId reason source f = .ok plan)
    (he : EntryOf rt env (.overrideQaRejection phase humanId reason source) f plan e) :
    ReviewFields rt plan.phase f e := by
  obtain ⟨x, hx, hget⟩ := he.extra
  have hx' : (f.moveTo (.waitingHumanGate plan.phase)).overrideExtra plan = x := Except.ok.inj hx
  have hcheck := checkOverride_eq_ok hk
  obtain ⟨dumped, hdumped, hdigest⟩ := hcheck.artifact
  refine ⟨.inr hcheck.status, ⟨dumped, plan.digest, hdumped, hdigest, ?_⟩, ?_⟩
  · rw [hget _ (by simp [commonKeys, Trail.hashFields]), ← hx']
    simp [overrideExtra, Dict.get?]
  · intro key hkey
    rw [hget key (provenance_ne_common hkey), ← hx']
    unfold overrideExtra
    rw [get?_provenance hkey]
    · rfl
    · intro kv hkv
      by_cases hu : plan.unverified = []
      · simp only [hu, if_true, List.append_nil, List.mem_cons, List.not_mem_nil, or_false] at hkv
        rcases hkv with rfl | rfl | rfl | rfl <;> simp
      · simp only [hu, if_false, List.cons_append, List.nil_append, List.mem_cons,
          List.not_mem_nil, or_false] at hkv
        rcases hkv with rfl | rfl | rfl | rfl | rfl <;> simp

theorem reviewFields_rework {phase : Int} {humanId notes source : Str} {plan : ReworkPlan}
    {e : StrEntry} (hk : checkRework rt phase humanId notes source f = .ok plan)
    (he : EntryOf rt env (.returnForRework phase humanId notes source) f plan e)
    (hstored : storedModel f.state plan.phase ≠ none) : ReviewFields rt plan.phase f e := by
  obtain ⟨x, hx, hget⟩ := he.extra
  obtain ⟨dumped, hdumped⟩ := artifact_of_storedModel hstored
  have hmoved : (f.moveTo (.running plan.phase)).state.artifact plan.phase = some dumped := by
    rw [← hdumped]
    cases plan.phase <;> rfl
  have hcheck := checkRework_eq_ok hk
  have hx' : reworkExtra rt (f.moveTo (.running plan.phase)) plan = .ok x := hx
  unfold reworkExtra at hx'
  rw [hmoved] at hx'
  simp only [digestField, Except.bind_eq_ok_iff, Except.pure_eq_ok_iff] at hx'
  obtain ⟨fields, ⟨digest, hdigest, rfl⟩, rfl⟩ := hx'
  refine ⟨.inl hcheck.status, ⟨dumped, digest, hdumped, hdigest, ?_⟩, ?_⟩
  · rw [hget _ (by simp [commonKeys, Trail.hashFields])]
    simp [Dict.get?]
  · intro key hkey
    rw [hget key (provenance_ne_common hkey), get?_provenance hkey]
    · rfl
    · intro kv hkv
      simp only [List.cons_append, List.nil_append, List.mem_cons, List.not_mem_nil,
        or_false] at hkv
      rcases hkv with rfl | rfl | rfl <;> simp

/-- A review that went through appended an entry with the fields of the stored artifact and of
its latest run. -/
theorem review_entry {c : Call} (hreview : Reviews p c) (hok : (step rt f c).1 = .ok ())
    (hgate : GateBacked rt past f) :
    ∃ e, (step rt f c).2.state.approvalTrail = f.state.approvalTrail ++ [e] ∧
      ReviewFields rt p f e := by
  obtain ⟨env, op⟩ := c
  have hentry : ∀ a : RecordedAction, op = .record a →
      ∃ k e, (recorded rt env a).check f = .ok k ∧ EntryOf rt env a f k e ∧
        (step rt f ⟨env, .record a⟩).2.state.approvalTrail = f.state.approvalTrail ++ [e] := by
    rintro a rfl
    rcases @act_entry rt env f _ _ a rfl with
      ⟨err, -, hr, -⟩ | ⟨k, err, -, -, hr, -⟩ | ⟨k, e, hk, he, -, hg⟩
    · cases hr.symm.trans hok
    · cases hr.symm.trans hok
    · exact ⟨k, e, hk, he, (congrArg (·.state.approvalTrail) hg).trans (act_trail k e)⟩
  rcases hreview with ⟨humanId, source, hop⟩ | ⟨phase, humanId, reason, source, hop, hphase⟩ |
    ⟨phase, humanId, notes, source, hop, hphase⟩
  · obtain ⟨k, e, hk, he, htrail⟩ := hentry _ hop
    obtain rfl : op = _ := hop
    exact ⟨e, htrail, reviewFields_approval hk he⟩
  · obtain ⟨k, e, hk, he, htrail⟩ := hentry _ hop
    obtain rfl : op = _ := hop
    obtain rfl : OverridePlan.phase k = p :=
      Option.some.inj ((checkOverride_eq_ok hk).phase.symm.trans hphase)
    exact ⟨e, htrail, reviewFields_override hk he⟩
  · obtain ⟨k, e, hk, he, htrail⟩ := hentry _ hop
    obtain rfl : op = _ := hop
    have hcheck := checkRework_eq_ok hk
    obtain rfl : ReworkPlan.phase k = p := Option.some.inj (hcheck.phase.symm.trans hphase)
    exact ⟨e, htrail, reviewFields_rework hk he (hgate.stored _ hcheck.status)⟩

theorem boundTo_of_fields {e : StrEntry} (hgate : GateBacked rt past f)
    (hhistory : RecordHistory past f) (he : ReviewFields rt p f e) : BoundTo rt past p f e := by
  obtain ⟨dumped, digest, hdumped, hdigest, hentry⟩ := he.artifact
  obtain ⟨a, ha⟩ := Option.ne_none_iff_exists'.mp (storedModel_ne_none hdumped)
  obtain ⟨t, ht, run, hproduced, hlatest⟩ := hgate.backed p he.status a ha
  have hmem := mem_of_latestRunForPhase hlatest
  refine ⟨a, dumped, digest, ha, hdumped, hdigest, hentry, t, ht, run, hproduced,
    names_of_provenance hlatest he.provenance, hmem, ?_⟩
  intro other hother hid
  exact List.inj_on_of_nodup_map hhistory.nodup hother hmem hid

/-- Generation provenance: over every run, an approval, an override or a return for rework records
the digest of the stored artifact and names the one run whose last crew attempt produced it.  Every
generation record was appended by one phase run and shows the outcome that run ended with, every
phase run that returned has its record, and no record changes afterwards. -/
theorem provenance_bound (rt : Runtime) (theme businessContext : Str) (frameworks : List Str)
    (sessionId : Option Str) (calls : List Call) (hfresh : FreshIds calls) :
    let start := AuditFlow.fresh theme businessContext frameworks sessionId
    let f := after rt start calls
    (∀ (c : Call) (p : Phase), Reviews p c → (step rt f c).1 = .ok () →
      ∃ e, (step rt f c).2.state.approvalTrail = f.state.approvalTrail ++ [e] ∧
        BoundTo rt (trace rt start calls) p f e) ∧
    (∀ run ∈ f.state.generationRuns, ∃ t ∈ trace rt start calls, ∃ p,
      t.label.op = .generate p ∧ RunRecorded t.label.env p run t.before t.after) ∧
    (∀ t ∈ trace rt start calls, ∀ p, t.label.op = .generate p → t.result = .ok () →
      ∃ run, RunRecorded t.label.env p run t.before t.after) ∧
    ∀ t ∈ trace rt start calls, t.before.state.generationRuns <+: t.after.state.generationRuns := by
  intro start f
  have hgate : GateBacked rt (trace rt start calls) f :=
    gateBacked_run theme businessContext frameworks sessionId calls
  have hhistory : RecordHistory (trace rt start calls) f :=
    recordHistory_run theme businessContext frameworks sessionId hfresh
  have hreturned := @recorded_of_mem_trace rt start calls
    (inputsStored_fresh theme businessContext frameworks sessionId)
  refine ⟨?_, hhistory.recorded, hreturned, records_prefix_trace start calls⟩
  intro c p hreview hok
  obtain ⟨e, htrail, hfields⟩ := review_entry hreview hok hgate
  exact ⟨e, htrail, boundTo_of_fields hgate hhistory hfields⟩

/-- The audit up to the approval of its first gate. -/
theorem provenance_bound_planned :
    let start := AuditFlow.fresh (lit "Access") (lit "A bank") [] none
    let f := after Sample.rt start Sample.planned
    (∀ (c : Call) (p : Phase), Reviews p c → (step Sample.rt f c).1 = .ok () →
      ∃ e, (step Sample.rt f c).2.state.approvalTrail = f.state.approvalTrail ++ [e] ∧
        BoundTo Sample.rt (trace Sample.rt start Sample.planned) p f e) ∧
    (∀ run ∈ f.state.generationRuns, ∃ t ∈ trace Sample.rt start Sample.planned, ∃ p,
      t.label.op = .generate p ∧ RunRecorded t.label.env p run t.before t.after) ∧
    (∀ t ∈ trace Sample.rt start Sample.planned, ∀ p, t.label.op = .generate p →
      t.result = .ok () → ∃ run, RunRecorded t.label.env p run t.before t.after) ∧
    ∀ t ∈ trace Sample.rt start Sample.planned,
      t.before.state.generationRuns <+: t.after.state.generationRuns :=
  provenance_bound Sample.rt (lit "Access") (lit "A bank") [] none Sample.planned
    (by decide +kernel)

end AuditFlow

end AuditSwarm
