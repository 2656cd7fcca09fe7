import AuditSwarm.Persist.Snapshot

/-!
# Restarts

A flow may be saved at any point of a run and loaded again.  What is loaded is the flow that was
saved, but for the skill ids that no longer name a skill.
-/

namespace AuditSwarm

open Python Json StrEnum

namespace AuditFlow

variable {rt : Runtime} {co : Coercions} {env : Env} {f : AuditFlow}

/-- The flows some run leads to in which a flow may be saved and loaded again at any time. -/
inductive Live (rt : Runtime) (co : Coercions) : AuditFlow → Prop
  | fresh (theme businessContext : Str) (frameworks : List Str) (sessionId : Option Str) :
      Live rt co (.fresh theme businessContext frameworks sessionId)
  | call {f : AuditFlow} (c : Call) (hf : Live rt co f) : Live rt co (step rt f c).2
  | reload {f : AuditFlow} {env : Env} {sessions saved : Sessions} {id : Str}
      {loaded : LoadResult} (hf : Live rt co f)
      (hsave : FlowRepository.save co sessions id f = some saved)
      (hload : FlowRepository.load rt co env saved id = .ok (some loaded)) :
      Live rt co loaded.flow

/-- Some saved skill id names a skill that is available. -/
def SkillResolves (env : Env) (f : AuditFlow) : Prop :=
  ∃ id ∈ f.state.activeSkillIds, ∃ available, env.availableSkills = .ok available ∧
    ∃ skill ∈ available, Trail.fieldIs skill (lit "id") id = true

theorem restored_cases {x : List Skill × List Str} (h : restored env f = .ok x) :
    x.2 = f.state.activeSkillIds ∨
      (¬ SkillResolves env f ∧ (f.state.theme ≠ [] ∨ f.state.businessContext ≠ []) ∧
        detected env f = .ok x) := by
  unfold restored at h
  obtain ⟨resolved, hresolved, h⟩ := Except.bind_eq_ok_iff.mp h
  split at h
  · left
    rw [← Except.ok.inj h]
  · rename_i hnone
    split at h
    · rename_i hscope
      refine .inr ⟨?_, hscope, h⟩
      intro hresolves
      obtain ⟨id, hid, available, havailable, skill, hskill, his⟩ := hresolves
      obtain ⟨found, hfound, hfind⟩ := Except.exists_of_mapM_eq_ok hresolved id hid
      rw [havailable] at hfind
      have heq := Except.pure_eq_ok_iff.mp hfind
      cases found with
      | none => exact absurd his (by simpa using List.find?_eq_none.mp heq skill hskill)
      | some s =>
          refine hnone ?_
          exact List.ne_nil_of_mem (List.mem_filterMap.mpr ⟨some s, hfound, rfl⟩)
    · left
      rw [← Except.ok.inj h]

theorem reloaded_state (env : Env) (id : Str) (f : AuditFlow) :
    (f.reloaded env id).state =
      { f.state with activeSkillIds := (f.reloaded env id).state.activeSkillIds } := by
  unfold reloaded
  cases restored env (f.unskilled id) <;> rfl

theorem reloaded_machine (env : Env) (id : Str) (f : AuditFlow) :
    (f.reloaded env id).machine = f.machine := by
  unfold reloaded
  cases restored env (f.unskilled id) <;> rfl

theorem reloaded_skills (env : Env) (id : Str) (f : AuditFlow) :
    (f.reloaded env id).state.activeSkillIds = f.state.activeSkillIds ∨
      (¬ SkillResolves env f ∧ (f.state.theme ≠ [] ∨ f.state.businessContext ≠ []) ∧
        ∃ x, detected env f = .ok x ∧ (f.reloaded env id).state.activeSkillIds = x.2) := by
  unfold reloaded
  cases hrestored : restored env (f.unskilled id) with
  | error e => exact .inl rfl
  | ok x =>
      rcases restored_cases hrestored with hsame | ⟨hnone, hscope, hdetected⟩
      · exact .inl hsame
      · exact .inr ⟨hnone, hscope, x, hdetected, rfl⟩

theorem Storable.reloaded (hf : f.Storable) (env : Env) (id : Str) :
    (f.reloaded env id).Storable where
  mirrored := by
    unfold Mirrored
    rw [reloaded_machine, reloaded_state]
    exact hf.mirrored
  decisions := by
    rw [reloaded_state]
    exact hf.decisions
  runs := by
    rw [reloaded_state]
    exact hf.runs

theorem Live.storable (hrt : LowersAscii rt) (hf : Live rt co f) : f.Storable := by
  induction hf with
  | fresh theme businessContext frameworks sessionId => exact storable_fresh _ _ _ _
  | call c _ ih => exact storable_step _ c ih
  | reload _ hsave hload ih =>
      rw [load_save hrt ih hsave] at hload
      obtain rfl := Option.some.inj (Except.ok.inj hload)
      exact ih.reloaded _ _

/-- What a flow is loaded as after it was saved: every field as it was, but for the skill ids when
none of them names a skill, which are then detected again from the scope. -/
theorem restart_restores (hrt : LowersAscii rt) (hf : Live rt co f) {sessions saved : Sessions}
    {id : Str} (hsave : FlowRepository.save co sessions id f = some saved) (env : Env) :
    ∃ loaded : LoadResult, FlowRepository.load rt co env saved id = .ok (some loaded) ∧
      loaded.skippedFields = [] ∧
      loaded.flow.machine = f.machine ∧ loaded.flow.state.status = f.machine.status.value ∧
      loaded.flow.state =
        { f.state with activeSkillIds := loaded.flow.state.activeSkillIds } ∧
      (loaded.flow.state.activeSkillIds = f.state.activeSkillIds ∨
        (¬ SkillResolves env f ∧ (f.state.theme ≠ [] ∨ f.state.businessContext ≠ []) ∧
          ∃ x, detected env f = .ok x ∧ loaded.flow.state.activeSkillIds = x.2)) ∧
      ∀ p, (loaded.flow.state.artifact p).map (Trail.artifactDigest rt) =
        (f.state.artifact p).map (Trail.artifactDigest rt) := by
  have hstorable := hf.storable hrt
  refine ⟨⟨f.reloaded env id, []⟩, load_save hrt hstorable hsave, rfl, reloaded_machine env id f,
    ?_, reloaded_state env id f, reloaded_skills env id f, ?_⟩
  · rw [reloaded_state]
    exact hstorable.mirrored
  · intro p
    rw [reloaded_state]
    cases p <;> rfl

end AuditFlow

/-! ## A restart that changes the skill ids -/

namespace Sample

def floatText (t : Rat) : FloatRepr :=
  if t = 0 then ⟨lit "0.0", by decide, by decide, by decide⟩
  else ⟨lit "0.1", by decide, by decide, by decide⟩

def temperatureOf : Json → Option Rat
  | .float r => if r.text = lit "0.0" then some 0 else if r.text = lit "0.1" then some (1 / 10)
      else none
  | _ => none

theorem temperatureOf_zero : temperatureOf (.float (floatText 0)) = some 0 := by
  decide

theorem temperatureOf_tenth : temperatureOf (.float (floatText (1 / 10))) = some (1 / 10) := by
  decide +kernel

/-- Coercions that keep a value of the type of the field and refuse any other. -/
def coercions : Coercions where
  boolOf
    | .bool b => some b
    | _ => none
  intOf
    | .int n => some n
    | _ => none
  floatOf := temperatureOf
  floatText := floatText
  isDecimal := isDigit
  boolOf_bool _ := rfl
  intOf_int _ := rfl
  floatOf_zero := temperatureOf_zero
  floatOf_tenth := temperatureOf_tenth

def savedSession (f : AuditFlow) : Sessions :=
  [(lit "s1", FlowRepository.sessionFields coercions f.state)]

theorem save_session (f : AuditFlow) :
    FlowRepository.save coercions [(lit "s1", [])] (lit "s1") f = some (savedSession f) := by
  rfl

def skilledEnv : Env :=
  { smallEnv "u1" with availableSkills := .ok [[(lit "id", .str (lit "itgc_general"))]] }

end Sample

namespace AuditFlow

theorem Live.after {f : AuditFlow} (hf : Live rt co f) (calls : List Call) :
    Live rt co (after rt f calls) := by
  induction calls generalizing f with
  | nil => exact hf
  | cons c calls ih => exact ih (.call c hf)

/-- An audit with a reviewed artifact, two decisions and a sealed trail, after a restart. -/
theorem restart_restores_created :
    let f := after Sample.rt Sample.fresh Sample.challenged
    ∃ loaded : LoadResult, FlowRepository.load Sample.rt Sample.coercions Sample.skilledEnv
        (Sample.savedSession f) (lit "s1") = .ok (some loaded) ∧
      loaded.skippedFields = [] ∧ loaded.flow.machine.status = .waitingHumanGate .fieldwork ∧
      loaded.flow.state.workingPapers = some Sample.smallPapers ∧
      loaded.flow.state.reviewDecisions = f.state.reviewDecisions ∧
      f.state.reviewDecisions.map (·.decisionId) = [lit "u5", lit "u6"] ∧
      loaded.flow.state.approvalTrail = f.state.approvalTrail ∧
      f.state.approvalTrail.length = 4 := by
  intro f
  have hstart : Live Sample.rt Sample.coercions Sample.fresh := .fresh _ _ _ _
  have hlive : Live Sample.rt Sample.coercions f := hstart.after Sample.challenged
  obtain ⟨loaded, hload, hskipped, hmachine, -, hstate, -⟩ :=
    restart_restores (lowersAscii_ascii _) hlive (Sample.save_session f) Sample.skilledEnv
  have hf : f.machine.status = .waitingHumanGate .fieldwork ∧
      f.state.workingPapers = some Sample.smallPapers ∧
      f.state.reviewDecisions.map (·.decisionId) = [lit "u5", lit "u6"] ∧
      f.state.approvalTrail.length = 4 := by decide +kernel
  clear_value f
  refine ⟨loaded, hload, hskipped, ?_, ?_, ?_, hf.2.2.1, ?_, hf.2.2.2⟩
  · rw [hmachine, hf.1]
  · rw [hstate]
    exact hf.2.1
  · rw [hstate]
  · rw [hstate]

/-- An audit saved before its planning has no skill ids, and is loaded with those its scope calls
for. -/
theorem restart_detects_skills :
    ∃ loaded : LoadResult, Live Sample.rt Sample.coercions Sample.created ∧
      FlowRepository.load Sample.rt Sample.coercions Sample.skilledEnv
        (Sample.savedSession Sample.created) (lit "s1") = .ok (some loaded) ∧
      Sample.created.state.activeSkillIds = [] ∧
      loaded.flow.state.activeSkillIds = [lit "itgc_general"] := by
  have hlive : Live Sample.rt Sample.coercions Sample.created :=
    .call ⟨Sample.smallEnv "u1", .record (.recordPreparer (lit "Ann") true (lit "declared"))⟩
      (.fresh (lit "Access") (lit "A bank") [] none)
  have hrt : LowersAscii Sample.rt := lowersAscii_ascii _
  refine ⟨_, hlive, load_save hrt (hlive.storable hrt) (Sample.save_session Sample.created), ?_, ?_⟩
  · decide +kernel
  · decide +kernel

end AuditFlow

end AuditSwarm
