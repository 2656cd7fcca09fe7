import AuditSwarm.Run.Entries

/-!
# What a QA override accepts

A fieldwork override shows the controls whose evidence did not verify, and writes their ids into
its trail entry, joined by commas.  Gate 2 reads them back by splitting at commas.
-/

namespace AuditSwarm

open Python StrEnum

namespace AuditFlow

variable {rt : Runtime} {env : Env} {f g : AuditFlow}

/-! ## Joining and splitting at commas -/

theorem splitOn_join_comma {ids : List Str} (hids : ∀ c ∈ ids, 44 ∉ c) (hne : ids ≠ []) :
    (join (lit ",") ids).splitOn 44 = ids := by
  have hcomma : lit "," = [44] := by decide
  unfold join
  rw [hcomma]
  exact List.splitOn_intercalate 44 hids hne

theorem not_mem_of_mem_splitOn {α : Type} [BEq α] [LawfulBEq α] {sep : α} {s part : List α}
    (h : part ∈ s.splitOn sep) : sep ∉ part := by
  induction s generalizing part with
  | nil =>
      simp only [List.splitOn_nil, List.mem_singleton] at h
      rw [h]
      simp
  | cons x xs ih =>
      rw [List.splitOn_cons_eq_if_modifyHead] at h
      by_cases hx : x = sep
      · rw [if_pos (by simpa using hx)] at h
        rcases List.mem_cons.mp h with h | h
        · rw [h]
          simp
        · exact ih h
      · rw [if_neg (by simpa using hx)] at h
        obtain ⟨first, rest, hsplit⟩ := List.exists_cons_of_ne_nil (List.splitOn_ne_nil sep xs)
        rw [hsplit, List.modifyHead_cons] at h
        rcases List.mem_cons.mp h with h | h
        · rw [h, List.mem_cons, not_or]
          exact ⟨Ne.symm hx, ih (hsplit ▸ List.mem_cons_self)⟩
        · exact ih (hsplit ▸ List.mem_cons_of_mem _ h)

theorem reportedId_ne_nil (index : Nat) (controlId : Str) :
    Evidence.reportedId index controlId ≠ [] := by
  unfold Evidence.reportedId
  split
  · simp [lit]
  · assumption

theorem ne_nil_of_mem_unverifiedFindings
    {verify : Str → Str → Option Str → Except Raised Bool} {sessionId : Option Str}
    {findings : List AuditFindingSchema} {index : Nat} {ids : List Str}
    (h : Evidence.unverifiedFindings rt verify sessionId index findings = .ok ids) :
    ∀ c ∈ ids, c ≠ [] := by
  induction findings generalizing index ids with
  | nil =>
      cases h
      simp
  | cons finding rest ih =>
      unfold Evidence.unverifiedFindings at h
      simp only [Except.bind_eq_ok_iff, Except.pure_eq_ok_iff] at h
      obtain ⟨unverified, -, others, hothers, rfl⟩ := h
      intro c hc
      split at hc
      · rcases List.mem_cons.mp hc with rfl | hc
        · exact reportedId_ne_nil _ _
        · exact ih hothers c hc
      · exact ih hothers c hc

theorem ne_nil_of_mem_unverifiedEvidence {ids : List Str}
    (h : f.unverifiedEvidence rt env = .ok ids) : ∀ c ∈ ids, c ≠ [] := by
  unfold unverifiedEvidence at h
  split at h
  · cases h
    simp
  · split at h
    · rename_i hids
      cases h
      exact ne_nil_of_mem_unverifiedFindings hids
    · cases h

/-! ## The entry of an override -/

def OverridesFieldwork (t : Transition AuditFlow Call (Except Exn Unit)) : Prop :=
  t.result = .ok () ∧ ∃ humanId reason source,
    t.label.op = .record (.overrideQaRejection 2 humanId reason source)

def storedControls (shown : List Str) : Str :=
  if shown = [] then [] else join (lit ",") shown

theorem getD_overrideExtra (plan : OverridePlan) (f : AuditFlow) :
    (f.overrideExtra plan).getD (lit "unverified_controls") [] =
      storedControls plan.unverified := by
  have hprovenance : (f.runProvenanceExtra plan.phase).get? (lit "unverified_controls") = none := by
    rcases provenance_cases f plan.phase with hp | ⟨run, -, hp⟩
    · rw [hp]
      simp [Dict.get?]
    · rw [hp]
      simp [Dict.get?]
  unfold overrideExtra storedControls Dict.getD
  split
  · simp [Dict.get?, hprovenance]
  · simp [Dict.get?]

/-- The entry a fieldwork override appends accepts what it showed, as stored. -/
theorem acceptedBy_override {phase : Int} {humanId reason source : Str} {plan : OverridePlan}
    {e : StrEntry} (hphase : plan.phase = .fieldwork)
    (he : EntryOf rt env (.overrideQaRejection phase humanId reason source) f plan e) :
    acceptedBy plan.digest e =
      some (((storedControls plan.unverified).splitOn 44).filter (· ≠ [])) := by
  obtain ⟨x, hx, hget⟩ := he.extra
  have hx' : (f.moveTo (.waitingHumanGate plan.phase)).overrideExtra plan = x := Except.ok.inj hx
  have hdigest : e.get? (lit "artifact_digest") = some plan.digest := by
    rw [hget _ (by simp [commonKeys, Trail.hashFields]), ← hx']
    simp [overrideExtra, Dict.get?]
  have hcontrols : e.getD (lit "unverified_controls") [] = storedControls plan.unverified := by
    rw [← getD_overrideExtra plan (f.moveTo (.waitingHumanGate plan.phase)), hx']
    exact congrArg (·.getD [])
      (hget (lit "unverified_controls") (by simp [commonKeys, Trail.hashFields]))
  have hgate : e.get? (lit "gate") =
      some (lit "QA Override (" ++ Phase.fieldwork.label ++ lit ")") := by
    rw [← hphase]
    exact he.stamped.gate
  unfold acceptedBy
  rw [if_pos ⟨he.stamped.action, hgate, hdigest⟩, hcontrols]

theorem ofNumber?_eq_fieldwork_iff {n : Int} : Phase.ofNumber? n = some .fieldwork ↔ n = 2 := by
  unfold Phase.ofNumber?
  split_ifs with h1 h2 h3
  · simp [h1]
  · simp [h2]
  · simp [h3]
  · simp [h2]

theorem acceptedBy_other {a : RecordedAction} {k : (recorded rt env a).κ} {e : StrEntry}
    (hk : (recorded rt env a).check f = .ok k)
    (he : EntryOf rt env a f k e)
    (hother : ∀ humanId reason source, a ≠ .overrideQaRejection 2 humanId reason source)
    (digest : Str) : acceptedBy digest e = none := by
  have hrefuse : (recorded rt env a).action ≠ lit "qa_override" ∨
      (recorded rt env a).gate k ≠ lit "QA Override (" ++ Phase.fieldwork.label ++ lit ")" := by
    cases a with
    | overrideQaRejection phase humanId reason source =>
        right
        intro hgate
        have hphase : Phase.ofNumber? phase = some (OverridePlan.phase k) :=
          (checkOverride_eq_ok hk).phase
        refine hother humanId reason source ?_
        cases hp : OverridePlan.phase k with
        | fieldwork =>
            rw [hp] at hphase
            rw [ofNumber?_eq_fieldwork_iff] at hphase
            rw [hphase]
        | planning =>
            have h : lit "QA Override (" ++ (OverridePlan.phase k).label ++ lit ")" =
              lit "QA Override (" ++ Phase.fieldwork.label ++ lit ")" := hgate
            rw [hp] at h
            exact absurd h (by decide)
        | reporting =>
            have h : lit "QA Override (" ++ (OverridePlan.phase k).label ++ lit ")" =
              lit "QA Override (" ++ Phase.fieldwork.label ++ lit ")" := hgate
            rw [hp] at h
            exact absurd h (by decide)
    | _ => exact .inl (by rw [recorded_action]; simp)
  unfold acceptedBy
  rw [if_neg]
  intro haccepts
  rcases hrefuse with h | h
  · exact h (Option.some.inj (he.stamped.action.symm.trans haccepts.1))
  · exact h (Option.some.inj (he.stamped.gate.symm.trans haccepts.2.1))

/-! ## Later steps -/

/-- The controls the latest override of papers with the digest accepted, as Gate 2 reads them. -/
def lastAccepted (digest : Str) (f : AuditFlow) : Option (List Str) :=
  f.state.approvalTrail.reverse.findSome? (acceptedBy digest)

theorem lastAccepted_pushed {e : StrEntry} {digest : Str}
    (htrail : g.state.approvalTrail = f.state.approvalTrail ++ [e]) :
    lastAccepted digest g = (acceptedBy digest e).or (lastAccepted digest f) := by
  unfold lastAccepted
  rw [htrail, List.reverse_append]
  cases h : acceptedBy digest e <;> simp [h]

/-- A step that is no fieldwork override leaves what the latest one accepted. -/
theorem lastAccepted_step (f : AuditFlow) (c : Call) (digest : Str)
    (hno : ¬ OverridesFieldwork (LabelledRun.transition (step rt) f c)) :
    lastAccepted digest (step rt f c).2 = lastAccepted digest f := by
  have hsame : ∀ h : AuditFlow, h.state.approvalTrail = f.state.approvalTrail →
      lastAccepted digest h = lastAccepted digest f := by
    intro h htrail
    unfold lastAccepted
    rw [htrail]
  obtain ⟨env, op⟩ := c
  cases op with
  | record a =>
      rcases @act_entry rt env f _ _ a rfl with
        ⟨err, -, -, hg⟩ | ⟨k, err, -, -, -, hg⟩ | ⟨k, e, hk, he, hr, hg⟩
      · exact hsame _ (congrArg (·.state.approvalTrail) hg)
      · refine hsame _ ((congrArg (·.state.approvalTrail) hg).trans ?_)
        cases a <;> rfl
      · have htrail : (act rt env a f).2.state.approvalTrail = f.state.approvalTrail ++ [e] :=
          (congrArg (·.state.approvalTrail) hg).trans (act_trail k e)
        have hnone : acceptedBy digest e = none := by
          refine acceptedBy_other hk he ?_ digest
          intro humanId reason source ha
          exact hno ⟨hr, humanId, reason, source, congrArg Op.record ha⟩
        rw [show (step rt f ⟨env, .record a⟩).2 = (act rt env a f).2 from rfl,
          lastAccepted_pushed htrail, hnone, Option.none_or]
  | beginPhase1 =>
      refine hsame _ ?_
      rcases exec_beginPhase1 f with ⟨-, h⟩ | ⟨_, _, h⟩
      · exact congrArg (·.2.state.approvalTrail) h
      · exact congrArg (·.2.state.approvalTrail) h
  | generate p =>
      refine hsame _ ?_
      rcases @generate_cases rt env f _ _ p rfl with ⟨e, -, h⟩ | ⟨-, ks, -, hframe, -⟩
      · exact congrArg (·.state.approvalTrail) h
      · exact hframe.trail

/-- The flow has these working papers, and the step was no fieldwork override. -/
def KeepsPapers (papers : ValidPapers) (t : Transition AuditFlow Call (Except Exn Unit)) : Prop :=
  t.after.state.workingPapers = some papers ∧ ¬ OverridesFieldwork t

theorem lastAccepted_run {papers : ValidPapers} {more : List Call} (digest : Str)
    (hkeep : ∀ t ∈ trace rt f more, KeepsPapers papers t) :
    lastAccepted digest (after rt f more) = lastAccepted digest f :=
  LabelledRun.invariant (step rt) (I := fun g => lastAccepted digest g = lastAccepted digest f)
    (fun g c hc hg => (lastAccepted_step g c digest hc.2).trans hg) hkeep rfl

theorem papers_run {papers : ValidPapers} {more : List Call}
    (hkeep : ∀ t ∈ trace rt f more, KeepsPapers papers t)
    (h0 : f.state.workingPapers = some papers) :
    (after rt f more).state.workingPapers = some papers :=
  LabelledRun.invariant (step rt) (I := fun g => g.state.workingPapers = some papers)
    (fun _ _ hc _ => hc.1) hkeep h0

/-! ## What Gate 2 accepts -/

/-- The flow accepts exactly the listed controls: as a set, and at Gate 2 whatever the vault then
says of the evidence. -/
structure AcceptsExactly (rt : Runtime) (f : AuditFlow) (shown : List Str) : Prop where
  accepted : ∃ kept : List Str, f.acceptedUnverified rt = .ok kept ∧ ∀ c, c ∈ kept ↔ c ∈ shown
  gate2 : ∀ (env : Env) (unverified : List Str), f.unverifiedEvidence rt env = .ok unverified →
    (f.checkEvidenceForGate2 rt env = .ok () ↔ ∀ c ∈ unverified, c ∈ shown)

/-- What is read back from the entry is what was shown, exactly when no id has a comma. -/
theorem stored_iff {shown : List Str} (hne : ∀ c ∈ shown, c ≠ []) :
    (∀ c, c ∈ ((storedControls shown).splitOn 44).filter (· ≠ []) ↔ c ∈ shown) ↔
      ∀ c ∈ shown, 44 ∉ c := by
  constructor
  · intro h c hc
    have hmem := (h c).mpr hc
    exact not_mem_of_mem_splitOn (List.mem_of_mem_filter hmem)
  · intro hcomma c
    unfold storedControls
    by_cases hnil : shown = []
    · rw [if_pos hnil, hnil]
      simp
    · rw [if_neg hnil, splitOn_join_comma hcomma hnil, List.mem_filter]
      simp only [ne_eq, decide_not, Bool.not_eq_eq_eq_not, Bool.not_true, decide_eq_false_iff_not,
        and_iff_left_iff_imp]
      exact hne c

/-- Gate 2 lets through the unverified controls that were read back. -/
theorem checkEvidenceForGate2_iff {kept unverified : List Str}
    (hkept : f.acceptedUnverified rt = .ok kept)
    (hunverified : f.unverifiedEvidence rt env = .ok unverified) :
    f.checkEvidenceForGate2 rt env = .ok () ↔ ∀ c ∈ unverified, c ∈ kept := by
  unfold checkEvidenceForGate2
  rw [hunverified, Except.ok_bind]
  by_cases hnil : unverified = []
  · simp [hnil, Except.ensure]
  · rw [if_neg hnil, hkept, Except.ok_bind, Except.ensure_eq_ok_iff]
    simp [List.filter_eq_nil_iff]

theorem acceptsExactly_iff {kept shown : List Str} (hkept : f.acceptedUnverified rt = .ok kept) :
    AcceptsExactly rt f shown ↔ ∀ c, c ∈ kept ↔ c ∈ shown := by
  constructor
  · intro h
    obtain ⟨kept', hkept', hsame⟩ := h.accepted
    rw [hkept] at hkept'
    rw [Except.ok.inj hkept']
    exact hsame
  · intro h
    refine ⟨⟨kept, hkept, h⟩, ?_⟩
    intro env unverified hunverified
    rw [checkEvidenceForGate2_iff hkept hunverified]
    exact forall₂_congr fun c _ => h c

/-- A fieldwork override that went through: what it showed is in its entry, as stored. -/
theorem lastAccepted_override {c : Call} {humanId reason source : Str} {papers : ValidPapers}
    {shown : List Str} (hop : c.op = .record (.overrideQaRejection 2 humanId reason source))
    (hover : (step rt f c).1 = .ok ()) (hpapers : f.state.workingPapers = some papers)
    (hshown : f.unverifiedEvidence rt c.env = .ok shown) :
    (step rt f c).2.state.workingPapers = some papers ∧
      ∃ digest, Trail.artifactDigest rt papers.val.toJson = .ok digest ∧
        lastAccepted digest (step rt f c).2 =
          some (((storedControls shown).splitOn 44).filter (· ≠ [])) := by
  obtain ⟨env, op⟩ := c
  obtain rfl : op = .record (.overrideQaRejection 2 humanId reason source) := hop
  have hpapers' := (@act_artifactFrame rt env f _ _ (.overrideQaRejection 2 humanId reason source)
    rfl).papers
  refine ⟨hpapers'.trans hpapers, ?_⟩
  rcases @act_entry rt env f _ _ (.overrideQaRejection 2 humanId reason source) rfl with
    ⟨err, -, hr, -⟩ | ⟨k, err, -, -, hr, -⟩ | ⟨k, e, hk, he, -, hg⟩
  · cases hr.symm.trans hover
  · cases hr.symm.trans hover
  · have hcheck := checkOverride_eq_ok hk
    have hphase : OverridePlan.phase k = .fieldwork :=
      Option.some.inj (hcheck.phase.symm.trans (by decide))
    obtain ⟨dumped, hdumped, hdigest⟩ := hcheck.artifact
    rw [hphase] at hdumped
    have hartifact : f.state.artifact .fieldwork = some papers.val.toJson := by
      simp only [AuditState.artifact, hpapers, Option.map_some]
    rw [hartifact] at hdumped
    obtain rfl := Option.some.inj hdumped
    have hunverified := hcheck.unverified
    rw [if_pos hphase] at hunverified
    have hsame : shown = OverridePlan.unverified k :=
      Except.ok.inj (hshown.symm.trans hunverified)
    refine ⟨_, hdigest, ?_⟩
    have htrail : (act rt env (.overrideQaRejection 2 humanId reason source)
        f).2.state.approvalTrail = f.state.approvalTrail ++ [e] :=
      (congrArg (·.state.approvalTrail) hg).trans (act_trail k e)
    rw [show (step rt f ⟨env, .record (.overrideQaRejection 2 humanId reason source)⟩).2 =
      (act rt env (.overrideQaRejection 2 humanId reason source) f).2 from rfl,
      lastAccepted_pushed htrail, acceptedBy_override hphase he, hsame, Option.some_or]

/-- While the papers stay, what Gate 2 reads back is what the entry of the override stores. -/
theorem accepted_after_override {c : Call} {more : List Call} {humanId reason source : Str}
    {papers : ValidPapers} {shown : List Str}
    (hop : c.op = .record (.overrideQaRejection 2 humanId reason source))
    (hover : (step rt f c).1 = .ok ()) (hpapers : f.state.workingPapers = some papers)
    (hshown : f.unverifiedEvidence rt c.env = .ok shown)
    (hkeep : ∀ t ∈ trace rt (step rt f c).2 more, KeepsPapers papers t) :
    (after rt (step rt f c).2 more).acceptedUnverified rt =
      .ok (((storedControls shown).splitOn 44).filter (· ≠ [])) := by
  obtain ⟨hpapers', digest, hdigest, hlast⟩ := lastAccepted_override hop hover hpapers hshown
  unfold acceptedUnverified
  rw [papers_run hkeep hpapers']
  simp only [hdigest, Except.ok_bind]
  have hrun := (lastAccepted_run digest hkeep).trans hlast
  unfold lastAccepted at hrun
  rw [hrun, Option.getD_some]
  rfl

/-- After a fieldwork override, as long as the working papers stay and are not overridden again,
Gate 2 accepts exactly the controls the override showed if and only if no id among them has a
comma. -/
theorem override_accepts_iff {c : Call} {more : List Call} {humanId reason source : Str}
    {papers : ValidPapers} {shown : List Str}
    (hop : c.op = .record (.overrideQaRejection 2 humanId reason source))
    (hover : (step rt f c).1 = .ok ()) (hpapers : f.state.workingPapers = some papers)
    (hshown : f.unverifiedEvidence rt c.env = .ok shown)
    (hkeep : ∀ t ∈ trace rt (step rt f c).2 more, KeepsPapers papers t) :
    AcceptsExactly rt (after rt (step rt f c).2 more) shown ↔ ∀ c ∈ shown, 44 ∉ c := by
  rw [acceptsExactly_iff (accepted_after_override hop hover hpapers hshown hkeep)]
  exact stored_iff (ne_nil_of_mem_unverifiedEvidence hshown)

end AuditFlow

namespace Sample

def commaPapers : ValidPapers :=
  ⟨papers [finding "C,1" .effective .effective], by decide +kernel⟩

def unverifiedEnv (uuid : String) : Env where
  __ := env uuid (crew smallRacm commaPapers smallReport)
  verifyExactQuote _ _ _ _ := .ok false

def rejected : List Call :=
  [⟨unverifiedEnv "u1", .record (.recordPreparer (lit "A") false (lit "declared"))⟩,
    ⟨unverifiedEnv "u2", .generate .planning⟩,
    ⟨unverifiedEnv "u3", .record (.approveGate .planning (lit "B") (lit "declared"))⟩,
    ⟨unverifiedEnv "u4", .generate .fieldwork⟩]

def override : Call :=
  ⟨unverifiedEnv "u5",
    .record (.overrideQaRejection 2 (lit "B") (lit "Seen on site.") (lit "declared"))⟩

/-- An environment in which no quote verifies and whose crew tests another control. -/
def plainEnv (uuid : String) : Env where
  __ := env uuid (crew smallRacm effectivePapers smallReport)
  verifyExactQuote _ _ _ _ := .ok false

def plainRejected : List Call :=
  [⟨plainEnv "u2", .generate .planning⟩,
    ⟨plainEnv "u3", .record (.approveGate .planning (lit "B") (lit "declared"))⟩,
    ⟨plainEnv "u4", .generate .fieldwork⟩]

def plainOverride : Call :=
  ⟨plainEnv "u5",
    .record (.overrideQaRejection 2 (lit "B") (lit "Seen on site.") (lit "declared"))⟩

def plainSignOff : Call :=
  ⟨plainEnv "u6", .record (.recordDecision (request "sign_off" "C1" "Cho" []))⟩

end Sample

namespace AuditFlow

def OverridesComma (f : AuditFlow) : Prop :=
  (step Sample.rt f Sample.override).1 = .ok () ∧
    f.state.workingPapers = some Sample.commaPapers ∧
    f.unverifiedEvidence Sample.rt Sample.override.env = .ok [lit "C,1"]

theorem overridesComma : OverridesComma (after Sample.rt Sample.fresh Sample.rejected) := by
  unfold OverridesComma
  decide +kernel

/-- The audit with another control, whose finding is signed off after the override. -/
def OverridesPlain (f : AuditFlow) : Prop :=
  (step Sample.rt f Sample.plainOverride).1 = .ok () ∧
    f.state.workingPapers = some Sample.effectivePapers ∧
    f.unverifiedEvidence Sample.rt Sample.plainOverride.env = .ok [lit "C1"] ∧
    (step Sample.rt (step Sample.rt f Sample.plainOverride).2 Sample.plainSignOff).2.state.workingPapers
      = some Sample.effectivePapers

theorem overridesPlain : OverridesPlain (after Sample.rt Sample.fresh Sample.plainRejected) := by
  unfold OverridesPlain
  decide +kernel

theorem override_accepts_iff_plain :
    AcceptsExactly Sample.rt
      (after Sample.rt
        (step Sample.rt (after Sample.rt Sample.fresh Sample.plainRejected) Sample.plainOverride).2
        [Sample.plainSignOff]) [lit "C1"] := by
  have hany : ∀ f : AuditFlow, OverridesPlain f →
      AcceptsExactly Sample.rt
        (after Sample.rt (step Sample.rt f Sample.plainOverride).2 [Sample.plainSignOff])
        [lit "C1"] := by
    intro f hf
    rcases hf with ⟨hover, hpapers, hshown, hkept⟩
    have hkeep : ∀ t ∈ trace Sample.rt (step Sample.rt f Sample.plainOverride).2
        [Sample.plainSignOff], KeepsPapers Sample.effectivePapers t := by
      intro t ht
      rw [List.mem_singleton.mp ht]
      refine ⟨hkept, ?_⟩
      rintro ⟨-, _, _, _, hop⟩
      cases hop
    exact (override_accepts_iff rfl hover hpapers hshown hkeep).mpr (by decide)
  exact hany _ overridesPlain

theorem OverridesComma.not_acceptsExactly {f : AuditFlow} (h : OverridesComma f) :
    ¬ AcceptsExactly Sample.rt (step Sample.rt f Sample.override).2 [lit "C,1"] := by
  have hkeep : ∀ t ∈ trace Sample.rt (step Sample.rt f Sample.override).2 [],
      KeepsPapers Sample.commaPapers t := by simp
  have hkept : (step Sample.rt f Sample.override).2.acceptedUnverified Sample.rt =
      .ok (((storedControls [lit "C,1"]).splitOn 44).filter (· ≠ [])) :=
    accepted_after_override rfl h.1 h.2.1 h.2.2 hkeep
  rw [acceptsExactly_iff hkept, not_forall]
  exact ⟨lit "C,1", by decide⟩

/-- The override showed the control, and Gate 2 refuses it. -/
theorem comma_control_refused :
    ∃ f : AuditFlow, Reachable Sample.rt f ∧
      (step Sample.rt f Sample.override).1 = .ok () ∧
      f.unverifiedEvidence Sample.rt Sample.override.env = .ok [lit "C,1"] ∧
      ¬ AcceptsExactly Sample.rt (step Sample.rt f Sample.override).2 [lit "C,1"] :=
  ⟨after Sample.rt Sample.fresh Sample.rejected, ⟨_, _, _, _, _, rfl⟩, overridesComma.1,
    overridesComma.2.2, overridesComma.not_acceptsExactly⟩

end AuditFlow

end AuditSwarm
