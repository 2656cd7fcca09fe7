import AuditSwarm.Lib.Supersession
import AuditSwarm.Decisions.Build

/-!
# Decision slots

The decisions of an audit as a superseding log: `build_decision` returns a decision that is
admissible after those recorded before, so at most one decision stands in a slot for a draft.
-/

namespace AuditSwarm

open Python StrEnum

namespace Decisions

variable {rt : Runtime} {ctx : Context} {decisions : List ReviewDecision} {d : ReviewDecision}

def decisionScheme : SupersessionScheme ReviewDecision Str SlotKey Str where
  id d := d.decisionId
  slot := slotKey
  draft d := d.draftDigest
  supersedes d := d.supersedes.filter (· ≠ [])

theorem mem_supersededIds {i : Str} :
    i ∈ supersededIds decisions ↔ decisionScheme.Superseded decisions i := by
  simp only [supersededIds, List.mem_filter, List.mem_filterMap, decide_eq_true_eq,
    SupersessionScheme.Superseded, decisionScheme, Option.filter_eq_some_iff]
  constructor
  · rintro ⟨⟨d, hd, hs⟩, hne⟩
    exact ⟨d, hd, hs, hne⟩
  · rintro ⟨d, hd, hs, hne⟩
    exact ⟨⟨d, hd, hs⟩, hne⟩

/-- A decision is active when it stands and its artifact has the digest it was made on. -/
theorem stateOf_eq_active_iff {digests : Dict Str (Option Str)} :
    stateOf digests decisions d = .active ↔
      ¬ decisionScheme.Superseded decisions d.decisionId ∧
        (digests.get? d.artifact).getD none = some d.draftDigest := by
  unfold stateOf
  rw [← mem_supersededIds]
  by_cases hs : d.decisionId ∈ supersededIds decisions
  · simp [hs]
  · by_cases hd : (digests.get? d.artifact).getD none = some d.draftDigest
    · simp [hs, hd]
    · simp [hs, hd]

/-! ## States by id -/

theorem foldl_states_get? (k : ReviewDecision → DecisionState) (ds : List ReviewDecision)
    (acc : Dict Str DecisionState) (i : Str) :
    (ds.foldl (fun out d => out.set d.decisionId (k d)) acc).get? i =
      ((ds.filter (·.decisionId = i)).getLast?.map k).or (acc.get? i) := by
  induction ds generalizing acc with
  | nil => rfl
  | cons d ds ih =>
      rw [List.foldl_cons, ih, Dict.get?_set]
      by_cases hi : d.decisionId = i
      · subst hi
        cases hl : (ds.filter (·.decisionId = d.decisionId)).getLast? with
        | none => simp [List.getLast?_eq_none_iff.mp hl]
        | some b => simp [List.getLast?_cons, hl]
      · simp [hi]

theorem decisionStates_get? {states : Dict Str DecisionState} {digests : Dict Str (Option Str)}
    (hdigests : ctx.digests rt = .ok digests) (h : decisionStates rt ctx decisions = .ok states)
    (i : Str) :
    states.get? i =
      (decisions.filter (·.decisionId = i)).getLast?.map (stateOf digests decisions) := by
  unfold decisionStates at h
  rw [hdigests, Except.ok_bind, Except.pure_eq_ok_iff] at h
  rw [← h, foldl_states_get?]
  simp

/-- Where an id names one decision, a decision has its own state. -/
theorem decisionStates_of_mem {states : Dict Str DecisionState}
    {digests : Dict Str (Option Str)} (hdigests : ctx.digests rt = .ok digests)
    (h : decisionStates rt ctx decisions = .ok states)
    (hid : ∀ a ∈ decisions, a.decisionId = d.decisionId → a = d) (hd : d ∈ decisions) :
    states.get? d.decisionId = some (stateOf digests decisions d) := by
  have hmem : d ∈ decisions.filter (·.decisionId = d.decisionId) :=
    List.mem_filter.mpr ⟨hd, by simp⟩
  obtain ⟨b, hb⟩ : ∃ b, (decisions.filter (·.decisionId = d.decisionId)).getLast? = some b :=
    ⟨_, List.getLast?_eq_some_getLast (List.ne_nil_of_mem hmem)⟩
  have hbmem := List.mem_of_getLast? hb
  simp only [List.mem_filter, decide_eq_true_eq] at hbmem
  rw [decisionStates_get? hdigests h, hb, hid b hbmem.1 hbmem.2, Option.map_some]

theorem nodup_states {states : Dict Str DecisionState}
    (h : decisionStates rt ctx decisions = .ok states) : (states.map Prod.fst).Nodup := by
  unfold decisionStates at h
  obtain ⟨digests, -, h⟩ := Except.bind_eq_ok_iff.mp h
  rw [Except.pure_eq_ok_iff] at h
  rw [← h]
  refine List.foldlRecOn decisions _
    (motive := fun out : Dict Str DecisionState => (out.map Prod.fst).Nodup) List.nodup_nil ?_
  intro out hout d _
  exact Dict.nodup_keys_set hout _ _

/-- Where an id names one decision, an id has the state of its decision. -/
theorem decisionStates_eq_some_iff {states : Dict Str DecisionState}
    {digests : Dict Str (Option Str)} (hdigests : ctx.digests rt = .ok digests)
    (h : decisionStates rt ctx decisions = .ok states)
    (hid : ∀ a ∈ decisions, ∀ b ∈ decisions, a.decisionId = b.decisionId → a = b) {i : Str}
    {s : DecisionState} :
    states.get? i = some s ↔
      ∃ d ∈ decisions, d.decisionId = i ∧ stateOf digests decisions d = s := by
  constructor
  · intro hi
    rw [decisionStates_get? hdigests h, Option.map_eq_some_iff] at hi
    obtain ⟨d, hd, hs⟩ := hi
    have hmem := List.mem_of_getLast? hd
    simp only [List.mem_filter, decide_eq_true_eq] at hmem
    exact ⟨d, hmem.1, hmem.2, hs⟩
  · rintro ⟨d, hd, rfl, rfl⟩
    exact decisionStates_of_mem hdigests h (fun a ha => hid a ha d hd) hd

/-! ## The active decision of a slot -/

theorem foldl_active_get? (p : ReviewDecision → Prop) [DecidablePred p]
    (ds : List ReviewDecision) (acc : Dict SlotKey ReviewDecision) (key : SlotKey) :
    (ds.foldl (fun out d => if p d then out.set (slotKey d) d else out) acc).get? key =
      ((ds.filter fun d => p d ∧ slotKey d = key).getLast?).or (acc.get? key) := by
  induction ds generalizing acc with
  | nil => rfl
  | cons d ds ih =>
      rw [List.foldl_cons, ih]
      by_cases hp : p d
      · rw [if_pos hp, Dict.get?_set]
        by_cases hkey : slotKey d = key
        · rw [List.filter_cons_of_pos (by simp [hp, hkey]), List.getLast?_cons, if_pos hkey]
          generalize ds.filter (fun d => p d ∧ slotKey d = key) = l
          cases l.getLast? <;> rfl
        · rw [List.filter_cons_of_neg (by simp [hkey]), if_neg hkey]
      · rw [if_neg hp, List.filter_cons_of_neg (by simp [hp])]

/-- The decision of a slot is the last of its active ones. -/
theorem activeBySlot_get? {states : Dict Str DecisionState} {active : Dict SlotKey ReviewDecision}
    (hstates : decisionStates rt ctx decisions = .ok states)
    (h : activeBySlot rt ctx decisions = .ok active) (key : SlotKey) :
    active.get? key = (decisions.filter fun d =>
      states.get? d.decisionId = some .active ∧ slotKey d = key).getLast? := by
  unfold activeBySlot at h
  rw [hstates, Except.ok_bind, Except.pure_eq_ok_iff] at h
  rw [← h, foldl_active_get?]
  simp

theorem exists_states {active : Dict SlotKey ReviewDecision}
    (h : activeBySlot rt ctx decisions = .ok active) :
    ∃ digests states, ctx.digests rt = .ok digests ∧
      decisionStates rt ctx decisions = .ok states := by
  unfold activeBySlot at h
  obtain ⟨states, hstates, -⟩ := Except.bind_eq_ok_iff.mp h
  unfold decisionStates at hstates
  obtain ⟨digests, hdigests, -⟩ := Except.bind_eq_ok_iff.mp hstates
  refine ⟨digests, states, hdigests, ?_⟩
  unfold decisionStates
  exact hstates

/-- Where the artifacts can be digested, every list of decisions has states. -/
theorem exists_active {digests : Dict Str (Option Str)} (hdigests : ctx.digests rt = .ok digests)
    (decisions : List ReviewDecision) :
    ∃ states active, decisionStates rt ctx decisions = .ok states ∧
      activeBySlot rt ctx decisions = .ok active := by
  have hstates : ∃ states, decisionStates rt ctx decisions = .ok states := by
    unfold decisionStates
    rw [hdigests, Except.ok_bind]
    exact ⟨_, rfl⟩
  obtain ⟨states, hstates⟩ := hstates
  refine ⟨states, ?_⟩
  unfold activeBySlot
  rw [hstates, Except.ok_bind]
  exact ⟨_, rfl, rfl⟩

/-! ## The log of an audit -/

/-- Decisions about their type's subject, of which an id names one, and one stands in a slot for a
draft, in whatever order they are listed. -/
structure Consistent (decisions : List ReviewDecision) : Prop where
  eq_of_id : ∀ a ∈ decisions, ∀ b ∈ decisions, a.decisionId = b.decisionId → a = b
  unique : ∀ a b, decisionScheme.Standing decisions a → decisionScheme.Standing decisions b →
    slotKey a = slotKey b → a.draftDigest = b.draftDigest → a = b
  subjectType : ∀ d ∈ decisions, d.subjectType = subjectForType d.decisionType
  artifact : ∀ d ∈ decisions, d.artifact = artifactForSubject d.subjectType
  phase : ∀ d ∈ decisions, d.phase = (phaseForType d.decisionType).number

/-- The decisions of an audit: a superseding log of decisions about their type's subject. -/
structure DecisionLog (decisions : List ReviewDecision) : Prop where
  wellFormed : decisionScheme.WellFormed decisions
  subjectType : ∀ d ∈ decisions, d.subjectType = subjectForType d.decisionType
  artifact : ∀ d ∈ decisions, d.artifact = artifactForSubject d.subjectType
  phase : ∀ d ∈ decisions, d.phase = (phaseForType d.decisionType).number

theorem DecisionLog.nodup (h : DecisionLog decisions) :
    (decisions.map (·.decisionId)).Nodup := h.wellFormed.nodup

theorem DecisionLog.consistent (h : DecisionLog decisions) : Consistent decisions where
  eq_of_id _ ha _ hb := h.wellFormed.eq_of_id ha hb
  unique _ _ := h.wellFormed.unique
  subjectType := h.subjectType
  artifact := h.artifact
  phase := h.phase

theorem Consistent.congr {decisions' : List ReviewDecision} (h : Consistent decisions)
    (hmem : ∀ d, d ∈ decisions' ↔ d ∈ decisions) : Consistent decisions' where
  eq_of_id a ha b hb := h.eq_of_id a ((hmem a).mp ha) b ((hmem b).mp hb)
  unique a b ha hb := h.unique a b ((SupersessionScheme.standing_congr hmem).mp ha)
    ((SupersessionScheme.standing_congr hmem).mp hb)
  subjectType d hd := h.subjectType d ((hmem d).mp hd)
  artifact d hd := h.artifact d ((hmem d).mp hd)
  phase d hd := h.phase d ((hmem d).mp hd)

theorem artifact_of_slotKey {a b : ReviewDecision} (ha : a.artifact = artifactForSubject a.subjectType)
    (hb : b.artifact = artifactForSubject b.subjectType) (hslot : slotKey a = slotKey b) :
    a.artifact = b.artifact := by
  have htype : a.subjectType = b.subjectType := value_injective (Prod.mk.inj (Prod.mk.inj hslot).2).1
  rw [ha, hb, htype]

theorem Consistent.unique_active (h : Consistent decisions) {digests : Dict Str (Option Str)}
    {a b : ReviewDecision} (ha : a ∈ decisions) (hb : b ∈ decisions)
    (hactive : stateOf digests decisions a = .active)
    (hactive' : stateOf digests decisions b = .active) (hslot : slotKey a = slotKey b) : a = b := by
  obtain ⟨hsa, hda⟩ := stateOf_eq_active_iff.mp hactive
  obtain ⟨hsb, hdb⟩ := stateOf_eq_active_iff.mp hactive'
  have hartifact := artifact_of_slotKey (h.artifact a ha) (h.artifact b hb) hslot
  refine h.unique a b ⟨ha, hsa⟩ ⟨hb, hsb⟩ hslot ?_
  rw [hartifact] at hda
  exact Option.some.inj (hda.symm.trans hdb)

theorem Consistent.active_iff (h : Consistent decisions) {digests : Dict Str (Option Str)}
    {active : Dict SlotKey ReviewDecision} (hdigests : ctx.digests rt = .ok digests)
    (hactive : activeBySlot rt ctx decisions = .ok active) {key : SlotKey} :
    active.get? key = some d ↔
      d ∈ decisions ∧ stateOf digests decisions d = .active ∧ slotKey d = key := by
  obtain ⟨-, states, -, hstates⟩ := exists_states hactive
  have hstate : ∀ e ∈ decisions,
      states.get? e.decisionId = some (stateOf digests decisions e) :=
    fun e he => decisionStates_of_mem hdigests hstates (fun a ha => h.eq_of_id a ha e he) he
  rw [activeBySlot_get? hstates hactive]
  constructor
  · intro hlast
    have hmem := List.mem_of_getLast? hlast
    simp only [List.mem_filter, decide_eq_true_eq] at hmem
    obtain ⟨hd, hs, hkey⟩ := hmem
    rw [hstate d hd] at hs
    exact ⟨hd, Option.some.inj hs, hkey⟩
  · intro hd
    obtain ⟨hd, hs, hkey⟩ := hd
    have hmem : d ∈ decisions.filter fun e =>
        states.get? e.decisionId = some .active ∧ slotKey e = key := by
      simp only [List.mem_filter, decide_eq_true_eq]
      exact ⟨hd, by rw [hstate d hd, hs], hkey⟩
    obtain ⟨b, hb⟩ : ∃ b, (decisions.filter fun e =>
        states.get? e.decisionId = some .active ∧ slotKey e = key).getLast? = some b :=
      ⟨_, List.getLast?_eq_some_getLast (List.ne_nil_of_mem hmem)⟩
    have hbmem := List.mem_of_getLast? hb
    simp only [List.mem_filter, decide_eq_true_eq] at hbmem
    obtain ⟨hbd, hbs, hbkey⟩ := hbmem
    rw [hstate b hbd] at hbs
    rw [hb, h.unique_active hd hbd hs (Option.some.inj hbs) (hkey.trans hbkey.symm)]

/-! ## Digests of a context -/

@[simp] theorem artifact_finding (ctx : Context) :
    ctx.artifact (artifactForSubject .finding) = ctx.papers.map WorkingPaperSchema.toJson := rfl

@[simp] theorem artifact_deficiency (ctx : Context) :
    ctx.artifact (artifactForSubject .deficiency) = ctx.report.map FinalReportSchema.toJson := by
  unfold Context.artifact
  rw [if_neg (by decide), if_pos (by decide)]

@[simp] theorem artifact_engagement (ctx : Context) :
    ctx.artifact (artifactForSubject .engagement) = ctx.report.map FinalReportSchema.toJson :=
  artifact_deficiency ctx

theorem digestOf_eq_ok {digests : Dict Str (Option Str)} (hdigests : ctx.digests rt = .ok digests)
    (stype : DecisionSubjectType) :
    ctx.digestOf rt (artifactForSubject stype) =
      .ok ((digests.get? (artifactForSubject stype)).getD none) := by
  unfold Context.digests at hdigests
  simp only [Except.bind_eq_ok_iff, Except.pure_eq_ok_iff] at hdigests
  obtain ⟨papers, hpapers, report, hreport, rfl⟩ := hdigests
  cases stype with
  | finding => exact hpapers
  | deficiency => simpa [artifactForSubject, Dict.get?_cons] using hreport
  | engagement => simpa [artifactForSubject, Dict.get?_cons] using hreport

theorem digests_get? {digests : Dict Str (Option Str)} {stype : DecisionSubjectType} {dumped : Json}
    {digest : Str} (hdigests : ctx.digests rt = .ok digests)
    (hartifact : ctx.artifact (artifactForSubject stype) = some dumped)
    (hdigest : Trail.artifactDigest rt dumped = .ok digest) :
    (digests.get? (artifactForSubject stype)).getD none = some digest := by
  have hof := digestOf_eq_ok hdigests stype
  unfold Context.digestOf at hof
  rw [hartifact] at hof
  simp only [hdigest, Except.map] at hof
  exact (Except.ok.inj hof).symm

/-! ## Later decisions -/

theorem DecisionLog.older {new : List ReviewDecision} (h : DecisionLog (decisions ++ new)) :
    DecisionLog decisions where
  wellFormed := h.wellFormed.older
  subjectType d hd := h.subjectType d (List.mem_append_left _ hd)
  artifact d hd := h.artifact d (List.mem_append_left _ hd)
  phase d hd := h.phase d (List.mem_append_left _ hd)

/-- Decisions recorded later in other slots, on artifacts that may have changed otherwise, leave
the active decision of a slot as it was. -/
theorem activeBySlot_append {ctx' : Context} {new : List ReviewDecision}
    {active active' : Dict SlotKey ReviewDecision} {key : SlotKey}
    (hlog : DecisionLog (decisions ++ new)) (hactive : activeBySlot rt ctx decisions = .ok active)
    (hactive' : activeBySlot rt ctx' (decisions ++ new) = .ok active')
    (hnew : ∀ d ∈ new, slotKey d ≠ key)
    (hartifact : ∀ stype, key.2.1 = value stype →
      ctx'.artifact (artifactForSubject stype) = ctx.artifact (artifactForSubject stype)) :
    active'.get? key = active.get? key := by
  obtain ⟨digests, -, hdigests, -⟩ := exists_states hactive
  obtain ⟨digests', -, hdigests', -⟩ := exists_states hactive'
  have hstate : ∀ d ∈ decisions, slotKey d = key →
      (stateOf digests' (decisions ++ new) d = .active ↔
        stateOf digests decisions d = .active) := by
    intro d hd hkey
    have hdigest : (digests'.get? d.artifact).getD none = (digests.get? d.artifact).getD none := by
      have hof := hartifact d.subjectType (congrArg (·.2.1) hkey).symm
      have hof' : ctx'.digestOf rt (artifactForSubject d.subjectType) =
          ctx.digestOf rt (artifactForSubject d.subjectType) := by
        unfold Context.digestOf
        rw [hof]
      rw [digestOf_eq_ok hdigests', digestOf_eq_ok hdigests] at hof'
      rw [hlog.artifact d (List.mem_append_left _ hd)]
      exact Except.ok.inj hof'
    have hstanding := hlog.wellFormed.standing_append_iff (a := d)
      fun e he hslot => hnew e he (hslot.trans hkey)
    have hmem : d ∈ decisions ++ new := List.mem_append_left _ hd
    rw [stateOf_eq_active_iff, stateOf_eq_active_iff, hdigest]
    constructor
    · intro h
      exact ⟨(hstanding.mp ⟨hmem, h.1⟩).not_superseded, h.2⟩
    · intro h
      exact ⟨(hstanding.mpr ⟨hd, h.1⟩).not_superseded, h.2⟩
  refine Option.ext ?_
  intro d
  rw [hlog.consistent.active_iff hdigests' hactive',
    hlog.older.consistent.active_iff hdigests hactive]
  constructor
  · intro h
    obtain ⟨hmem, hs, hkey⟩ := h
    rcases List.mem_append.mp hmem with hd | hd
    · exact ⟨hd, (hstate d hd hkey).mp hs, hkey⟩
    · exact absurd hkey (hnew d hd)
  · intro h
    obtain ⟨hd, hs, hkey⟩ := h
    exact ⟨List.mem_append_left _ hd, (hstate d hd hkey).mpr hs, hkey⟩

/-! ## Recording -/

/-- What `checkSupersedes` lets through: the named decision is the active one of the slot, and an
active one must be named. -/
theorem checkSupersedes_eq_ok {active : Dict SlotKey ReviewDecision} {key : SlotKey}
    {supersedes : Option Str} {u : Unit}
    (h : checkSupersedes rt ctx decisions active key supersedes = .ok u) :
    (active.get? key).map (·.decisionId) = supersedes := by
  unfold checkSupersedes at h
  cases supersedes with
  | none =>
      cases hcurrent : active.get? key with
      | none => rfl
      | some c => simp [hcurrent] at h
  | some target =>
      dsimp only at h
      split at h
      · cases h
      · split at h
        · cases h
        · split at h
          · obtain ⟨_, -, h⟩ := Except.bind_eq_ok_iff.mp h
            cases h
          · rename_i hsame
            exact not_not.mp hsame

theorem Built.admissible {status : Str} {preparers : List Str} {uuid : Str}
    (hlog : DecisionLog decisions) (h : Built rt ctx status preparers decisions uuid d)
    (hfresh : ∀ a ∈ decisions, a.decisionId ≠ uuid) : decisionScheme.Admissible decisions d := by
  obtain ⟨active, parsed, decidedAt, hactive, -, hsupersedes⟩ := h.values
  obtain ⟨digests, -, hdigests, -⟩ := exists_states hactive
  obtain ⟨dumped, hdumped, hdigest⟩ := h.digest
  rw [h.artifact] at hdumped
  have hdraft := digests_get? hdigests hdumped hdigest
  have hnamed := checkSupersedes_eq_ok hsupersedes
  have hfilter : d.supersedes.filter (· ≠ []) = d.supersedes := by
    cases hs : d.supersedes with
    | none => rfl
    | some i =>
        have hne : i ≠ [] := by
          rintro rfl
          exact h.supersedes_ne hs
        simp [hne]
  -- the decisions that stand in the slot for the draft are the active ones
  have hiff : ∀ a, (decisionScheme.Standing decisions a ∧ slotKey a = slotKey d ∧
      a.draftDigest = d.draftDigest) ↔ active.get? (slotKey d) = some a := by
    intro a
    rw [hlog.consistent.active_iff hdigests hactive, stateOf_eq_active_iff]
    constructor
    · intro ha
      obtain ⟨hstanding, hslot, hsame⟩ := ha
      have hartifact := artifact_of_slotKey (hlog.artifact a hstanding.mem) h.artifact hslot
      refine ⟨hstanding.mem, ⟨hstanding.not_superseded, ?_⟩, hslot⟩
      rw [hartifact, h.artifact, hdraft, hsame]
    · intro ha
      obtain ⟨hmem, ⟨hns, hd⟩, hslot⟩ := ha
      have hartifact := artifact_of_slotKey (hlog.artifact a hmem) h.artifact hslot
      rw [hartifact, h.artifact, hdraft] at hd
      exact ⟨⟨hmem, hns⟩, hslot, (Option.some.inj hd).symm⟩
  refine ⟨?_, ?_, ?_⟩
  · intro a ha
    change a.decisionId ≠ d.decisionId
    rw [h.id]
    exact hfresh a ha
  · intro a ha hslot hsame
    have hget := (hiff a).mp ⟨ha, hslot, hsame⟩
    change d.supersedes.filter (· ≠ []) = some a.decisionId
    rw [hfilter, ← hnamed, hget, Option.map_some]
  · intro i hi
    have hi' : d.supersedes = some i := by
      rw [← hfilter]
      exact hi
    rw [hi', Option.map_eq_some_iff] at hnamed
    obtain ⟨a, hget, hid⟩ := hnamed
    obtain ⟨hstanding, hslot, hsame⟩ := (hiff a).mpr hget
    exact ⟨a, hstanding, hid, hslot, hsame⟩

/-- What a decision supersedes was the active decision of its slot, made on the same draft. -/
theorem Built.target_active {status : Str} {preparers : List Str} {uuid i : Str}
    (hlog : DecisionLog decisions) (h : Built rt ctx status preparers decisions uuid d)
    (hs : d.supersedes = some i) :
    ∃ digests a, ctx.digests rt = .ok digests ∧ a ∈ decisions ∧ a.decisionId = i ∧
      slotKey a = slotKey d ∧ a.draftDigest = d.draftDigest ∧
      stateOf digests decisions a = .active := by
  obtain ⟨active, parsed, decidedAt, hactive, -, hsupersedes⟩ := h.values
  obtain ⟨digests, -, hdigests, -⟩ := exists_states hactive
  obtain ⟨dumped, hdumped, hdigest⟩ := h.digest
  rw [h.artifact] at hdumped
  have hdraft := digests_get? hdigests hdumped hdigest
  have hnamed := checkSupersedes_eq_ok hsupersedes
  rw [hs, Option.map_eq_some_iff] at hnamed
  obtain ⟨a, hget, hid⟩ := hnamed
  obtain ⟨hmem, hstate, hslot⟩ := (hlog.consistent.active_iff hdigests hactive).mp hget
  have hartifact := artifact_of_slotKey (hlog.artifact a hmem) h.artifact hslot
  have hsame := (stateOf_eq_active_iff.mp hstate).2
  rw [hartifact, h.artifact, hdraft] at hsame
  exact ⟨digests, a, hdigests, hmem, hid, hslot, (Option.some.inj hsame).symm, hstate⟩

theorem DecisionLog.append {status : Str} {preparers : List Str} {uuid : Str}
    (hlog : DecisionLog decisions) (h : Built rt ctx status preparers decisions uuid d)
    (hfresh : ∀ a ∈ decisions, a.decisionId ≠ uuid) : DecisionLog (decisions ++ [d]) where
  wellFormed := .snoc hlog.wellFormed (h.admissible hlog hfresh)
  subjectType := by
    intro a ha
    rcases List.mem_append.mp ha with ha | ha
    · exact hlog.subjectType a ha
    · rw [List.mem_singleton.mp ha]
      exact h.subjectType
  artifact := by
    intro a ha
    rcases List.mem_append.mp ha with ha | ha
    · exact hlog.artifact a ha
    · rw [List.mem_singleton.mp ha]
      exact h.artifact
  phase := by
    intro a ha
    rcases List.mem_append.mp ha with ha | ha
    · exact hlog.phase a ha
    · rw [List.mem_singleton.mp ha]
      exact h.phase

end Decisions

end AuditSwarm
