import AuditSwarm.Run.Decisions

/-!
# Decision slots

Over every run, whatever the drafts become, a slot has at most one active decision, and a decision
is superseded at most once: by a later decision of its slot, while it was the active one.
-/

namespace AuditSwarm

open Python StrEnum Decisions

namespace AuditFlow

variable {rt : Runtime} {f g : AuditFlow} {d : ReviewDecision}

/-- The slots of a flow after some steps. -/
structure SlotsHeld (rt : Runtime) (past : List (Transition AuditFlow Call (Except Exn Unit)))
    (f : AuditFlow) : Prop where
  /-- No decision is listed twice. -/
  nodup : (f.state.reviewDecisions.map (·.decisionId)).Nodup
  /-- A slot has at most one active decision. -/
  one_active : ∀ digests, f.decisionContext.digests rt = .ok digests →
    ∀ a ∈ f.state.reviewDecisions, ∀ b ∈ f.state.reviewDecisions,
      stateOf digests f.state.reviewDecisions a = .active →
      stateOf digests f.state.reviewDecisions b = .active → slotKey a = slotKey b → a = b
  /-- A decision is superseded at most once. -/
  superseded_once : ∀ a ∈ f.state.reviewDecisions, ∀ b ∈ f.state.reviewDecisions,
    ∀ i, a.supersedes = some i → b.supersedes = some i → a = b
  /-- What a decision supersedes was recorded before it, in its slot and on its draft, and was
  active when it was recorded. -/
  target : ∀ d ∈ f.state.reviewDecisions, ∀ i, d.supersedes = some i →
    ∃ t ∈ past, RecordedAt rt t d ∧
      ∃ digests, t.before.decisionContext.digests rt = .ok digests ∧
        ∃ a ∈ t.before.state.reviewDecisions, a.decisionId = i ∧ slotKey a = slotKey d ∧
          a.draftDigest = d.draftDigest ∧
          stateOf digests t.before.state.reviewDecisions a = .active

/-- The flow before a step of a run is the flow after the steps before it. -/
theorem exists_calls_of_mem_trace {start : AuditFlow} {calls : List Call}
    {t : Transition AuditFlow Call (Except Exn Unit)} (h : t ∈ trace rt start calls) :
    ∃ pre post, calls = pre ++ t.label :: post ∧ t.before = after rt start pre := by
  induction calls generalizing start with
  | nil => cases h
  | cons c calls ih =>
      rcases List.mem_cons.mp h with rfl | h
      · exact ⟨[], calls, rfl, rfl⟩
      · obtain ⟨pre, post, rfl, hbefore⟩ := ih h
        exact ⟨c :: pre, post, rfl, hbefore⟩

/-- Decision slots: at every point of every run with fresh decision ids, a slot has at most one
active decision, and a decision is superseded at most once, by a later decision of its slot made
on the same draft while it was the active one. -/
theorem slots_held (rt : Runtime) (theme businessContext : Str) (frameworks : List Str)
    (sessionId : Option Str) (calls : List Call) (hfresh : FreshIds calls) :
    SlotsHeld rt (trace rt (.fresh theme businessContext frameworks sessionId) calls)
      (after rt (.fresh theme businessContext frameworks sessionId) calls) := by
  have hhistory := (@decisionHistory_run rt) theme businessContext frameworks sessionId hfresh
  refine ⟨hhistory.log.nodup, ?_, ?_, ?_⟩
  · intro digests _ a ha b hb hactive hactive' hslot
    exact hhistory.log.consistent.unique_active ha hb hactive hactive' hslot
  · intro a ha b hb i hai hbi
    have hne : i ≠ [] := by
      rintro rfl
      obtain ⟨t, -, hrec⟩ := hhistory.recorded a ha
      exact hrec.built.supersedes_ne hai
    refine hhistory.log.wellFormed.superseded_once (i := i) ha hb ?_ ?_
    · simp [decisionScheme, hai, hne]
    · simp [decisionScheme, hbi, hne]
  · intro d hd i hi
    obtain ⟨t, ht, hrec⟩ := hhistory.recorded d hd
    obtain ⟨pre, post, hcalls, hbefore⟩ := exists_calls_of_mem_trace ht
    have hpre : FreshIds pre := by
      unfold FreshIds at hfresh ⊢
      rw [hcalls, List.map_append] at hfresh
      exact (List.nodup_append.mp hfresh).1
    have hlog := ((@decisionHistory_run rt) theme businessContext frameworks sessionId
      hpre).log
    rw [← hbefore] at hlog
    obtain ⟨digests, a, hdigests, ha, hid, hslot, hdraft, hactive⟩ :=
      hrec.built.target_active hlog hi
    exact ⟨t, ht, hrec, digests, hdigests, a, ha, hid, hslot, hdraft, hactive⟩

/-- An audit in which a sign-off is superseded by a challenge. -/
theorem slots_held_challenged :
    SlotsHeld Sample.rt
      (trace Sample.rt (.fresh (lit "Access") (lit "A bank") [] none) Sample.challenged)
      (after Sample.rt (.fresh (lit "Access") (lit "A bank") [] none) Sample.challenged) :=
  slots_held Sample.rt (lit "Access") (lit "A bank") [] none Sample.challenged (by decide +kernel)

end AuditFlow

end AuditSwarm
