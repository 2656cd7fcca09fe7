import Mathlib

/-!
# Superseding logs

A log of judgements, oldest first.  Each has an id, a slot it fills and a draft it was made on,
and may supersede one earlier judgement.  A judgement stands until another supersedes it.  When
every judgement is put on the log under the rule `Admissible`, at most one stands in each slot for
each draft, so a draft that comes back finds its own judgements again and no others.
-/

/-- The parts of a judgement the rule is about. -/
structure SupersessionScheme (E I S D : Type) where
  id : E → I
  slot : E → S
  draft : E → D
  supersedes : E → Option I

namespace SupersessionScheme

variable {E I S D : Type} (c : SupersessionScheme E I S D)

def Superseded (log : List E) (i : I) : Prop := ∃ e ∈ log, c.supersedes e = some i

/-- A judgement of the log that nothing supersedes. -/
structure Standing (log : List E) (e : E) : Prop where
  mem : e ∈ log
  not_superseded : ¬ c.Superseded log (c.id e)

/-- The rule a judgement is put on a log under: its id is new, it supersedes the judgement that
stands in its slot for its draft, if one does, and nothing else. -/
structure Admissible (log : List E) (e : E) : Prop where
  fresh : ∀ a ∈ log, c.id a ≠ c.id e
  slot_free : ∀ a, c.Standing log a → c.slot a = c.slot e → c.draft a = c.draft e →
    c.supersedes e = some (c.id a)
  target : ∀ i, c.supersedes e = some i →
    ∃ a, c.Standing log a ∧ c.id a = i ∧ c.slot a = c.slot e ∧ c.draft a = c.draft e

/-- The logs built under the rule. -/
inductive WellFormed : List E → Prop
  | nil : WellFormed []
  | snoc {log : List E} {e : E} (built : WellFormed log) (rule : c.Admissible log e) :
      WellFormed (log ++ [e])

variable {c} {log log' : List E} {a b e : E} {i : I}

theorem superseded_append :
    c.Superseded (log ++ [e]) i ↔ c.Superseded log i ∨ c.supersedes e = some i := by
  simp [Superseded, or_and_right, exists_or]

theorem Superseded.append (h : c.Superseded log i) : c.Superseded (log ++ [e]) i :=
  superseded_append.mpr (.inl h)

/-- What stands in an extended log stood before, or is the new judgement. -/
theorem Standing.of_append (h : c.Standing (log ++ [e]) a) : c.Standing log a ∨ a = e := by
  rcases List.mem_append.mp h.mem with hmem | hmem
  · exact .inl ⟨hmem, fun hs => h.not_superseded hs.append⟩
  · exact .inr (List.mem_singleton.mp hmem)

theorem WellFormed.nodup (h : c.WellFormed log) : (log.map c.id).Nodup := by
  induction h with
  | nil => exact List.nodup_nil
  | @snoc log e built rule ih =>
      rw [List.map_append, List.map_singleton, List.nodup_append]
      refine ⟨ih, List.nodup_singleton _, ?_⟩
      intro i hi j hj
      obtain ⟨a, ha, rfl⟩ := List.mem_map.mp hi
      rw [List.mem_singleton.mp hj]
      exact rule.fresh a ha

/-- Judgements of a log with the same id are the same. -/
theorem WellFormed.eq_of_id (h : c.WellFormed log) (ha : a ∈ log) (hb : b ∈ log)
    (hid : c.id a = c.id b) : a = b :=
  List.inj_on_of_nodup_map h.nodup ha hb hid

/-- At most one judgement stands in a slot for a draft. -/
theorem WellFormed.unique (h : c.WellFormed log) (ha : c.Standing log a) (hb : c.Standing log b)
    (hslot : c.slot a = c.slot b) (hdraft : c.draft a = c.draft b) : a = b := by
  induction h with
  | nil => exact absurd ha.mem (by simp)
  | @snoc log e built rule ih =>
      rcases ha.of_append with ha' | rfl
      · rcases hb.of_append with hb' | rfl
        · exact ih ha' hb'
        · have hs := rule.slot_free a ha' hslot hdraft
          exact absurd (superseded_append.mpr (.inr hs)) ha.not_superseded
      · rcases hb.of_append with hb' | rfl
        · have hs := rule.slot_free b hb' hslot.symm hdraft.symm
          exact absurd (superseded_append.mpr (.inr hs)) hb.not_superseded
        · rfl

theorem WellFormed.superseded_once (h : c.WellFormed log) (ha : a ∈ log) (hb : b ∈ log)
    (hsa : c.supersedes a = some i) (hsb : c.supersedes b = some i) : a = b := by
  induction h with
  | nil => cases ha
  | @snoc log e built rule ih =>
      -- an id the new judgement supersedes is not superseded yet
      have hnew : c.supersedes e = some i → ¬ c.Superseded log i := by
        intro hs
        obtain ⟨t, ht, hid, -, -⟩ := rule.target i hs
        exact hid ▸ ht.not_superseded
      rcases List.mem_append.mp ha with ha | ha
      · rcases List.mem_append.mp hb with hb | hb
        · exact ih ha hb
        · rw [List.mem_singleton.mp hb] at hsb
          exact absurd ⟨a, ha, hsa⟩ (hnew hsb)
      · rw [List.mem_singleton.mp ha] at hsa ⊢
        rcases List.mem_append.mp hb with hb | hb
        · exact absurd ⟨b, hb, hsb⟩ (hnew hsa)
        · exact (List.mem_singleton.mp hb).symm

theorem WellFormed.older (h : c.WellFormed (log ++ log')) : c.WellFormed log := by
  induction log' using List.reverseRecOn with
  | nil => rwa [List.append_nil] at h
  | append_singleton log' e ih =>
      rw [← List.append_assoc] at h
      generalize hl : log ++ log' ++ [e] = l at h
      cases h with
      | nil => simp at hl
      | snoc built rule =>
          obtain ⟨rfl, -⟩ := List.append_inj' hl rfl
          exact ih built

/-- What a judgement of a log supersedes stood in its slot, for its draft, when it was put
there. -/
theorem WellFormed.target_standing (h : c.WellFormed (log ++ e :: log'))
    (hs : c.supersedes e = some i) :
    ∃ a, c.Standing log a ∧ c.id a = i ∧ c.slot a = c.slot e ∧ c.draft a = c.draft e := by
  have hlog : c.WellFormed (log ++ [e]) := by
    rw [← List.singleton_append, ← List.append_assoc] at h
    exact h.older
  generalize hl : log ++ [e] = l at hlog
  cases hlog with
  | nil => simp at hl
  | snoc built rule =>
      obtain ⟨rfl, he⟩ := List.append_inj' hl rfl
      obtain rfl := List.singleton_inj.mp he
      exact rule.target i hs

/-- Judgements put on a log later leave a slot none of them belongs to as it was. -/
theorem WellFormed.standing_append_iff (h : c.WellFormed (log ++ log'))
    (hslot : ∀ e ∈ log', c.slot e ≠ c.slot a) :
    c.Standing (log ++ log') a ↔ c.Standing log a := by
  constructor
  · intro ha
    rcases List.mem_append.mp ha.mem with hmem | hmem
    · refine ⟨hmem, ?_⟩
      intro hs
      obtain ⟨e, he, hsup⟩ := hs
      exact ha.not_superseded ⟨e, List.mem_append_left _ he, hsup⟩
    · exact absurd rfl (hslot a hmem)
  · intro ha
    refine ⟨List.mem_append_left _ ha.mem, ?_⟩
    intro hs
    obtain ⟨e, he, hsup⟩ := hs
    rcases List.mem_append.mp he with he | he
    · exact ha.not_superseded ⟨e, he, hsup⟩
    · -- a later judgement supersedes one of its own slot
      obtain ⟨before, rest, rfl⟩ := List.append_of_mem he
      have hlog : c.WellFormed ((log ++ before) ++ e :: rest) := by
        rwa [List.append_assoc]
      obtain ⟨t, ht, hid, hsame, -⟩ := hlog.target_standing hsup
      have htmem : t ∈ (log ++ before) ++ e :: rest := List.mem_append_left _ ht.mem
      have hamem : a ∈ (log ++ before) ++ e :: rest :=
        List.mem_append_left _ (List.mem_append_left _ ha.mem)
      obtain rfl := hlog.eq_of_id htmem hamem hid
      exact hslot e he hsame.symm

/-! ## Logs with the same judgements -/

theorem standing_congr (hmem : ∀ x, x ∈ log ↔ x ∈ log') : c.Standing log a ↔ c.Standing log' a := by
  have hsup : ∀ i, c.Superseded log i ↔ c.Superseded log' i := by
    intro i
    simp only [Superseded, hmem]
  constructor
  · intro h
    exact ⟨(hmem a).mp h.mem, fun hs => h.not_superseded ((hsup _).mpr hs)⟩
  · intro h
    exact ⟨(hmem a).mpr h.mem, fun hs => h.not_superseded ((hsup _).mp hs)⟩

/-! ## Logs with other judgements in the same places -/

section
variable {φ : E → E}

theorem superseded_map (hsup : ∀ e, c.supersedes (φ e) = c.supersedes e) :
    c.Superseded (log.map φ) i ↔ c.Superseded log i := by
  simp [Superseded, hsup]

theorem Standing.of_map (hid : ∀ e, c.id (φ e) = c.id e)
    (hsup : ∀ e, c.supersedes (φ e) = c.supersedes e) (h : c.Standing (log.map φ) b) :
    ∃ a, c.Standing log a ∧ φ a = b := by
  obtain ⟨a, ha, rfl⟩ := List.mem_map.mp h.mem
  refine ⟨a, ⟨ha, ?_⟩, rfl⟩
  intro hs
  refine h.not_superseded ?_
  rw [hid]
  exact (superseded_map hsup).mpr hs

theorem Standing.map (hid : ∀ e, c.id (φ e) = c.id e)
    (hsup : ∀ e, c.supersedes (φ e) = c.supersedes e) (h : c.Standing log a) :
    c.Standing (log.map φ) (φ a) := by
  refine ⟨List.mem_map_of_mem h.mem, ?_⟩
  rw [superseded_map hsup, hid]
  exact h.not_superseded

/-- A log stays one when its judgements change in no part the rule is about. -/
theorem WellFormed.map (h : c.WellFormed log) (hid : ∀ e, c.id (φ e) = c.id e)
    (hslot : ∀ e, c.slot (φ e) = c.slot e) (hdraft : ∀ e, c.draft (φ e) = c.draft e)
    (hsup : ∀ e, c.supersedes (φ e) = c.supersedes e) : c.WellFormed (log.map φ) := by
  induction h with
  | nil => exact .nil
  | @snoc log e built rule ih =>
      rw [List.map_append, List.map_singleton]
      refine .snoc ih ⟨?_, ?_, ?_⟩
      · intro b hb
        obtain ⟨a, ha, rfl⟩ := List.mem_map.mp hb
        rw [hid, hid]
        exact rule.fresh a ha
      · intro b hb hs hd
        obtain ⟨a, ha, rfl⟩ := hb.of_map hid hsup
        rw [hsup, hid]
        exact rule.slot_free a ha (by rwa [hslot, hslot] at hs) (by rwa [hdraft, hdraft] at hd)
      · intro i hi
        rw [hsup] at hi
        obtain ⟨a, ha, hai, hs, hd⟩ := rule.target i hi
        exact ⟨φ a, ha.map hid hsup, by rw [hid, hai], by rw [hslot, hslot, hs],
          by rw [hdraft, hdraft, hd]⟩

end

end SupersessionScheme
