import AuditSwarm.Run.RecordedDecisions

/-!
# A trail that was only appended to

A trail that `append_entry` built from nothing under one key setting passes its own chain
verification, whatever was appended; and what was recorded of its decisions is what the stored
decisions are compared with.
-/

namespace AuditSwarm

open Python

namespace Trail

variable {rt : Runtime} {environ : Environ} {key : Option Bytes} {trail : List StrEntry}

/-- The trails `append_entry` builds from nothing under one key setting. -/
inductive BuiltUnder (rt : Runtime) (environ : Environ) : List StrEntry → Prop
  | nil : BuiltUnder rt environ []
  | append {trail : List StrEntry} {entry e : StrEntry} (built : BuiltUnder rt environ trail)
      (appended : appendEntry rt environ trail entry = .ok e) :
      BuiltUnder rt environ (trail ++ [e])

/-! ## The chain -/

theorem Linked.concat {bare es : List Entry} {prev : Option Str} {e : Entry} {alg : Str}
    (h : Linked rt key bare prev es)
    (he : EntryChecked rt key bare ((es.getLast?.map (entryHash rt)).or prev) e alg) :
    Linked rt key bare prev (es ++ [e]) := by
  induction es generalizing prev with
  | nil => exact ⟨⟨alg, he⟩, trivial⟩
  | cons e' es ih =>
      refine ⟨h.1, ih h.2 ?_⟩
      rw [List.getLast?_cons, Option.map_some, Option.some_or] at he
      cases hlast : es.getLast? with
      | none =>
          rw [hlast] at he
          exact he
      | some last =>
          rw [hlast] at he
          exact he

theorem get?_hash_alg {entry e : StrEntry} {prev : Str} {data : Bytes}
    (h : Appended rt environ trail entry e key prev data) :
    e.get? (lit "hash_alg") = some (algFor key) := by
  rw [h.entry_eq, Dict.get?_set_of_ne _ _ (by decide), linked,
    Dict.get?_set_of_ne _ _ (by decide), Dict.get?_set_self]

theorem inputFor_algFor (key : Option Bytes) (data : Bytes) :
    inputFor (algFor key) key data = digestInput key data := by
  cases key with
  | none => exact if_neg algPlain_ne_algKeyed
  | some k => exact if_pos rfl

/-- The hash a next entry must link to, if there is an entry before it. -/
theorem linkTo_of_prevHash {prev : Str} (hchained : ∀ e ∈ trail, isChained e.toEntry = true)
    (h : prevHash rt trail (algFor key) key = .ok prev) :
    linkTo rt key [] (algFor key)
      ((((trail.map StrEntry.toEntry).getLast?).map (entryHash rt)).or none) = .ok prev := by
  rw [Option.or_none, List.getLast?_map, Option.map_map]
  cases hlast : trail.getLast? with
  | none =>
      rw [List.getLast?_eq_none_iff.mp hlast, prevHash_of_unchained] at h
      · exact h
      · exact fun e he => absurd he List.not_mem_nil
  | some last =>
      have hmem := List.mem_of_getLast? hlast
      have hany : (trail.map StrEntry.toEntry).any isChained = true :=
        List.any_eq_true.mpr ⟨last.toEntry, List.mem_map_of_mem hmem, hchained last hmem⟩
      unfold prevHash at h
      rw [if_pos hany, hlast] at h
      rw [← h]
      exact congrArg Except.ok (fieldText_toEntry last _)

theorem Appended.checked {entry e : StrEntry} {prev : Str} {data : Bytes}
    (hchained : ∀ e ∈ trail, isChained e.toEntry = true)
    (h : Appended rt environ trail entry e key prev data) :
    EntryChecked rt key [] ((((trail.map StrEntry.toEntry).getLast?).map (entryHash rt)).or none)
      e.toEntry (algFor key) where
  alg_eq := by
    unfold StrEntry.toEntry
    rw [Dict.get?_mapValues, get?_hash_alg h]
    rfl
  known := by
    cases key with
    | none => exact .inr rfl
    | some k => exact .inl rfl
  keyed := by
    cases key with
    | none => exact fun hkeyed => absurd hkeyed algPlain_ne_algKeyed
    | some k => exact fun _ hnone => by cases hnone
  truthy := by
    have hhash := entryHash_ne_nil h.hashedBy
    rw [entryHash, fieldText_toEntry] at hhash
    rw [fieldTruthy_toEntry]
    exact decide_eq_true hhash
  link := by
    rw [h.entryPrev]
    exact linkTo_of_prevHash hchained h.prev_eq
  hash := by
    refine ⟨data, ?_, ?_⟩
    · rw [h.hashedBy.content, digestInput_message]
    · rw [h.hashedBy.hash, inputFor_algFor]

/-- What is known of a trail built under one key setting. -/
structure OwnChain (rt : Runtime) (environ : Environ) (key : Option Bytes)
    (trail : List StrEntry) : Prop where
  linked : Linked rt key [] none (trail.map StrEntry.toEntry)
  chained : ∀ e ∈ trail, isChained e.toEntry = true
  alg : ∀ e ∈ trail, e.get? (lit "hash_alg") = some (algFor key)

theorem BuiltUnder.ownChain (hkey : trailKey rt environ = .ok key)
    (h : BuiltUnder rt environ trail) : OwnChain rt environ key trail := by
  induction h with
  | nil =>
      exact ⟨trivial, fun e he => absurd he List.not_mem_nil,
        fun e he => absurd he List.not_mem_nil⟩
  | @append trail entry e built appended ih =>
      rcases appendEntry_eq_ok_iff.mp appended with ⟨key', prev, data, happ⟩
      have hsame : key' = key := Except.ok.inj (happ.key_eq.symm.trans hkey)
      rw [hsame] at happ
      refine ⟨?_, ?_, ?_⟩
      · rw [List.map_append, List.map_singleton]
        exact ih.linked.concat (happ.checked ih.chained)
      · intro e' he'
        rcases List.mem_append.mp he' with he' | he'
        · exact ih.chained e' he'
        · rw [List.mem_singleton.mp he']
          exact isChained_appendEntry appended
      · intro e' he'
        rcases List.mem_append.mp he' with he' | he'
        · exact ih.alg e' he'
        · rw [List.mem_singleton.mp he']
          exact get?_hash_alg happ

theorem BuiltUnder.key_eq (h : BuiltUnder rt environ trail) (hne : trail ≠ []) :
    ∃ key, trailKey rt environ = .ok key := by
  cases h with
  | nil => exact absurd rfl hne
  | append built appended =>
      rcases appendEntry_eq_ok_iff.mp appended with ⟨key, prev, data, happ⟩
      exact ⟨key, happ.key_eq⟩

theorem OwnChain.firstChained (h : OwnChain rt environ key trail) :
    firstChained (trail.map StrEntry.toEntry) = 0 := by
  unfold Trail.firstChained
  cases trail with
  | nil => rfl
  | cons e trail =>
      rw [List.map_cons, List.findIdx_cons, h.chained e List.mem_cons_self]
      rfl

/-- The chain loop goes through the trail, and meets no unkeyed entry where there is a key. -/
theorem OwnChain.runChain (h : OwnChain rt environ key trail) (hne : trail ≠ []) :
    ∃ st, runChain rt key (trail.map StrEntry.toEntry) = .ok (.through st) ∧
      (key = none ∨ st.lastPlain = none) := by
  have hnone : ∀ p ∈ (⟨0, none, none⟩ : ChainState).expectedPrev, isAscii p = true :=
    fun p hp => absurd hp (Option.not_mem_none p)
  rcases @chainLoop_of_linked rt key [] (trail.map StrEntry.toEntry) [] 0 ⟨0, none, none⟩ h.linked
    hnone with ⟨j, st, hloop, -, hlast, -⟩
  refine ⟨st, ?_, ?_⟩
  · unfold Trail.runChain
    rw [h.firstChained, List.take_zero, List.drop_zero]
    rw [List.append_nil] at hloop
    exact hloop
  · cases key with
    | none => exact .inl rfl
    | some k =>
        right
        have hlast' := List.getLast?_eq_some_getLast hne
        have hmem := List.getLast_mem hne
        refine (hlast (trail.getLast hne).toEntry ?_).mpr ?_
        · rw [List.getLast?_map, hlast']
          rfl
        · unfold StrEntry.toEntry
          rw [Dict.get?_mapValues, h.alg _ hmem]
          rfl

/-! ## The verification -/

/-- A verification that reports nothing. -/
structure Clean (v : Verification) : Prop where
  status : v.status = .ok
  artifacts : v.changedSinceApproval = []
  decisions : v.decisionsChanged = []

theorem contentCheck_clean {entries : List Entry} {first : Nat} {anchored allKeyed : Bool}
    {artifacts : Option (Dict Str Json)} {decisions : Option (List Json)}
    (hartifacts : artifactCheck rt entries artifacts decisions = .ok [])
    (hdecisions : decisionCheck rt entries decisions = .ok []) :
    ∃ v, contentCheck rt entries first anchored allKeyed artifacts decisions = .ok v ∧ Clean v := by
  unfold contentCheck
  rw [hartifacts, hdecisions]
  exact ⟨_, rfl, rfl, rfl, rfl⟩

/-- A trail built under one key setting is reported as ok against an anchor it meets, artifacts
that match its approvals and decisions that match its entries. -/
theorem BuiltUnder.verify {anchor : Anchor} {artifacts : Option (Dict Str Json)}
    {decisions : Option (List Json)} {count : Nat} (h : BuiltUnder rt environ trail)
    (hcount : anchorCount rt anchor = .ok count)
    (hmet : AnchorMet rt (trail.map StrEntry.toEntry) count (anchorHead rt anchor))
    (hartifacts : artifactCheck rt (trail.map StrEntry.toEntry) artifacts decisions = .ok [])
    (hdecisions : decisionCheck rt (trail.map StrEntry.toEntry) decisions = .ok []) :
    ∃ v, verifyTrail rt environ (trail.map StrEntry.toEntry) anchor artifacts decisions = .ok v ∧
      Clean v := by
  unfold verifyTrail
  rw [hcount, Except.ok_bind]
  by_cases hnil : trail = []
  · rw [hnil] at hmet ⊢
    have hzero : count = 0 := by
      rcases hmet with hzero | ⟨hle, -⟩
      · exact hzero
      · exact Nat.le_zero.mp hle
    rw [hzero]
    exact ⟨_, rfl, rfl, rfl, rfl⟩
  · rcases h.key_eq hnil with ⟨key, hkey⟩
    have hown := h.ownChain hkey
    rcases hown.runChain hnil with ⟨st, hrun, hplain⟩
    have hfirst : (trail.map StrEntry.toEntry).findIdx isChained ≠
        (trail.map StrEntry.toEntry).length := by
      rw [show (trail.map StrEntry.toEntry).findIdx isChained = 0 from hown.firstChained,
        List.length_map]
      exact fun hlen => hnil (List.length_eq_zero_iff.mp hlen.symm)
    have hloop : chainLoop rt key
        ((trail.map StrEntry.toEntry).take ((trail.map StrEntry.toEntry).findIdx isChained))
        ((trail.map StrEntry.toEntry).findIdx isChained)
        ((trail.map StrEntry.toEntry).drop ((trail.map StrEntry.toEntry).findIdx isChained))
        ⟨0, none, none⟩ = .ok (.through st) := hrun
    dsimp only
    rw [if_neg hfirst, hkey, Except.ok_bind, hloop, Except.ok_bind]
    dsimp only
    rw [anchorCheck_eq_none_iff.mpr hmet, Except.ok_bind]
    dsimp only
    cases key with
    | none => exact contentCheck_clean hartifacts hdecisions
    | some k =>
        rw [hplain.resolve_left fun hk => by cases hk]
        exact contentCheck_clean hartifacts hdecisions

end Trail

end AuditSwarm
