import AuditSwarm.Trail.Verify

/-!
# Trails built by appending

A trail built by `append_entry` alone, after entries that carry no hash, is a sealed chain from
its first appended entry on, whatever key each entry was appended under.
-/

namespace AuditSwarm

open Python

namespace Trail

variable {rt : Runtime}

/-- The trails `append_entry` builds on `legacy`, each entry in an environment of its own. -/
inductive Built (rt : Runtime) (legacy : List StrEntry) : List StrEntry → Prop
  | start : Built rt legacy legacy
  | append {trail : List StrEntry} {environ : Environ} {entry e : StrEntry}
      (built : Built rt legacy trail) (appended : appendEntry rt environ trail entry = .ok e) :
      Built rt legacy (trail ++ [e])

def appendAll (rt : Runtime) : List StrEntry → List (Environ × StrEntry) →
    Except Exn (List StrEntry)
  | trail, [] => .ok trail
  | trail, (environ, entry) :: rest => do
      let e ← appendEntry rt environ trail entry
      appendAll rt (trail ++ [e]) rest

theorem Built.appendAll {legacy trail trail' : List StrEntry} {entries : List (Environ × StrEntry)}
    (hbuilt : Built rt legacy trail) (h : appendAll rt trail entries = .ok trail') :
    Built rt legacy trail' := by
  induction entries generalizing trail with
  | nil =>
      cases h
      exact hbuilt
  | cons c rest ih =>
      obtain ⟨e, he, hrest⟩ := Except.bind_eq_ok_iff.mp h
      exact ih (hbuilt.append he) hrest

def Unchained (legacy : List StrEntry) : Prop := ∀ e ∈ legacy, isChained e.toEntry = false

def lastHash (trail : List StrEntry) : Str :=
  (trail.getLast?.map fun e => e.getD (lit "entry_hash") []).getD []

theorem getD_toEntry (e : StrEntry) (k : Str) :
    e.toEntry.getD k (.str []) = .str (e.getD k []) := by
  unfold Dict.getD StrEntry.toEntry
  rw [Dict.get?_mapValues]
  cases e.get? k <;> rfl

@[simp] theorem fieldText_toEntry (e : StrEntry) (k : Str) :
    fieldText rt e.toEntry k = e.getD k [] := by
  rw [fieldText, getD_toEntry, Runtime.textOf_str]

/-- A stored entry is hashed, under the key it was appended with. -/
theorem Appended.hashedBy {environ : Environ} {trail : List StrEntry} {entry e : StrEntry}
    {key : Option Bytes} {prev : Str} {data : Bytes}
    (h : Appended rt environ trail entry e key prev data) :
    HashedBy rt e.toEntry (digestInput key data) := by
  have hcanonical : canonicalEntry e.toEntry =
      canonicalEntry (linked entry (algFor key) prev).toEntry := by
    have hnone : (linked entry (algFor key) prev).get? (lit "entry_hash") = none := by
      rw [linked_eq, Dict.get?_append, ownFields, Dict.get?_filterKeys_of_neg (by simp [hashFields])]
      simp [Dict.get?]
    rw [h.entry_eq, Dict.set_eq_append _ hnone]
    simp [canonicalEntry, StrEntry.toEntry, Dict.mapValues, Dict.filterKeys]
  refine ⟨?_, ?_, ?_⟩
  · rw [hcanonical, digestInput_message]
    exact h.data_eq
  · rw [entryHash, fieldText_toEntry, h.entry_eq, Dict.getD, Dict.get?_set_self, Option.getD_some]
  · rw [getD_toEntry]
    trivial

theorem Appended.entryPrev {environ : Environ} {trail : List StrEntry} {entry e : StrEntry}
    {key : Option Bytes} {prev : Str} {data : Bytes}
    (h : Appended rt environ trail entry e key prev data) : entryPrev rt e.toEntry = prev := by
  rw [Trail.entryPrev, fieldText_toEntry, Dict.getD, h.entry_eq,
    Dict.get?_set_of_ne _ _ (by simp), linked, Dict.get?_set_self, Option.getD_some]

/-- The next entry of a trail that is a log links to the last one. -/
theorem prevHash_of_log {hcf : rt.CollisionFree} {trail : List StrEntry} {k : Nat} {alg prev : Str}
    {key : Option Bytes} (hlog : (chainScheme rt hcf).Log k (trail.map StrEntry.toEntry))
    (h : prevHash rt trail alg key = .ok prev) :
    ∃ a es, ((trail.map StrEntry.toEntry).drop k).reverse = a :: es ∧ prev = entryHash rt a := by
  obtain ⟨a, es, hes, hlast, -⟩ := hlog.exists_last
  refine ⟨a, es, hes, ?_⟩
  have hchain := hlog.chained
  rw [hes] at hchain
  obtain ⟨x, hx⟩ := hchain.head_hashed
  have hmem : a ∈ trail.map StrEntry.toEntry := List.mem_of_getLast? hlast
  have hany : (trail.map StrEntry.toEntry).any isChained = true :=
    List.any_eq_true.mpr ⟨a, hmem, isChained_of_hashedBy hx⟩
  unfold prevHash at h
  rw [if_pos hany] at h
  rw [List.getLast?_map, Option.map_eq_some_iff] at hlast
  obtain ⟨e, he, rfl⟩ := hlast
  rw [← Except.ok.inj h, he, entryHash, fieldText_toEntry]
  rfl

theorem prevHash_of_unchained {trail : List StrEntry} {alg : Str} {key : Option Bytes}
    (h : Unchained trail) :
    prevHash rt trail alg key = legacySeal rt (trail.map StrEntry.toEntry) alg key := by
  unfold prevHash
  rw [if_neg]
  rw [Bool.not_eq_true, List.any_eq_false]
  intro e he
  obtain ⟨e', he', rfl⟩ := List.mem_map.mp he
  simp [h e' he']

/-- What appending keeps: nothing has been appended yet, or the trail is a log that starts after
the entries it was built on. -/
theorem Built.log (hcf : rt.CollisionFree) {legacy trail : List StrEntry}
    (hlegacy : Unchained legacy) (h : Built rt legacy trail) :
    trail = legacy ∨ (legacy <+: trail ∧
      (chainScheme rt hcf).Log legacy.length (trail.map StrEntry.toEntry)) := by
  induction h with
  | start => exact .inl rfl
  | @append trail environ entry e built appended ih =>
      right
      obtain ⟨key, prev, data, happ⟩ := appendEntry_eq_ok_iff.mp appended
      have hhashed := happ.hashedBy
      have hprev := happ.entryPrev
      rcases ih with rfl | ⟨hpre, hlog⟩
      · refine ⟨List.prefix_append _ _, by simp, ?_⟩
        rw [List.map_append, List.map_singleton, List.take_left' (by simp),
          List.drop_left' (by simp), List.reverse_singleton]
        refine .start ⟨_, hhashed⟩ ?_
        have hseal := happ.prev_eq
        rw [prevHash_of_unchained hlegacy] at hseal
        change (chainScheme rt hcf).Starts (entryPrev rt e.toEntry) _
        rw [hprev]
        exact starts_of_legacySeal hseal
      · refine ⟨hpre.trans (List.prefix_append _ _), ?_, ?_⟩
        · have hlt := hlog.lt
          simp only [List.length_map, List.length_append, List.length_singleton] at hlt ⊢
          omega
        · obtain ⟨a, es, hes, rfl⟩ := prevHash_of_log hlog happ.prev_eq
          have hle := hlog.lt.le
          have hchain := hlog.chained
          rw [hes] at hchain
          rw [List.map_append, List.map_singleton, List.take_append_of_le_length hle,
            List.drop_append_of_le_length hle, List.reverse_append, List.reverse_singleton, hes]
          exact .link hchain ⟨_, hhashed⟩ hprev

end Trail

/-! ## Small trails to compute with -/

namespace Sample

def transparent : Runtime := .ascii Runtime.transparentDigest

def note (action : String) : StrEntry := [(lit "action", lit action)]

def notes (actions : List String) : List (Environ × StrEntry) :=
  actions.map fun a => (fun _ => none, note a)

def built (rt : Runtime) (legacy : List StrEntry) (entries : List (Environ × StrEntry)) :
    List StrEntry :=
  ((Trail.appendAll rt legacy entries).toOption).getD []

def keySet : Environ := fun name =>
  if name = lit "VAULT_ENCRYPTION_KEY" then some (lit "AA==") else none

def key : Bytes := (transparent.hmacSha256 [0] Trail.trailKeyLabel).val

/-- Entries to append, the first one before the key was set. -/
def keyedNotes (actions : List String) : List (Environ × StrEntry) :=
  (fun _ => none, note "a") :: actions.map fun a => (keySet, note a)

/-- A trail with an entry before its chain and one chained before the key was set. -/
def keyed (actions : List String) : List StrEntry :=
  built transparent [note "old"] (keyedNotes actions)

end Sample

end AuditSwarm
