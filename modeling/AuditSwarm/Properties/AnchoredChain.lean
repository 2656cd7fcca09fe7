import AuditSwarm.Trail.Built

/-!
# Tamper soundness of the anchored chain

Whatever trail is accepted under the anchor of a trail built by `append_entry` starts with that
trail: no anchored entry is edited, moved, inserted before or removed.
-/

namespace AuditSwarm

open Python

namespace Trail

variable {rt : Runtime}

/-- The anchor of a trail: its length and the hash of its last entry. -/
def anchorOf (trail : List StrEntry) : Anchor :=
  some [(lit "count", .int trail.length), (lit "head_hash", .str (lastHash trail))]

@[simp] theorem anchorCount_anchorOf (trail : List StrEntry) :
    anchorCount rt (anchorOf trail) = .ok trail.length := by
  by_cases h : trail.length = 0
  · simp [anchorCount, anchorOf, Dict.getD, Dict.get?, Json.truthy, h]
  · simp [anchorCount, anchorOf, Dict.getD, Dict.get?, Json.truthy, h]

@[simp] theorem anchorHead_anchorOf (trail : List StrEntry) :
    anchorHead rt (anchorOf trail) = lastHash trail := by
  by_cases h : lastHash trail = []
  · simp [anchorHead, anchorOf, Dict.getD, Dict.get?, Json.truthy, h]
  · simp [anchorHead, anchorOf, Dict.getD, Dict.get?, Json.truthy, h]

/-- The first trail is a prefix of the second, field for field. -/
def PrefixOf (rt : Runtime) (trail trail' : List Entry) : Prop :=
  List.Forall₂ (SameEntry rt) trail (trail'.take trail.length)

theorem map_entryHash_toEntry (trail : List StrEntry) :
    (trail.map StrEntry.toEntry).getLast?.map (entryHash rt) =
      trail.getLast?.map fun e => e.getD (lit "entry_hash") [] := by
  rw [List.getLast?_map, Option.map_map]
  congr 1
  funext e
  exact fieldText_toEntry e _

theorem lastHash_of_log {hcf : rt.CollisionFree} {trail : List StrEntry} {k : Nat}
    (h : (chainScheme rt hcf).Log k (trail.map StrEntry.toEntry)) :
    lastHash trail ≠ [] ∧
      (trail.map StrEntry.toEntry).getLast?.map (entryHash rt) = some (lastHash trail) := by
  obtain ⟨a, es, hes, ha, -⟩ := h.exists_last
  have hchain := h.chained
  rw [hes] at hchain
  obtain ⟨x, hx⟩ := hchain.head_hashed
  have hlast := @map_entryHash_toEntry rt trail
  rw [ha, Option.map_some] at hlast
  have hhash : lastHash trail = entryHash rt a := by
    rw [lastHash, ← hlast, Option.getD_some]
  exact ⟨hhash ▸ entryHash_ne_nil hx, by rw [ha, Option.map_some, hhash]⟩

theorem SameEntry.get?_eq {a b : StrEntry} (h : SameEntry rt a.toEntry b.toEntry) (k : Str) :
    a.get? k = b.get? k := by
  by_cases hk : k = lit "entry_hash"
  · subst hk
    have hhash := h.hash
    simp only [StrEntry.toEntry, Dict.get?_mapValues, Option.map_map] at hhash
    refine Option.map_injective (f := rt.textOf ∘ Json.str) ?_ hhash
    exact fun s t hst => hst
  · have hfield := h.fields k hk
    simp only [StrEntry.toEntry, Dict.get?_mapValues, Option.map_map] at hfield
    refine Option.map_injective (f := Json.sortKeys ∘ Json.str) ?_ hfield
    exact fun s t hst => Json.same_str_iff.mp hst

/-- A trail of texts that starts with another has the same texts there. -/
theorem PrefixOf.get?_eq {trail trail' : List StrEntry}
    (h : PrefixOf rt (trail.map StrEntry.toEntry) (trail'.map StrEntry.toEntry)) :
    List.Forall₂ (fun a b : StrEntry => ∀ k, a.get? k = b.get? k) trail
      (trail'.take trail.length) := by
  rw [PrefixOf, List.length_map, ← List.map_take, List.forall₂_map_left_iff,
    List.forall₂_map_right_iff] at h
  exact h.imp fun _ _ hab k => hab.get?_eq k

/-- Tamper soundness: a trail accepted under the anchor of a built trail starts with it, field for
field, and a trail of texts starts with the very same texts. -/
theorem anchored_prefix (rt : Runtime) (hcf : rt.CollisionFree) (legacy trail : List StrEntry)
    (hlegacy : Unchained legacy) (hbuilt : Built rt legacy trail)
    (happended : trail = legacy → legacy = []) (environ : Environ) (trail' : List Entry)
    (artifacts : Option (Dict Str Json)) (decisions : Option (List Json)) (v : Verification)
    (hverify : verifyTrail rt environ trail' (anchorOf trail) artifacts decisions = .ok v)
    (hok : v.status = .ok) :
    PrefixOf rt (trail.map StrEntry.toEntry) trail' ∧
      ∀ texts : List StrEntry, trail' = texts.map StrEntry.toEntry →
        List.Forall₂ (fun a b : StrEntry => ∀ k, a.get? k = b.get? k) trail
          (texts.take trail.length) := by
  suffices hpre : PrefixOf rt (trail.map StrEntry.toEntry) trail' by
    refine ⟨hpre, fun texts htexts => ?_⟩
    subst htexts
    exact hpre.get?_eq
  rcases hbuilt.log hcf hlegacy with rfl | ⟨hpre, hlog⟩
  · rw [happended rfl]
    exact .nil
  obtain ⟨hne, hlast⟩ := lastHash_of_log hlog
  have hpos : 0 < trail.length := by
    have hlt := hlog.lt
    rw [List.length_map] at hlt
    omega
  have hbare : ∀ e ∈ (trail.map StrEntry.toEntry).take legacy.length, isChained e = false := by
    intro e he
    rw [← List.map_take, ← List.prefix_iff_eq_take.mp hpre] at he
    obtain ⟨e', he', rfl⟩ := List.mem_map.mp he
    exact hlegacy e' he'
  rcases verifyTrail_ok hverify hok with ⟨rfl, hzero⟩ | ⟨key, st, hacc⟩
  · rw [anchorCount_anchorOf] at hzero
    exact absurd (Except.ok.inj hzero) hpos.ne'
  obtain ⟨hle, hlog', hlast'⟩ := hacc.log_take hcf (anchorCount_anchorOf trail) hpos
    (by rwa [anchorHead_anchorOf])
  rw [anchorHead_anchorOf] at hlast'
  have hlen : (trail.map StrEntry.toEntry).length = (trail'.take trail.length).length := by
    rw [List.length_map, List.length_take, min_eq_left hle]
  obtain ⟨-, hagree, hagree'⟩ := hlog.agree hlog' (hlast.trans hlast'.symm) (.inl hlen)
  rw [PrefixOf, List.length_map]
  exact sameEntries_of_agree hagree hagree' hbare

/-- A trail with an entry before its chain, and the same trail with one entry more. -/
theorem anchored_prefix_note :
    PrefixOf Sample.transparent
      ((Sample.built Sample.transparent [Sample.note "old"] (Sample.notes ["a"])).map
        StrEntry.toEntry)
      ((Sample.built Sample.transparent [Sample.note "old"] (Sample.notes ["a", "b"])).map
        StrEntry.toEntry) := by
  obtain ⟨v, hv, hok⟩ := Except.map_eq_ok_iff.mp (by decide +kernel :
    (verifyTrail Sample.transparent (fun _ => none)
      ((Sample.built Sample.transparent [Sample.note "old"] (Sample.notes ["a", "b"])).map
        StrEntry.toEntry)
      (anchorOf (Sample.built Sample.transparent [Sample.note "old"] (Sample.notes ["a"])))
      none none).map (·.status) = .ok .ok)
  have hbuilt : Built Sample.transparent [Sample.note "old"]
      (Sample.built Sample.transparent [Sample.note "old"] (Sample.notes ["a"])) :=
    @Built.appendAll _ _ _ _ (Sample.notes ["a"]) .start (by decide +kernel)
  exact ( anchored_prefix Sample.transparent Runtime.collisionFree_transparent [Sample.note "old"] _
    (by unfold Unchained; decide +kernel) hbuilt (by decide +kernel) (fun _ => none) _ none none v
    hv hok).1

end Trail

end AuditSwarm
