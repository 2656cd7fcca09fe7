import AuditSwarm.Trail.Built

/-!
# When a tamper finding reaches the status

`verify_trail` ends before it looks at the artifacts and the decisions when there is no chain to
check, when the key is missing and when the last entries are unkeyed.  Exactly then a change that
its own checks find does not show in the status.
-/

namespace AuditSwarm

open Python

namespace Trail

variable {rt : Runtime} {environ : Environ} {trail : List Entry} {anchor : Anchor}
  {artifacts : Option (Dict Str Json)} {decisions : Option (List Json)}

/-- The check of the artifacts or the check of the decisions finds a change. -/
def TamperFound (rt : Runtime) (trail : List Entry) (artifacts : Option (Dict Str Json))
    (decisions : Option (List Json)) : Prop :=
  (∃ changed, artifactCheck rt trail artifacts decisions = .ok changed ∧ changed ≠ []) ∨
    ∃ problems, decisionCheck rt trail decisions = .ok problems ∧ problems ≠ []

def TamperReported (rt : Runtime) (environ : Environ) (trail : List Entry) (anchor : Anchor)
    (artifacts : Option (Dict Str Json)) (decisions : Option (List Json)) : Prop :=
  ∀ v, verifyTrail rt environ trail anchor artifacts decisions = .ok v →
    TamperFound rt trail artifacts decisions → v.status ∈ tamperStatuses

/-- The trails whose verification ends without a look at the artifacts and the decisions, although
nothing is wrong with the chain. -/
inductive EndsEarly (rt : Runtime) (environ : Environ) (trail : List Entry) (anchor : Anchor) :
    Prop
  /-- No entry is chained, and no anchor says that one should be. -/
  | unchained (bare : ∀ e ∈ trail, isChained e = false) (hcount : anchorCount rt anchor = .ok 0)
  /-- The key is missing, and a keyed entry comes after linked ones. -/
  | keyUnavailable (pre : List Entry) (e : Entry) (post : List Entry)
      (hsplit : trail.drop (firstChained trail) = pre ++ e :: post)
      (hcount : ∃ count, anchorCount rt anchor = .ok count) (hkey : trailKey rt environ = .ok none)
      (hlinked : Linked rt none (trail.take (firstChained trail)) none pre)
      (hkeyed : KeyedEntry e)
  /-- There is a key, chain and anchor are in order, and the last entry is unkeyed. -/
  | unkeyed (key : Bytes) (count : Nat) (last : Entry) (hcount : anchorCount rt anchor = .ok count)
      (hkey : trailKey rt environ = .ok (some key))
      (hlinked : Linked rt (some key) (trail.take (firstChained trail)) none
        (trail.drop (firstChained trail)))
      (hanchor : AnchorMet rt trail count (anchorHead rt anchor))
      (hlast : trail.getLast? = some last)
      (hplain : last.get? (lit "hash_alg") = some (.str algPlain))

theorem firstChained_eq_length_iff :
    firstChained trail = trail.length ↔ ∀ e ∈ trail, isChained e = false := by
  rw [firstChained, List.findIdx_eq_length]

/-- The last entry of the trail is the last one the loop comes to. -/
theorem getLast?_drop_firstChained (hlt : firstChained trail < trail.length) :
    (trail.drop (firstChained trail)).getLast? = trail.getLast? := by
  rw [List.getLast?_drop, if_neg (Nat.not_le.mpr hlt)]

theorem firstChained_lt_of_last {last : Entry} (hlast : trail.getLast? = some last)
    {alg : Json} (halg : last.get? (lit "hash_alg") = some alg) :
    firstChained trail < trail.length := by
  refine lt_of_le_of_ne List.findIdx_le_length fun heq => ?_
  have hbare := firstChained_eq_length_iff.mp heq last (List.mem_of_getLast? hlast)
  simp [isChained, hashFields, Dict.contains, halg] at hbare

theorem EndsEarly.not_tamper (h : EndsEarly rt environ trail anchor) :
    ∃ v, verifyTrail rt environ trail anchor artifacts decisions = .ok v ∧
      v.status ∉ tamperStatuses := by
  cases h with
  | unchained bare hcount =>
      have hfirst : trail.findIdx isChained = trail.length := firstChained_eq_length_iff.mpr bare
      unfold verifyTrail
      simp only [hcount, Except.ok_bind, hfirst, if_true, lt_irrefl, decide_false,
        Bool.false_eq_true, if_false]
      by_cases hnil : trail = []
      · rw [if_pos hnil]
        exact ⟨_, rfl, by simp [result, tamperStatuses]⟩
      · rw [if_neg hnil]
        exact ⟨_, rfl, by simp [result, tamperStatuses]⟩
  | keyUnavailable pre e post hsplit hcount hkey hlinked hkeyed =>
      obtain ⟨count, hcount⟩ := hcount
      have hne : trail.findIdx isChained ≠ trail.length := by
        intro heq
        have hnil : trail.drop (firstChained trail) = [] :=
          List.drop_eq_nil_of_le (le_of_eq heq.symm)
        rw [hsplit] at hnil
        exact absurd hnil (by simp)
      obtain ⟨j, st, hloop, -, -, -⟩ := @chainLoop_of_linked _ _ _ _ (e :: post) (firstChained trail) ⟨0, none, none⟩ hlinked (by simp)
      obtain ⟨detail, hstop⟩ := @chainLoop_keyedEntry rt (trail.take (firstChained trail)) post _ j st hkeyed
      rw [hstop, ← hsplit] at hloop
      unfold verifyTrail
      simp only [hcount, Except.ok_bind, if_neg hne, hkey]
      rw [show trail.findIdx isChained = firstChained trail from rfl, hloop]
      exact ⟨_, rfl, by simp [result, tamperStatuses]⟩
  | unkeyed key count last hcount hkey hlinked hanchor hlast hplain =>
      have hlt := firstChained_lt_of_last hlast hplain
      obtain ⟨j, st, hloop, -⟩ := @chainLoop_of_linked _ _ _ _ [] (firstChained trail) ⟨0, none, none⟩ hlinked (by simp)
      rw [List.append_nil, chainLoop] at hloop
      have hlastPlain : st.lastPlain ≠ none := by
        intro hnone
        have hkeyed := (lastPlain_of_linked hlinked
          ((getLast?_drop_firstChained hlt).trans hlast) hloop).mp hnone
        rw [hplain, Option.some.injEq, Json.str.injEq] at hkeyed
        exact algPlain_ne_algKeyed hkeyed
      obtain ⟨index, hindex⟩ := Option.ne_none_iff_exists'.mp hlastPlain
      unfold verifyTrail
      simp only [hcount, Except.ok_bind, hkey]
      rw [if_neg (show trail.findIdx isChained ≠ trail.length from hlt.ne)]
      rw [show trail.findIdx isChained = firstChained trail from rfl, hloop]
      simp only [Except.ok_bind, anchorCheck_eq_none_iff.mpr hanchor, hindex]
      exact ⟨_, rfl, by simp [result, tamperStatuses]⟩

theorem contentCheck_tamper {first : Nat} {anchored allKeyed : Bool} {v : Verification}
    (h : contentCheck rt trail first anchored allKeyed artifacts decisions = .ok v)
    (hfound : TamperFound rt trail artifacts decisions) : v.status ∈ tamperStatuses := by
  unfold contentCheck at h
  simp only [Except.bind_eq_ok_iff] at h
  obtain ⟨changed, hchanged, problems, hproblems, h⟩ := h
  split at h
  · obtain rfl := Except.ok.inj h
    simp [result, tamperStatuses]
  rename_i hc
  split at h
  · obtain rfl := Except.ok.inj h
    simp [result, tamperStatuses]
  rename_i hp
  rcases hfound with ⟨changed', hchanged', hne⟩ | ⟨problems', hproblems', hne⟩
  · obtain rfl := Except.ok.inj (hchanged.symm.trans hchanged')
    exact absurd hne hc
  · obtain rfl := Except.ok.inj (hproblems.symm.trans hproblems')
    exact absurd hne hp

theorem tamper_of_not_endsEarly {v : Verification}
    (h : verifyTrail rt environ trail anchor artifacts decisions = .ok v)
    (hfound : TamperFound rt trail artifacts decisions)
    (hearly : ¬ EndsEarly rt environ trail anchor) : v.status ∈ tamperStatuses := by
  unfold verifyTrail at h
  simp only [Except.bind_eq_ok_iff] at h
  obtain ⟨count, hcount, h⟩ := h
  split at h
  · rename_i hfirst
    split at h
    · obtain rfl := Except.ok.inj h
      by_cases hnil : trail = []
      · simp [result, tamperStatuses, hnil]
      · simp [result, tamperStatuses, hnil]
    · rename_i hanchored
      have hzero : count = 0 := by simpa using hanchored
      exact absurd (.unchained (firstChained_eq_length_iff.mp hfirst) (hzero ▸ hcount)) hearly
  rename_i hfirst
  have hlt : firstChained trail < trail.length := lt_of_le_of_ne List.findIdx_le_length hfirst
  simp only [Except.bind_eq_ok_iff] at h
  obtain ⟨key, hkey, check, hcheck, h⟩ := h
  cases check with
  | stop status index detail =>
      obtain rfl := Except.ok.inj h
      rcases chainLoop_stop hcheck with rfl | rfl
      · simp [result, tamperStatuses]
      · obtain ⟨rfl, pre, e, post, hsplit, hlinked, hkeyed⟩ := keyedEntry_of_chainLoop hcheck
        exact absurd (.keyUnavailable pre e post hsplit ⟨count, hcount⟩ hkey hlinked hkeyed) hearly
  | through st =>
      simp only [Except.bind_eq_ok_iff] at h
      obtain ⟨found, hfound', h⟩ := h
      cases found with
      | some bad =>
          obtain ⟨status, index, detail⟩ := bad
          obtain rfl := Except.ok.inj h
          rcases anchorCheck_failed hfound' with rfl | rfl
          · simp [result, tamperStatuses]
          · simp [result, tamperStatuses]
      | none =>
          cases key with
          | none => exact contentCheck_tamper h hfound
          | some k =>
              cases hp : st.lastPlain with
              | none =>
                  simp only [hp] at h
                  exact contentCheck_tamper h hfound
              | some index =>
                  have hlinked := linked_of_chainLoop hcheck
                  have hne : trail.getLast? ≠ none := by
                    rw [ne_eq, List.getLast?_eq_none_iff]
                    rintro rfl
                    simp at hlt
                  obtain ⟨last, hlast⟩ := Option.ne_none_iff_exists'.mp hne
                  have hlast' := (getLast?_drop_firstChained hlt).trans hlast
                  obtain ⟨_, alg, hchecked⟩ := hlinked.checked (List.mem_of_getLast? hlast')
                  refine absurd (.unkeyed k count last hcount hkey hlinked
                    (anchorCheck_eq_none_iff.mp hfound') hlast ?_) hearly
                  rcases hchecked.known with rfl | rfl
                  · rw [(lastPlain_of_linked hlinked hlast' hcheck).mpr hchecked.alg_eq] at hp
                    cases hp
                  · exact hchecked.alg_eq

/-- A change that the checks find shows in the status exactly when verification gets to look at
the artifacts and the decisions. -/
theorem tamperReported_iff (rt : Runtime) (environ : Environ) (trail : List Entry)
    (anchor : Anchor) (artifacts : Option (Dict Str Json)) (decisions : Option (List Json)) :
    TamperReported rt environ trail anchor artifacts decisions ↔
      ¬ (TamperFound rt trail artifacts decisions ∧ EndsEarly rt environ trail anchor) := by
  constructor
  · rintro h ⟨hfound, hearly⟩
    obtain ⟨v, hv, hstatus⟩ := @EndsEarly.not_tamper _ _ _ _ artifacts decisions hearly
    exact hstatus (h v hv hfound)
  · intro h v hv hfound
    exact tamper_of_not_endsEarly hv hfound fun hearly => h ⟨hfound, hearly⟩

/-- A decision added to an audit with an empty trail is found, and the status is ok. -/
theorem injected_decision_not_reported :
    ¬ TamperReported Sample.transparent (fun _ => none) [] none none
      (some [.obj [(lit "decision_id", .str (lit "d1"))]]) := by
  intro h
  have hfound : TamperFound Sample.transparent [] none
      (some [.obj [(lit "decision_id", .str (lit "d1"))]]) :=
    .inr ⟨_, rfl, by simp [recordedDigests]⟩
  have hstatus := h _ rfl hfound
  simp [result, tamperStatuses] at hstatus

end Trail

end AuditSwarm
