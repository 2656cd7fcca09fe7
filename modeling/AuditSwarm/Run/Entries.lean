import AuditSwarm.Run.Decisions

/-!
# What an appended entry records

An action that passes its checks appends one entry: chained onto the trail of the flow, with the
extra fields of the action.  The scans of the trail read those fields back.
-/

namespace AuditSwarm

open Python StrEnum Decisions

namespace AuditFlow

variable {rt : Runtime} {env : Env} {f g : AuditFlow} {r : Except Exn Unit} {e : StrEntry}

/-! ## One entry -/

/-- The entry an action appended once its checks had passed. -/
structure EntryOf (rt : Runtime) (env : Env) (a : RecordedAction) (f : AuditFlow)
    (k : (recorded rt env a).κ) (e : StrEntry) : Prop where
  stamped : Stamped ((recorded rt env a).gate k) ((recorded rt env a).human k)
    (recorded rt env a).action e
  extra : ∃ x, (recorded rt env a).extra k ((recorded rt env a).mutate k f) = .ok x ∧
    ∀ key, key ∉ commonKeys ++ Trail.hashFields → e.get? key = x.get? key
  appended : ∃ entry, Trail.appendEntry rt env.environ f.state.approvalTrail entry = .ok e
  sealed : ((recorded rt env a).proc rt env).sealOf k ((recorded rt env a).mutate k f) = .ok e

theorem get?_stampEntry (i : IdentitySource) {gate human action timestamp : Str} {x : StrEntry}
    (hx : Additional x)
    (h : f.stampEntry rt env gate human action (value i) timestamp x = .ok e) {key : Str}
    (hkey : key ∉ commonKeys ++ Trail.hashFields) : e.get? key = x.get? key := by
  rw [List.mem_append, not_or] at hkey
  unfold stampEntry at h
  rw [identitySource_value, Except.ok_bind] at h
  rw [Trail.get?_appendEntry h hkey.2, Dict.update_eq_append _ hx.nodup, Dict.get?_append]
  · have hcommon : ∀ k ∈ commonKeys, k ≠ key := fun k hk heq => hkey.1 (heq ▸ hk)
    simp only [commonKeys, List.mem_cons, List.not_mem_nil, or_false, forall_eq_or_imp,
      forall_eq] at hcommon
    simp [Dict.get?, hcommon]
  · intro kv hkv
    have hfresh := hx.fresh kv hkv
    simp only [commonKeys, List.mem_append, List.mem_cons, List.not_mem_nil, or_false,
      not_or] at hfresh
    obtain ⟨⟨h1, h2, h3, h4, h5⟩, -⟩ := hfresh
    simp [Dict.get?, Ne.symm h1, Ne.symm h2, Ne.symm h3, Ne.symm h4, Ne.symm h5]

theorem entryOf_of_sealOf {a : RecordedAction} {k : (recorded rt env a).κ}
    (hk : (recorded rt env a).check f = .ok k)
    (h : ((recorded rt env a).proc rt env).sealOf k ((recorded rt env a).mutate k f) = .ok e) :
    EntryOf rt env a f k e := by
  obtain ⟨i, hi⟩ := source_of_check hk
  have htrail : ((recorded rt env a).mutate k f).state.approvalTrail = f.state.approvalTrail := by
    cases a <;> rfl
  have hseal := h
  simp only [Recorded.proc, hi] at h
  rcases extra_cases hk ((recorded rt env a).mutate k f) with ⟨c, hc⟩ | ⟨x, hx, hadd⟩
  · rw [hc] at h
    cases h
  · rw [hx, Except.ok_bind] at h
    refine ⟨stampEntry_eq_ok i hadd h, ⟨x, hx, fun key hkey => get?_stampEntry i hadd h hkey⟩, ?_,
      hseal⟩
    unfold stampEntry at h
    rw [identitySource_value, Except.ok_bind, htrail] at h
    exact ⟨_, h⟩

/-- Everything a recorded action can do, with the entry it appends. -/
theorem act_entry {a : RecordedAction} (h : act rt env a f = (r, g)) :
    (∃ err, (recorded rt env a).check f = .error err ∧ r = .error err ∧ g = f) ∨
    (∃ k err, (recorded rt env a).check f = .ok k ∧
      ((recorded rt env a).proc rt env).sealOf k ((recorded rt env a).mutate k f) = .error err ∧
      r = .error err ∧ g = (recorded rt env a).mutate k f) ∨
    (∃ k e, (recorded rt env a).check f = .ok k ∧ EntryOf rt env a f k e ∧ r = .ok () ∧
      g = (recorded rt env a).conclude k (pushEntry e ((recorded rt env a).mutate k f))) := by
  rw [act_eq] at h
  obtain ⟨rfl, rfl⟩ := Prod.mk.inj h
  rcases SealedProc.run_cases (a := (recorded rt env a).proc rt env) (s := f)
      (r := (((recorded rt env a).proc rt env).run f).1)
      (t := (((recorded rt env a).proc rt env).run f).2) rfl with
    ⟨err, hcheck, hr, hs⟩ | ⟨k, err, hcheck, hseal, hr, hs⟩ | ⟨k, e, hcheck, hseal, hr, hs⟩
  · exact .inl ⟨err, hcheck, by rw [hr]; rfl, hs⟩
  · exact .inr (.inl ⟨k, err, hcheck, hseal, by rw [hr]; rfl, hs⟩)
  · exact .inr (.inr ⟨k, e, hcheck, entryOf_of_sealOf hcheck hseal, by rw [hr]; rfl, hs⟩)

end AuditFlow

end AuditSwarm
