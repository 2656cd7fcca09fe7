import AuditSwarm.Linter.Rules

/-!
# Rule IDs

Which rule IDs the violations of each rule of the linter carry.
-/

namespace AuditSwarm

open Python

namespace Linters

variable {rt : Runtime} {vlib : VaultLibrary} {lib : LintLibrary} {ctx : LintContext}
  {f : AuditFindingSchema} {ids : List String} {found : List LintViolation}

def FromRules (ids : List String) (found : List LintViolation) : Prop :=
  ∀ v ∈ found, ∃ id ∈ ids, v.ruleId = lit id

theorem FromRules.ruleId_ne {id : String} (h : FromRules ids found) (hid : id ∉ ids) :
    ∀ v ∈ found, v.ruleId ≠ lit id := by
  intro v hv heq
  obtain ⟨id', hmem, hid'⟩ := h v hv
  have hsame : id' = id := lit_inj.mp (hid'.symm.trans heq)
  exact hid (hsame ▸ hmem)

theorem FromRules.mono {ids' : List String} (h : FromRules ids found) (hsub : ids ⊆ ids') :
    FromRules ids' found := by
  intro v hv
  obtain ⟨id, hid, hv⟩ := h v hv
  exact ⟨id, hsub hid, hv⟩

theorem fromRules_nil : FromRules ids [] := by
  intro v h
  cases h

theorem fromRules_singleton {v : LintViolation} {id : String} (hv : v.ruleId = lit id)
    (hid : id ∈ ids) : FromRules ids [v] := by
  intro w h
  rw [List.mem_singleton.mp h]
  exact ⟨id, hid, hv⟩

theorem fromRules_append {a b : List LintViolation} (ha : FromRules ids a)
    (hb : FromRules ids b) : FromRules ids (a ++ b) := by
  intro v h
  rcases List.mem_append.mp h with h | h
  · exact ha v h
  · exact hb v h

theorem fromRules_map {α : Type} {as : List α} {g : α → LintViolation} {id : String}
    (hg : ∀ a, (g a).ruleId = lit id) (hid : id ∈ ids) : FromRules ids (as.map g) := by
  intro v h
  obtain ⟨a, -, rfl⟩ := List.mem_map.mp h
  exact ⟨id, hid, hg a⟩

theorem fromRules_ite {c : Prop} [Decidable c] {v : LintViolation} {id : String}
    (hv : v.ruleId = lit id) (hid : id ∈ ids) : FromRules ids (if c then [v] else []) := by
  split
  · exact fromRules_singleton hv hid
  · exact fromRules_nil

/-! ## Rule by rule -/

theorem fromRules_coverage (controls : Dict Str Control) (findings : List AuditFindingSchema) :
    FromRules ["D1"] (coverageViolations controls findings) := by
  have hreport : ∀ (missing : List Str) (message : String), FromRules ["D1"]
      (if missing = [] then []
      else [violation "D1" (join (lit ",") missing)
        (lit message ++ join (lit ", ") missing ++ lit ".")]) := by
    intro missing message
    split
    · exact fromRules_nil
    · exact fromRules_singleton rfl List.mem_cons_self
  exact fromRules_append (hreport _ _) (hreport _ _)

theorem fromRules_arithmeticRule (h : arithmeticRule ctx f = .ok found) :
    FromRules ["D2"] found := by
  unfold arithmeticRule at h
  obtain ⟨counted, hcounted, h⟩ := Except.bind_eq_ok_iff.mp h
  rw [← Except.pure_eq_ok_iff.mp h]
  apply fromRules_append _ (fromRules_ite rfl List.mem_cons_self)
  unfold excessViolations at hcounted
  split at hcounted
  · split at hcounted
    · obtain ⟨_, -, hcounted⟩ := Except.bind_eq_ok_iff.mp hcounted
      obtain ⟨_, -, hcounted⟩ := Except.bind_eq_ok_iff.mp hcounted
      rw [← Except.pure_eq_ok_iff.mp hcounted]
      exact fromRules_singleton rfl List.mem_cons_self
    · cases hcounted
      exact fromRules_nil
  · cases hcounted
    exact fromRules_nil

theorem fromRules_quoteRule (h : quoteRule rt vlib ctx f = .ok found) :
    FromRules ["D11"] found := by
  unfold quoteRule at h
  dsimp only at h
  split at h
  · cases h
    exact fromRules_nil
  · split at h
    · cases h
      exact fromRules_singleton rfl List.mem_cons_self
    · obtain ⟨verified, -, h⟩ := Except.bind_eq_ok_iff.mp h
      rw [← Except.pure_eq_ok_iff.mp h]
      cases verified with
      | true => exact fromRules_nil
      | false => exact fromRules_singleton rfl List.mem_cons_self

theorem fromRules_periodRule (h : periodRule rt lib ctx f = .ok found) :
    FromRules ["D11"] found := by
  unfold periodRule at h
  split at h
  · cases h
    exact fromRules_nil
  · dsimp only at h
    split at h
    · cases h
      exact fromRules_nil
    · obtain ⟨_, -, h⟩ := Except.bind_eq_ok_iff.mp h
      obtain ⟨_, -, h⟩ := Except.bind_eq_ok_iff.mp h
      split at h
      · obtain ⟨_, -, h⟩ := Except.bind_eq_ok_iff.mp h
        rw [← Except.pure_eq_ok_iff.mp h]
        exact fromRules_ite rfl List.mem_cons_self
      · rw [← Except.pure_eq_ok_iff.mp h]
        exact fromRules_nil

theorem fromRules_deviationRule (h : deviationRule lib ctx f = .ok found) :
    FromRules ["D12"] found := by
  unfold deviationRule at h
  dsimp only at h
  split at h
  · obtain ⟨_, -, h⟩ := Except.bind_eq_ok_iff.mp h
    split at h
    · obtain ⟨_, -, h⟩ := Except.bind_eq_ok_iff.mp h
      obtain ⟨_, -, h⟩ := Except.bind_eq_ok_iff.mp h
      rw [← Except.pure_eq_ok_iff.mp h]
      exact fromRules_singleton rfl List.mem_cons_self
    · rw [← Except.pure_eq_ok_iff.mp h]
      exact fromRules_nil
  · cases h
    exact fromRules_nil

theorem fromRules_thresholdTrap {control : Option Control}
    (h : thresholdTrap rt lib f control = .ok found) : FromRules ["TRAP-4"] found := by
  unfold thresholdTrap at h
  split at h
  · split at h
    · obtain ⟨_, -, h⟩ := Except.bind_eq_ok_iff.mp h
      obtain ⟨_, -, h⟩ := Except.bind_eq_ok_iff.mp h
      rw [← Except.pure_eq_ok_iff.mp h]
      exact fromRules_ite rfl List.mem_cons_self
    · cases h
      exact fromRules_nil
  · cases h
    exact fromRules_nil

theorem fromRules_trapRule (h : trapRule rt lib ctx f = .ok found) :
    FromRules ["TRAP-1", "TRAP-2", "TRAP-3", "TRAP-4", "TRAP-5"] found := by
  have hinversion : FromRules ["TRAP-1"] (inversionTrap lib f) := by
    unfold inversionTrap
    split
    · exact fromRules_map (fun _ => rfl) List.mem_cons_self
    · exact fromRules_nil
  have hscope : FromRules ["TRAP-2"] (scopeTrap lib f) := fromRules_ite rfl List.mem_cons_self
  have hsnapshot : FromRules ["TRAP-3"] (snapshotTrap f (ctx.controls.get? f.controlId)) :=
    fromRules_ite rfl List.mem_cons_self
  have hcitation : FromRules ["TRAP-5"] (citationTrap lib f) := fromRules_ite rfl List.mem_cons_self
  unfold trapRule at h
  dsimp only at h
  split at h
  · obtain ⟨threshold, hthreshold, h⟩ := Except.bind_eq_ok_iff.mp h
    rw [← Except.pure_eq_ok_iff.mp h]
    apply fromRules_append _ (hcitation.mono (by simp))
    apply fromRules_append _ ((fromRules_thresholdTrap hthreshold).mono (by simp))
    apply fromRules_append _ (hsnapshot.mono (by simp))
    exact fromRules_append (hinversion.mono (by simp)) (hscope.mono (by simp))
  · cases h
    exact fromRules_nil

def findingRuleIds : List String :=
  ["D2", "D3", "D11", "D8", "D12", "TRAP-1", "TRAP-2", "TRAP-3", "TRAP-4", "TRAP-5", "D14"]

theorem fromRules_findingRules {rule : Rule} (hrule : rule ∈ findingRules rt vlib lib)
    (h : rule ctx f = .ok found) : FromRules findingRuleIds found := by
  unfold findingRules at hrule
  simp only [List.mem_cons, List.not_mem_nil, or_false] at hrule
  rcases hrule with rfl | rfl | rfl | rfl | rfl | rfl | rfl | rfl
  · exact (fromRules_arithmeticRule h).mono (by simp [findingRuleIds])
  · cases h
    exact @fromRules_ite _ _ _ _ "D3" rfl (by simp [findingRuleIds])
  · exact (fromRules_quoteRule h).mono (by simp [findingRuleIds])
  · cases h
    exact @fromRules_ite _ _ _ _ "D8" rfl (by simp [findingRuleIds])
  · exact (fromRules_periodRule h).mono (by simp [findingRuleIds])
  · exact (fromRules_deviationRule h).mono (by simp [findingRuleIds])
  · exact (fromRules_trapRule h).mono (by simp [findingRuleIds])
  · cases h
    exact @fromRules_map _ _ _ _ "D14" (fun _ => rfl) (by simp [findingRuleIds])

end Linters

end AuditSwarm
