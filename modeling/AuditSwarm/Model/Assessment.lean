import AuditSwarm.Model.Decisions

/-!
# The assessment results

The findings `build_assessment_results` of `oscal_ar.py` exports: one for each finding of the
working papers that was tested, with the result of record.
-/

namespace AuditSwarm

open Python StrEnum Decisions

namespace Oscal

/-- The key of the `n`-th finding of a control. -/
def occurrenceKey (controlId : Str) (n : Nat) : Str := controlId ++ lit "#" ++ decimal n

/-- `_occurrence_keys`, once the findings counted in `seen` have been passed. -/
def occurrenceKeysFrom : Dict Str Nat → List AuditFindingSchema → List Str
  | _, [] => []
  | seen, f :: fs =>
      let n := seen.getD f.controlId 0 + 1
      occurrenceKey f.controlId n :: occurrenceKeysFrom (seen.set f.controlId n) fs

def occurrenceKeys (findings : List AuditFindingSchema) : List Str :=
  occurrenceKeysFrom [] findings

def numberedFrom : Dict Str Nat → List Str → List Str
  | _, [] => []
  | seen, id :: ids =>
      let n := seen.getD id 0 + 1
      occurrenceKey id n :: numberedFrom (seen.set id n) ids

theorem occurrenceKeysFrom_eq (seen : Dict Str Nat) (fs : List AuditFindingSchema) :
    occurrenceKeysFrom seen fs = numberedFrom seen (fs.map (·.controlId)) := by
  induction fs generalizing seen with
  | nil => rfl
  | cons f fs ih =>
      unfold occurrenceKeysFrom
      rw [List.map_cons]
      unfold numberedFrom
      dsimp only
      rw [ih]

structure TargetStatus where
  state : Str
  reason : Str
  remarks : Option Str
  deriving DecidableEq

/-- A finding of the document: the occurrence its uuid is made from, its `result` and
`preliminary-deficiency` props, the control its target names and the target's status. -/
structure AssessedFinding where
  key : Str
  result : Str
  preliminaryDeficiency : Str
  controlId : Str
  status : TargetStatus
  deriving DecidableEq

def yesNo : Option Bool → Str
  | none => []
  | some true => lit "true"
  | some false => lit "false"

/-- The conclusions of record of a finding: those of the view of its control, if there is one. -/
def conclusionsOfRecord (view : Option EffectiveView) (f : AuditFindingSchema) :
    FindingConclusions :=
  match view.bind (·.finding f.controlId) with
  | some fv => fv.effective
  | none => draftConclusions f

def targetStatus (record : FindingConclusions) : TargetStatus :=
  let satisfied := record.result = value FindingResult.noException
  { state := if satisfied then lit "satisfied" else lit "not-satisfied"
    reason := if satisfied then lit "pass" else lit "fail"
    remarks :=
      if satisfied ∧ record.toeConclusion = value OperatingConclusion.notTested then
        some (lit ("Design and implementation only: operating effectiveness over " ++
          "the period was not tested."))
      else none }

/-- The preliminary deficiency of record; the draft's may be unset. -/
def preliminaryOfRecord (view : Option EffectiveView) (f : AuditFindingSchema) : Option Bool :=
  match view.bind (·.finding f.controlId) with
  | some fv => some fv.effective.preliminaryDeficiency
  | none => f.preliminaryDeficiency

/-- What is exported of one finding: nothing when it was not tested. -/
def assessedFinding (view : Option EffectiveView) (f : AuditFindingSchema) (key : Str) :
    Option AssessedFinding :=
  let record := conclusionsOfRecord view f
  if record.result = value FindingResult.notTested ∨ record.result = lit "None" ∨
      record.result = [] then none
  else some {
    key := key
    result := record.result
    preliminaryDeficiency := yesNo (preliminaryOfRecord view f)
    controlId := f.controlId
    status := targetStatus record }

/-- The findings of `build_assessment_results` -/
def assessedFindings (view : Option EffectiveView) (papers : WorkingPaperSchema) :
    List AssessedFinding :=
  (papers.findings.zip (occurrenceKeys papers.findings)).filterMap fun (f, key) =>
    assessedFinding view f key

/-! ## Occurrences -/

theorem occurrenceKey_inj {c c' : Str} {n n' : Nat}
    (h : occurrenceKey c n = occurrenceKey c' n') : c = c' ∧ n = n' := by
  have hsplit : ∀ {xs ys ds es : Str}, 35 ∉ ds → xs ++ 35 :: ds = ys ++ 35 :: es →
      ∀ z, ys = xs ++ z → z = [] := by
    intro xs ys ds es hds heq z hz
    rw [hz, List.append_assoc] at heq
    have htail := List.append_cancel_left heq
    cases z with
    | nil => rfl
    | cons a z =>
        rw [List.cons_append] at htail
        have hmem : (35 : CodePoint) ∈ ds := by
          rw [(List.cons.inj htail).2]
          exact List.mem_append_right _ List.mem_cons_self
        exact absurd hmem hds
  have hdigits : ∀ k, (35 : CodePoint) ∉ decimal k := by
    intro k hk
    exact absurd (all_isDigit_decimal k 35 hk) (by decide)
  unfold occurrenceKey at h
  simp only [List.append_assoc] at h
  have hlit : lit "#" = [35] := by decide
  rw [hlit, List.singleton_append, List.singleton_append] at h
  have hc : c = c' := by
    rcases List.append_eq_append_iff.mp h with ⟨z, hz, -⟩ | ⟨z, hz, -⟩
    · rw [hz, hsplit (hdigits n) h z hz, List.append_nil]
    · rw [hz, hsplit (hdigits n') h.symm z hz, List.append_nil]
  subst hc
  have htail := List.append_cancel_left h
  exact ⟨rfl, decimal_injective (List.cons.inj htail).2⟩

theorem mem_numberedFrom {seen : Dict Str Nat} {ids : List Str} {k : Str}
    (h : k ∈ numberedFrom seen ids) : ∃ c n, k = occurrenceKey c n ∧ seen.getD c 0 < n := by
  induction ids generalizing seen with
  | nil => cases h
  | cons id ids ih =>
      unfold numberedFrom at h
      rcases List.mem_cons.mp h with rfl | h
      · exact ⟨_, _, rfl, by omega⟩
      · obtain ⟨c, n, rfl, hn⟩ := ih h
        refine ⟨c, n, rfl, ?_⟩
        unfold Dict.getD at hn ⊢
        rw [Dict.get?_set] at hn
        by_cases hc : id = c
        · rw [if_pos hc, Option.getD_some] at hn
          subst hc
          omega
        · rwa [if_neg hc] at hn

theorem nodup_numberedFrom (seen : Dict Str Nat) (ids : List Str) :
    (numberedFrom seen ids).Nodup := by
  induction ids generalizing seen with
  | nil => exact List.nodup_nil
  | cons id ids ih =>
      unfold numberedFrom
      refine List.nodup_cons.mpr ⟨?_, ih _⟩
      intro hmem
      obtain ⟨c, n, hkey, hn⟩ := mem_numberedFrom hmem
      obtain ⟨rfl, rfl⟩ := occurrenceKey_inj hkey
      unfold Dict.getD at hn
      rw [Dict.get?_set_self, Option.getD_some] at hn
      exact absurd hn (Nat.lt_irrefl _)

theorem nodup_occurrenceKeys (fs : List AuditFindingSchema) : (occurrenceKeys fs).Nodup := by
  unfold occurrenceKeys
  rw [occurrenceKeysFrom_eq]
  exact nodup_numberedFrom _ _

theorem length_numberedFrom (seen : Dict Str Nat) (ids : List Str) :
    (numberedFrom seen ids).length = ids.length := by
  induction ids generalizing seen with
  | nil => rfl
  | cons id ids ih =>
      unfold numberedFrom
      rw [List.length_cons, List.length_cons, ih]

theorem length_occurrenceKeysFrom (seen : Dict Str Nat) (fs : List AuditFindingSchema) :
    (occurrenceKeysFrom seen fs).length = fs.length := by
  rw [occurrenceKeysFrom_eq, length_numberedFrom, List.length_map]

/-- What is exported under the key of a finding is what is exported of it. -/
theorem mem_assessedFindings_iff {view : Option EffectiveView} {papers : WorkingPaperSchema}
    {i : Nat} {f : AuditFindingSchema} {key : Str} (hf : papers.findings[i]? = some f)
    (hkey : (occurrenceKeys papers.findings)[i]? = some key) {a : AssessedFinding} :
    a ∈ assessedFindings view papers ∧ a.key = key ↔ assessedFinding view f key = some a := by
  have hown : ∀ {g : AuditFindingSchema} {k : Str}, assessedFinding view g k = some a →
      a.key = k := by
    intro g k ha
    unfold assessedFinding at ha
    dsimp only at ha
    split at ha
    · cases ha
    · exact congrArg (·.key) (Option.some.inj ha).symm
  unfold assessedFindings
  rw [List.mem_filterMap]
  constructor
  · intro h
    obtain ⟨⟨⟨g, k⟩, hmem, ha⟩, hak⟩ := h
    obtain rfl : k = key := (hown ha).symm.trans hak
    obtain ⟨j, hj⟩ := List.mem_iff_getElem?.mp hmem
    obtain ⟨hg, hk⟩ := List.getElem?_zip_eq_some.mp hj
    -- the key says which finding it is
    obtain ⟨hi, -⟩ := List.getElem?_eq_some_iff.mp hkey
    have hij : i = j :=
      (List.getElem?_inj hi (nodup_occurrenceKeys papers.findings)).mp (hkey.trans hk.symm)
    subst hij
    obtain rfl := Option.some.inj (hf.symm.trans hg)
    exact ha
  · intro ha
    refine ⟨⟨(f, key), ?_, ha⟩, hown ha⟩
    exact List.mem_iff_getElem?.mpr ⟨i, List.getElem?_zip_eq_some.mpr ⟨hf, hkey⟩⟩

end Oscal

end AuditSwarm
