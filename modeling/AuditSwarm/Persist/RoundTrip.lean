import AuditSwarm.Model.Repository
import AuditSwarm.Run.Records

/-!
# Stored models read back

Validation undoes dumping: every artifact, decision and generation record is read from its dump as
it was.
-/

namespace AuditSwarm

open Python Json StrEnum Decisions

def LowersAscii (rt : Runtime) : Prop :=
  ∀ s : Str, (∀ c ∈ s, c.val < 128) → rt.lower s = s.map Runtime.lowerAscii

theorem lowersAscii_ascii (digest : DigestInput → Digest) : LowersAscii (.ascii digest) :=
  fun _ _ => rfl

/-! ## Enum members -/

/-- The members of an enumeration stay apart when case and separators are ignored. -/
structure Distinguished (α : Type) [StrEnum α] : Prop where
  asciiNodup :
    ((members : List α).all fun a =>
      (strip (collapseSeparators false (value a))).all fun c => decide (c.val < 128)) = true ∧
    ((members : List α).map fun a =>
      (strip (collapseSeparators false (value a))).map Runtime.lowerAscii).Nodup

section
variable {rt : Runtime} {α : Type} [StrEnum α]

theorem norm_value (hrt : LowersAscii rt) (h : Distinguished α) (a : α) :
    norm rt (value a) =
      (strip (collapseSeparators false (value a))).map Runtime.lowerAscii := by
  refine hrt _ ?_
  intro c hc
  have hall := List.all_eq_true.mp h.asciiNodup.1 a (mem_members a)
  exact of_decide_eq_true (List.all_eq_true.mp hall c hc)

theorem getLast?_of_forall_eq {β : Type} {xs : List β} {b : β} (hmem : b ∈ xs)
    (h : ∀ x ∈ xs, x = b) : xs.getLast? = some b := by
  obtain ⟨x, hx⟩ : ∃ x, xs.getLast? = some x :=
    ⟨_, List.getLast?_eq_some_getLast (List.ne_nil_of_mem hmem)⟩
  rw [hx, h x (List.mem_of_getLast? hx)]

theorem reads_enum (hrt : LowersAscii rt) (h : Distinguished α) (a : α) :
    Reads (lenientEnum rt α) (toJson a) a := by
  have hlast : ((members : List α).filter fun m =>
      norm rt (value m) = norm rt (value a)).getLast? = some a := by
    refine getLast?_of_forall_eq ?_ ?_
    · rw [List.mem_filter]
      exact ⟨mem_members a, by simp⟩
    · intro m hm
      have hsame : norm rt (value m) = norm rt (value a) :=
        of_decide_eq_true (List.mem_filter.mp hm).2
      rw [norm_value hrt h, norm_value hrt h] at hsame
      exact List.inj_on_of_nodup_map h.asciiNodup.2 (mem_members m) (mem_members a) hsame
  refine reads_scalar trivial ?_
  unfold lenientEnum StrEnum.toJson
  dsimp only
  rw [hlast]

theorem reads_optEnum (hrt : LowersAscii rt) (h : Distinguished α) (x : Option α) :
    Reads (readOptEnum rt α) (dumpOptEnum x) x :=
  reads_option (fun a => by simp [StrEnum.toJson]) fun a _ => reads_enum hrt h a

theorem reads_plainEnum (a : α) : Reads (readEnum α) (toJson a) a :=
  reads_scalar trivial (ofValue?_value a)

end

theorem distinguished_riskRating : Distinguished RiskRating := ⟨by decide⟩

theorem distinguished_controlFrequency : Distinguished ControlFrequency := ⟨by decide⟩

theorem distinguished_controlNature : Distinguished ControlNature := ⟨by decide⟩

theorem distinguished_controlType : Distinguished ControlType := ⟨by decide⟩

theorem distinguished_samplingMethod : Distinguished SamplingMethod := ⟨by decide⟩

theorem distinguished_designConclusion : Distinguished DesignConclusion := ⟨by decide⟩

theorem distinguished_operatingConclusion : Distinguished OperatingConclusion := ⟨by decide⟩

theorem distinguished_findingResult : Distinguished FindingResult := ⟨by decide⟩

theorem distinguished_deficiencyClassification : Distinguished DeficiencyClassification := ⟨by decide⟩

theorem distinguished_deficiencyScale : Distinguished DeficiencyScale := ⟨by decide⟩

/-! ## Models -/

section
variable {rt : Runtime} {co : Coercions}

theorem reads_strs (xs : List Str) : Reads readStrs (dumpStrs xs) xs :=
  reads_list fun x _ => reads_str x

theorem reads_optStr (x : Option Str) : Reads readOptStr (dumpOptStr x) x :=
  reads_option (fun _ => by simp) fun a _ => reads_str a

theorem reads_bool (b : Bool) : Reads co.boolOf (.bool b) b :=
  reads_scalar trivial (co.boolOf_bool b)

theorem reads_optBool (x : Option Bool) : Reads (readOption co.boolOf) (dumpOptBool x) x :=
  reads_option (fun _ => by simp) fun b _ => reads_bool b

theorem reads_count (x : Option Nat) : Reads (readCount rt co) (dumpOptNat x) x := by
  cases x with
  | none => exact reads_scalar trivial rfl
  | some n =>
      refine reads_scalar trivial ?_
      simp only [readCount, dumpOptNat, dumpNat, ofOption, lenientInt, Option.bind_eq_bind,
        Option.bind_some, co.intOf_int]
      simp

theorem ControlTestStep.reads (s : ControlTestStep) : Reads ControlTestStep.ofJson s.toJson s := by
  intro v hv
  rcases Same.exists_obj hv with ⟨o, rfl, ho⟩
  refine bind_of_eq_some rfl ?_
  refine bind_of_eq_some (readField_of_reads ho rfl (reads_str _)) ?_
  exact bind_of_eq_some (readField_of_reads ho rfl (reads_str _)) rfl

theorem Population.reads (p : Population) : Reads Population.ofJson p.toJson p := by
  intro v hv
  rcases Same.exists_obj hv with ⟨o, rfl, ho⟩
  refine bind_of_eq_some rfl ?_
  refine bind_of_eq_some (readField_of_reads ho rfl (reads_str _)) ?_
  exact bind_of_eq_some (readFieldOr_of_reads ho rfl (reads_str _)) rfl

theorem reads_steps (xs : List ControlTestStep) :
    Reads (readList ControlTestStep.ofJson) (dumpSteps xs) xs :=
  reads_list fun s _ => s.reads

theorem ControlTesting.reads (hrt : LowersAscii rt) (t : ControlTesting) :
    Reads (ControlTesting.ofJson rt co) t.toJson t := by
  intro v hv
  rcases Same.exists_obj hv with ⟨o, rfl, ho⟩
  have hsubstantive : Reads (readOption (readList ControlTestStep.ofJson))
      (ofOption dumpSteps t.substantiveTesting) t.substantiveTesting :=
    reads_option (fun _ => by simp [dumpSteps, ofList]) fun xs _ => reads_steps xs
  have hpopulation : Reads (readOption Population.ofJson) (ofOption Population.toJson t.population)
      t.population :=
    reads_option (fun _ => by simp [Population.toJson]) fun p _ => p.reads
  have hmethod := reads_optEnum hrt distinguished_samplingMethod t.samplingMethod
  refine bind_of_eq_some rfl ?_
  refine bind_of_eq_some (readField_of_reads ho rfl (reads_steps _)) ?_
  refine bind_of_eq_some (readField_of_reads ho rfl (reads_steps _)) ?_
  refine bind_of_eq_some (readFieldOr_of_reads ho rfl hsubstantive) ?_
  refine bind_of_eq_some (readFieldOr_of_reads ho rfl hpopulation) ?_
  refine bind_of_eq_some (readFieldOr_of_reads ho rfl (reads_count _)) ?_
  refine bind_of_eq_some (readFieldOr_of_reads ho rfl hmethod) ?_
  exact bind_of_eq_some (readFieldOr_of_reads ho rfl (reads_optStr _)) rfl

theorem Control.reads (hrt : LowersAscii rt) (c : Control) :
    Reads (Control.ofJson rt co) c.toJson c := by
  intro v hv
  rcases Same.exists_obj hv with ⟨o, rfl, ho⟩
  have hfrequency := reads_optEnum hrt distinguished_controlFrequency c.frequency
  have hnature := reads_optEnum hrt distinguished_controlNature c.nature
  have htype := reads_optEnum hrt distinguished_controlType c.controlType
  refine bind_of_eq_some rfl ?_
  refine bind_of_eq_some (readField_of_reads ho rfl (reads_str _)) ?_
  refine bind_of_eq_some (readField_of_reads ho rfl (reads_str _)) ?_
  refine bind_of_eq_some (readFieldOr_of_reads ho rfl (reads_optStr _)) ?_
  refine bind_of_eq_some (readFieldOr_of_reads ho rfl hfrequency) ?_
  refine bind_of_eq_some (readFieldOr_of_reads ho rfl hnature) ?_
  refine bind_of_eq_some (readFieldOr_of_reads ho rfl htype) ?_
  refine bind_of_eq_some (readFieldOr_of_reads ho rfl (reads_optBool _)) ?_
  refine bind_of_eq_some (readFieldOr_of_reads ho rfl (reads_strs _)) ?_
  refine bind_of_eq_some (readFieldOr_of_reads ho rfl (reads_strs _)) ?_
  exact bind_of_eq_some (readField_of_reads ho rfl (c.testingProcedures.reads hrt)) rfl

theorem Risk.reads (hrt : LowersAscii rt) (r : Risk) : Reads (Risk.ofJson rt co) r.toJson r := by
  intro v hv
  rcases Same.exists_obj hv with ⟨o, rfl, ho⟩
  have hlikelihood := reads_optEnum hrt distinguished_riskRating r.likelihood
  have himpact := reads_optEnum hrt distinguished_riskRating r.impact
  have hcontrols : Reads (readList (Control.ofJson rt co)) (ofList Control.toJson r.controls)
      r.controls := reads_list fun c _ => c.reads hrt
  refine bind_of_eq_some rfl ?_
  refine bind_of_eq_some (readField_of_reads ho rfl (reads_str _)) ?_
  refine bind_of_eq_some (readField_of_reads ho rfl (reads_str _)) ?_
  refine bind_of_eq_some (readFieldOr_of_reads ho rfl hlikelihood) ?_
  refine bind_of_eq_some (readFieldOr_of_reads ho rfl himpact) ?_
  refine bind_of_eq_some (readFieldOr_of_reads ho rfl (reads_optStr _)) ?_
  refine bind_of_eq_some (readField_of_reads ho rfl (reads_strs _)) ?_
  exact bind_of_eq_some (readField_of_reads ho rfl hcontrols) rfl

theorem RiskControlMatrixSchema.reads (hrt : LowersAscii rt) (m : RiskControlMatrixSchema) :
    Reads (RiskControlMatrixSchema.ofJson rt co) m.toJson m := by
  intro v hv
  rcases Same.exists_obj hv with ⟨o, rfl, ho⟩
  have hrisks : Reads (readList (Risk.ofJson rt co)) (ofList Risk.toJson m.risks) m.risks :=
    reads_list fun r _ => r.reads hrt
  refine bind_of_eq_some rfl ?_
  refine bind_of_eq_some (readField_of_reads ho rfl (reads_str _)) ?_
  exact bind_of_eq_some (readField_of_reads ho rfl hrisks) rfl

theorem AuditFindingSchema.ofFields_same (hrt : LowersAscii rt) {f : AuditFindingSchema}
    {o : Dict Str Json} (ho : Same (.obj o) f.toJson) : ofFields rt co o = some f := by
  have htod := reads_enum hrt distinguished_designConclusion f.todConclusion
  have htoe := reads_enum hrt distinguished_operatingConclusion f.toeConclusion
  have hresult := reads_optEnum hrt distinguished_findingResult f.result
  unfold toJson at ho
  refine bind_of_eq_some (readField_of_reads ho rfl (reads_str _)) ?_
  refine bind_of_eq_some (readFieldOr_of_reads ho rfl (reads_str _)) ?_
  refine bind_of_eq_some (readFieldOr_of_reads ho rfl (reads_str _)) ?_
  refine bind_of_eq_some (readField_of_reads ho rfl htod) ?_
  refine bind_of_eq_some (readField_of_reads ho rfl htoe) ?_
  refine bind_of_eq_some (readFieldOr_of_reads ho rfl (reads_optStr _)) ?_
  refine bind_of_eq_some (readFieldOr_of_reads ho rfl (reads_count _)) ?_
  refine bind_of_eq_some (readFieldOr_of_reads ho rfl (reads_count _)) ?_
  refine bind_of_eq_some (readFieldOr_of_reads ho rfl hresult) ?_
  refine bind_of_eq_some (readFieldOr_of_reads ho rfl (reads_optBool _)) ?_
  refine bind_of_eq_some (readField_of_reads ho rfl (reads_str _)) ?_
  exact bind_of_eq_some (readFieldOr_of_reads ho rfl (reads_optStr _)) rfl

/-- A finding that passed its validators is read from its dump as it was. -/
theorem AuditFindingSchema.reads (hrt : LowersAscii rt) {f : AuditFindingSchema} (hf : f.Valid) :
    Reads (AuditFindingSchema.ofJson rt co) f.toJson f := by
  intro v hv
  rcases Same.exists_obj hv with ⟨o, rfl, ho⟩
  -- a dump has no legacy severity
  have hmigrated : migrate rt o = o := by
    have hnone : Dict.get? o (lit "severity") = none := ho.get?_eq_none rfl
    unfold migrate
    rw [hnone]
    rfl
  unfold ofJson
  rw [show readObject (.obj o) = some o from rfl, Option.map_some, hmigrated, Option.bind_some,
    ofFields_same hrt ho]
  exact toOption_eq_some_iff.mpr hf

theorem WorkingPaperSchema.reads (hrt : LowersAscii rt) {p : WorkingPaperSchema} (hp : p.Valid) :
    Reads (WorkingPaperSchema.ofJson rt co) p.toJson p := by
  intro v hv
  rcases Same.exists_obj hv with ⟨o, rfl, ho⟩
  have hfindings : Reads (readList (AuditFindingSchema.ofJson rt co))
      (ofList AuditFindingSchema.toJson p.findings) p.findings :=
    reads_list fun f hf => AuditFindingSchema.reads hrt (hp f hf)
  refine bind_of_eq_some rfl ?_
  refine bind_of_eq_some (readField_of_reads ho rfl (reads_str _)) ?_
  exact bind_of_eq_some (readField_of_reads ho rfl hfindings) rfl

theorem DeficiencyEvaluationSchema.ofFields_same (hrt : LowersAscii rt)
    {e : DeficiencyEvaluationSchema} {o : Dict Str Json} (ho : Same (.obj o) e.toJson) :
    ofFields rt o = some e := by
  have hlikelihood := reads_enum hrt distinguished_riskRating e.likelihood
  have hmagnitude := reads_enum hrt distinguished_riskRating e.magnitude
  have hclassification := reads_enum hrt distinguished_deficiencyClassification e.classification
  unfold toJson at ho
  refine bind_of_eq_some (readField_of_reads ho rfl (reads_str _)) ?_
  refine bind_of_eq_some (readField_of_reads ho rfl (reads_str _)) ?_
  refine bind_of_eq_some (readField_of_reads ho rfl (reads_strs _)) ?_
  refine bind_of_eq_some (readFieldOr_of_reads ho rfl (reads_strs _)) ?_
  refine bind_of_eq_some (readField_of_reads ho rfl (reads_str _)) ?_
  refine bind_of_eq_some (readField_of_reads ho rfl hlikelihood) ?_
  refine bind_of_eq_some (readField_of_reads ho rfl hmagnitude) ?_
  refine bind_of_eq_some (readField_of_reads ho rfl hclassification) ?_
  exact bind_of_eq_some (readField_of_reads ho rfl (reads_str _)) rfl

theorem DeficiencyEvaluationSchema.reads (hrt : LowersAscii rt) {e : DeficiencyEvaluationSchema}
    (he : e.Valid) : Reads (DeficiencyEvaluationSchema.ofJson rt) e.toJson e := by
  intro v hv
  rcases Same.exists_obj hv with ⟨o, rfl, ho⟩
  unfold ofJson
  rw [show readObject (.obj o) = some o from rfl, Option.bind_some, ofFields_same hrt ho,
    Option.filter_some, if_pos (decide_eq_true he)]

theorem OscalMetadata.reads (m : OscalMetadata) : Reads OscalMetadata.ofJson m.toJson m := by
  intro v hv
  rcases Same.exists_obj hv with ⟨o, rfl, ho⟩
  refine bind_of_eq_some rfl ?_
  refine bind_of_eq_some (readField_of_reads ho rfl (reads_str _)) ?_
  refine bind_of_eq_some (readField_of_reads ho rfl (reads_str _)) ?_
  refine bind_of_eq_some (readField_of_reads ho rfl (reads_str _)) ?_
  exact bind_of_eq_some (readFieldOr_of_reads ho rfl (reads_str _)) rfl

theorem OscalImportAp.reads (i : OscalImportAp) : Reads OscalImportAp.ofJson i.toJson i := by
  intro v hv
  rcases Same.exists_obj hv with ⟨o, rfl, ho⟩
  refine bind_of_eq_some rfl ?_
  refine bind_of_eq_some (readField_of_reads ho rfl (reads_str _)) ?_
  exact bind_of_eq_some (readFieldOr_of_reads ho rfl (reads_optStr _)) rfl

theorem OscalObservation.reads (b : OscalObservation) :
    Reads OscalObservation.ofJson b.toJson b := by
  intro v hv
  rcases Same.exists_obj hv with ⟨o, rfl, ho⟩
  refine bind_of_eq_some rfl ?_
  refine bind_of_eq_some (readField_of_reads ho rfl (reads_str _)) ?_
  refine bind_of_eq_some (readField_of_reads ho rfl (reads_str _)) ?_
  refine bind_of_eq_some (readField_of_reads ho rfl (reads_strs _)) ?_
  refine bind_of_eq_some (readField_of_reads ho rfl (reads_strs _)) ?_
  exact bind_of_eq_some (readField_of_reads ho rfl (reads_strs _)) rfl

theorem OscalResult.reads (r : OscalResult) : Reads OscalResult.ofJson r.toJson r := by
  intro v hv
  rcases Same.exists_obj hv with ⟨o, rfl, ho⟩
  have hobservations : Reads (readList OscalObservation.ofJson)
      (ofList OscalObservation.toJson r.observations) r.observations :=
    reads_list fun b _ => b.reads
  refine bind_of_eq_some rfl ?_
  refine bind_of_eq_some (readField_of_reads ho rfl (reads_str _)) ?_
  refine bind_of_eq_some (readField_of_reads ho rfl (reads_str _)) ?_
  refine bind_of_eq_some (readField_of_reads ho rfl (reads_str _)) ?_
  exact bind_of_eq_some (readField_of_reads ho rfl hobservations) rfl

theorem OscalSarSchema.reads (s : OscalSarSchema) : Reads OscalSarSchema.ofJson s.toJson s := by
  intro v hv
  rcases Same.exists_obj hv with ⟨o, rfl, ho⟩
  have hresults : Reads (readList OscalResult.ofJson) (ofList OscalResult.toJson s.results)
      s.results := reads_list fun r _ => r.reads
  refine bind_of_eq_some rfl ?_
  refine bind_of_eq_some (readField_of_reads ho rfl s.metadata.reads) ?_
  refine bind_of_eq_some (readField_of_reads ho rfl s.importAp.reads) ?_
  exact bind_of_eq_some (readField_of_reads ho rfl hresults) rfl

theorem FinalReportSchema.ofFields_same (hrt : LowersAscii rt) {r : FinalReportSchema}
    (hr : ∀ e ∈ r.deficiencyEvaluations, e.Valid) {o : Dict Str Json}
    (ho : Same (.obj o) r.toJson) : ofFields rt co o = some r := by
  have hevaluations : Reads (readList (DeficiencyEvaluationSchema.ofJson rt))
      (ofList DeficiencyEvaluationSchema.toJson r.deficiencyEvaluations)
      r.deficiencyEvaluations :=
    reads_list fun e he => DeficiencyEvaluationSchema.reads hrt (hr e he)
  have hscale := reads_optEnum hrt distinguished_deficiencyScale r.deficiencyScale
  have hsar : Reads (readOption OscalSarSchema.ofJson) (ofOption OscalSarSchema.toJson r.oscalSar)
      r.oscalSar :=
    reads_option (fun _ => by simp [OscalSarSchema.toJson]) fun s _ => s.reads
  unfold toJson at ho
  refine bind_of_eq_some (readField_of_reads ho rfl (reads_str _)) ?_
  refine bind_of_eq_some (readField_of_reads ho rfl (reads_str _)) ?_
  refine bind_of_eq_some (readField_of_reads ho rfl (reads_bool _)) ?_
  refine bind_of_eq_some (readFieldOr_of_reads ho rfl hevaluations) ?_
  refine bind_of_eq_some (readFieldOr_of_reads ho rfl hscale) ?_
  exact bind_of_eq_some (readFieldOr_of_reads ho rfl hsar) rfl

/-- A report on one scale is read from its dump as it was. -/
theorem FinalReportSchema.reads (hrt : LowersAscii rt) {r : FinalReportSchema} (hr : r.Valid) :
    Reads (FinalReportSchema.ofJson rt co) r.toJson r := by
  intro v hv
  rcases Same.exists_obj hv with ⟨o, rfl, ho⟩
  unfold ofJson
  rw [show readObject (.obj o) = some o from rfl, Option.bind_some, ofFields_same hrt hr.1 ho,
    Option.bind_some, checked, hr.2]

/-! ## Decisions -/

/-- The fields of a decision are those of its dump, its values in the order they are found in. -/
theorem ReviewDecision.ofFields_same {d : ReviewDecision} (hd : 2 ≤ d.phase ∧ d.phase ≤ 3)
    {o : Dict Str Json} (ho : Same (.obj o) d.toJson) {values : Dict Str Str}
    (hvalues : readFieldOr [] o "values" (readMembers readStr) = some values) :
    ofFields co o = some { d with values := values } := by
  have hphase : Reads (readDecisionPhase co) (dumpNat d.phase) d.phase := by
    refine reads_scalar trivial ?_
    unfold readDecisionPhase dumpNat
    rw [co.intOf_int]
    simp
    omega
  unfold toJson at ho
  refine bind_of_eq_some (readField_of_reads ho rfl (reads_str _)) ?_
  refine bind_of_eq_some (readField_of_reads ho rfl hphase) ?_
  refine bind_of_eq_some (readField_of_reads ho rfl (reads_str _)) ?_
  refine bind_of_eq_some (readField_of_reads ho rfl (reads_str _)) ?_
  refine bind_of_eq_some (readField_of_reads ho rfl (reads_plainEnum _)) ?_
  refine bind_of_eq_some (readField_of_reads ho rfl (reads_str _)) ?_
  refine bind_of_eq_some (readField_of_reads ho rfl (reads_plainEnum _)) ?_
  refine bind_of_eq_some hvalues ?_
  refine bind_of_eq_some (readFieldOr_of_reads ho rfl (reads_str _)) ?_
  refine bind_of_eq_some (readField_of_reads ho rfl (reads_str _)) ?_
  refine bind_of_eq_some (readFieldOr_of_reads ho rfl (reads_plainEnum _)) ?_
  refine bind_of_eq_some (readField_of_reads ho rfl (reads_str _)) ?_
  exact bind_of_eq_some (readFieldOr_of_reads ho rfl (reads_optStr _)) rfl

/-- A decision on a phase with reviewer decisions is read from its dump as it was. -/
theorem ReviewDecision.readsBack :
    ReadsBackOn (fun d => 2 ≤ d.phase ∧ d.phase ≤ 3) (ReviewDecision.ofJson co)
      ReviewDecision.toJson := by
  intro d hd
  have hknown : (readObject d.toJson).filter knownFields = readObject d.toJson := rfl
  have hvalues : readMembers readStr (.obj (d.values.mapValues .str)) = some d.values :=
    readsBack_str.members d.values
  unfold ofJson
  rw [hknown]
  exact ofFields_same hd (.refl _) hvalues

theorem ReviewDecision.phase_of_ofJson {d : ReviewDecision} {v : Json} (h : ofJson co v = some d) :
    2 ≤ d.phase ∧ d.phase ≤ 3 := by
  unfold ofJson at h
  rcases Option.bind_eq_some_iff.mp h with ⟨o, -, h⟩
  unfold ofFields at h
  rcases Option.bind_eq_some_iff.mp h with ⟨_, -, h⟩
  rcases Option.bind_eq_some_iff.mp h with ⟨phase, hphase, h⟩
  iterate 11 rcases Option.bind_eq_some_iff.mp h with ⟨_, -, h⟩
  rw [← Option.some.inj h]
  dsimp only
  rcases Option.bind_eq_some_iff.mp hphase with ⟨j, -, hread⟩
  rcases Option.bind_eq_some_iff.mp hread with ⟨n, -, hread⟩
  split at hread
  · rename_i hbounds
    rw [← Option.some.inj hread]
    omega
  · cases hread

/-- What is the same as the dump of a decision is read as a decision that is dumped the same. -/
theorem ReviewDecision.exists_ofJson {d : ReviewDecision} (hd : 2 ≤ d.phase ∧ d.phase ≤ 3)
    {v : Json} (hv : Same v d.toJson) :
    ∃ e, ofJson co v = some e ∧ Same e.toJson d.toJson := by
  rcases Same.exists_obj hv with ⟨o, rfl, ho⟩
  have hknown : knownFields o = true := by
    refine List.all_eq_true.mpr fun kv hkv => ?_
    rcases ho.exists_mem hkv with ⟨j, hj, -⟩
    exact (List.all_eq_true (p := fun kv : Str × Json =>
      reviewDecisionFields.any fun name => kv.1 = lit name)).mp rfl (kv.1, j) hj
  rcases ho.exists_get? (k := lit "values") rfl with ⟨stored, hstored, hsame⟩
  rcases Same.exists_obj hsame with ⟨members, rfl, hmembers⟩
  rcases exists_readMembers_str hmembers with ⟨values, hvalues, hwritten⟩
  refine ⟨{ d with values := values }, ?_, ?_⟩
  · unfold ofJson
    rw [show readObject (.obj o) = some o from rfl, Option.filter_some, if_pos hknown,
      Option.bind_some]
    refine ofFields_same hd ho ?_
    unfold readFieldOr
    rw [hstored]
    exact hvalues
  · rw [← hwritten] at hmembers
    unfold toJson
    refine (same_obj_iff (by rfl) (by simp)).mpr ?_
    simp [Same.refl, hmembers]

/-! ## Generation records -/

theorem reads_temperature {t : Rat} (ht : t = 0 ∨ t = 1 / 10) :
    Reads co.floatOf (.float (co.floatText t)) t := by
  rcases ht with rfl | rfl
  · exact reads_scalar trivial co.floatOf_zero
  · exact reads_scalar trivial co.floatOf_tenth

theorem reads_runPhase (p : Phase) : Reads (readRunPhase co) (dumpNat p.number) p := by
  refine reads_scalar trivial ?_
  unfold readRunPhase dumpNat
  rw [co.intOf_int]
  cases p <;> rfl

theorem reads_attempts (n : Nat) : Reads (readAttempts co) (dumpNat n) n := by
  refine reads_scalar trivial ?_
  simp [readAttempts, dumpNat, co.intOf_int]

/-- A record of a phase run is read from its dump as it was. -/
theorem GenerationRun.reads {r : GenerationRun} (hr : AuditFlow.Tempered r) :
    Reads (GenerationRun.ofJson co) (r.toJson co) r := by
  intro v hv
  rcases Same.exists_obj hv with ⟨o, rfl, ho⟩
  refine bind_of_eq_some rfl ?_
  refine bind_of_eq_some (readField_of_reads ho rfl (reads_str _)) ?_
  refine bind_of_eq_some (readField_of_reads ho rfl (reads_runPhase _)) ?_
  refine bind_of_eq_some (readField_of_reads ho rfl (reads_str _)) ?_
  refine bind_of_eq_some (readField_of_reads ho rfl (reads_str _)) ?_
  refine bind_of_eq_some (readField_of_reads ho rfl (reads_str _)) ?_
  refine bind_of_eq_some (readField_of_reads ho rfl (reads_str _)) ?_
  refine bind_of_eq_some (readField_of_reads ho rfl (reads_temperature hr.temperature)) ?_
  refine bind_of_eq_some
    (readField_of_reads ho rfl (reads_temperature (Or.inl hr.qaTemperature))) ?_
  refine bind_of_eq_some (readField_of_reads ho rfl (reads_str _)) ?_
  refine bind_of_eq_some (readField_of_reads ho rfl (reads_str _)) ?_
  refine bind_of_eq_some (readField_of_reads ho rfl (reads_str _)) ?_
  refine bind_of_eq_some (readField_of_reads ho rfl (reads_str _)) ?_
  refine bind_of_eq_some (readFieldOr_of_reads ho rfl (reads_optStr _)) ?_
  refine bind_of_eq_some (readFieldOr_of_reads ho rfl (reads_attempts _)) ?_
  refine bind_of_eq_some (readFieldOr_of_reads ho rfl (reads_bool _)) ?_
  refine bind_of_eq_some (readFieldOr_of_reads ho rfl (reads_str _)) ?_
  refine bind_of_eq_some (readFieldOr_of_reads ho rfl (reads_str _)) ?_
  refine bind_of_eq_some (readFieldOr_of_reads ho rfl (reads_str _)) ?_
  refine bind_of_eq_some (readFieldOr_of_reads ho rfl (reads_bool _)) ?_
  refine bind_of_eq_some (readFieldOr_of_reads ho rfl (reads_bool _)) ?_
  refine bind_of_eq_some (readFieldOr_of_reads ho rfl (reads_strs _)) ?_
  exact bind_of_eq_some (readFieldOr_of_reads ho rfl (reads_str _)) rfl

end

end AuditSwarm
