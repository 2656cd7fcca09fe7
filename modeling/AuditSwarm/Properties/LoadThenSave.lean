import AuditSwarm.Properties.Restart

/-!
# Loading, then saving

Loading is tolerant field by field, and saving writes every field.  A stored field comes back from
the two together as what its value validates to, or empty when it does not validate.
-/

namespace AuditSwarm

open Python Json

variable {rt : Runtime} {co : Coercions} {env : Env}

/-! ## The fields -/

/-- The stored fields that hold the record of an audit. -/
inductive StoredField where
  | artifact (p : Phase)
  | approvalTrail
  | reviewDecisions

namespace StoredField

def name : StoredField → Str
  | artifact p => p.artifactField
  | approvalTrail => lit "approval_trail"
  | reviewDecisions => lit "review_decisions"

def dumped : StoredField → AuditState → Json
  | artifact p, s => (s.artifact p).getD .null
  | approvalTrail, s => dumpTrail s.approvalTrail
  | reviewDecisions, s => ofList ReviewDecision.toJson s.reviewDecisions

def redumped (rt : Runtime) (co : Coercions) : StoredField → Json → Option Json
  | artifact .planning, v =>
      (RiskControlMatrixSchema.ofJson rt co v).map RiskControlMatrixSchema.toJson
  | artifact .fieldwork, v => (storedPapers rt co v).map fun p => p.val.toJson
  | artifact .reporting, v => (storedReport rt co v).map fun r => r.val.toJson
  | approvalTrail, v => (readTrail v).map dumpTrail
  | reviewDecisions, v =>
      (readList (ReviewDecision.ofJson co) v).map (ofList ReviewDecision.toJson)

def empty : StoredField → Json
  | artifact _ => .null
  | approvalTrail => .arr []
  | reviewDecisions => .arr []

/-- The value is, up to the order of keys, what is dumped of some valid content of the field; null
stands for an artifact that is not there. -/
def Restorable : StoredField → Json → Prop
  | artifact .planning, v => v = .null ∨ ∃ m : RiskControlMatrixSchema, Same v m.toJson
  | artifact .fieldwork, v => v = .null ∨ ∃ p : ValidPapers, Same v p.val.toJson
  | artifact .reporting, v => v = .null ∨ ∃ r : ValidReport, Same v r.val.toJson
  | approvalTrail, v => ∃ trail : List StrEntry, Same v (dumpTrail trail)
  | reviewDecisions, v => ∃ ds : List ReviewDecision, (∀ d ∈ ds, 2 ≤ d.phase ∧ d.phase ≤ 3) ∧
      Same v (ofList ReviewDecision.toJson ds)

def KeptIn (sessions : Sessions) (id : Str) (k : StoredField) (v : Json) : Prop :=
  ∃ entry, ∃ stored : Dict Str Json, ∃ w, sessions.get? id = some entry ∧
    entry.get? (lit "state_snapshot") = some (.obj stored) ∧ stored.get? k.name = some w ∧ Same v w

end StoredField

/-! ## The loop over the scalar fields -/

section
variable {snapshot : Dict Str Json} {α : Type} {π : AuditState → α}

theorem setScalar_cases {k : Str} {raw : Json} {s t : AuditState}
    (h : setScalar co k raw s = some t) :
    ∃ assign, (k, assign) ∈ scalarSetters co ∧ assign raw s = some t := by
  obtain ⟨assign, hget, hassign⟩ := Option.bind_eq_some_iff.mp h
  exact ⟨assign, Dict.mem_of_get? hget, hassign⟩

theorem scalar_other {k : Str} {l : Loading}
    (hother : ∀ raw s t, setScalar co k raw s = some t → π t = π s) :
    π (l.scalar co snapshot k).state = π l.state := by
  unfold Loading.scalar
  cases snapshot.get? k with
  | none => rfl
  | some raw =>
      cases hset : setScalar co k raw l.state with
      | none => simp only [hset, Loading.assign]
      | some t =>
          simp only [hset, Loading.assign]
          exact hother raw _ _ hset

theorem foldl_scalar_other {ks : List Str} {l : Loading}
    (hother : ∀ k ∈ ks, ∀ raw s t, setScalar co k raw s = some t → π t = π s) :
    π (ks.foldl (Loading.scalar co snapshot) l).state = π l.state := by
  induction ks generalizing l with
  | nil => rfl
  | cons k ks ih =>
      rw [List.foldl_cons, ih fun k' hk' => hother k' (List.mem_cons_of_mem _ hk')]
      exact scalar_other (hother k List.mem_cons_self)

theorem scalar_self {k : Str} {read : Reader α} {l : Loading}
    (hself : ∀ raw s, (setScalar co k raw s).map π = read raw) :
    π (l.scalar co snapshot k).state = ((snapshot.get? k).bind read).getD (π l.state) := by
  unfold Loading.scalar
  cases snapshot.get? k with
  | none => rfl
  | some raw =>
      rw [Option.bind_some, ← hself raw l.state]
      cases hset : setScalar co k raw l.state with
      | none => simp only [hset, Loading.assign, Option.map_none, Option.getD_none]
      | some t => simp only [hset, Loading.assign, Option.map_some, Option.getD_some]

/-- The loop leaves in a field what its value reads as, or what was there. -/
theorem foldl_scalar {k : Str} {read : Reader α} {ks : List Str} {l : Loading}
    (hself : ∀ raw s, (setScalar co k raw s).map π = read raw)
    (hother : ∀ k', k' ≠ k → ∀ raw s t, setScalar co k' raw s = some t → π t = π s)
    (hmem : (snapshot.get? k).isSome → k ∈ ks) :
    π (ks.foldl (Loading.scalar co snapshot) l).state =
      ((snapshot.get? k).bind read).getD (π l.state) := by
  have hloop : ∀ (ks : List Str) (l : Loading),
      π (ks.foldl (Loading.scalar co snapshot) l).state =
        if k ∈ ks then ((snapshot.get? k).bind read).getD (π l.state) else π l.state := by
    intro ks
    induction ks with
    | nil => simp
    | cons k' ks ih =>
        intro l
        rw [List.foldl_cons, ih]
        by_cases hk : k' = k
        · subst hk
          rw [scalar_self hself, if_pos List.mem_cons_self]
          split
          · cases (snapshot.get? k').bind read <;> rfl
          · rfl
        · rw [scalar_other (hother k' hk)]
          simp [List.mem_cons, Ne.symm hk]
  rw [hloop]
  split
  · rfl
  · rename_i hnot
    cases hget : snapshot.get? k with
    | none => rfl
    | some raw => exact absurd (hmem (by rw [hget]; rfl)) hnot

end

/-! ## What loading leaves in each field -/

section
variable {snapshot : Dict Str Json} {s t : AuditState} {raw : Json}

theorem mem_scalarFields {k : Str} (h : (snapshot.get? k).isSome) (hk : k ∉ artifactFields)
    (hstatus : k ≠ lit "status") : k ∈ scalarFields snapshot := by
  obtain ⟨v, hv⟩ := Option.isSome_iff_exists.mp h
  refine List.mem_filter.mpr ⟨List.mem_map.mpr ⟨_, Dict.mem_of_get? hv, rfl⟩, ?_⟩
  simp [hk, hstatus]

/-- An assignment to a scalar field touches nothing else. -/
structure ScalarFrame (k : Str) (s t : AuditState) : Prop where
  artifact : ∀ p, t.artifact p = s.artifact p
  trail : k ≠ lit "approval_trail" → t.approvalTrail = s.approvalTrail
  decisions : k ≠ lit "review_decisions" → t.reviewDecisions = s.reviewDecisions

theorem setScalar_frame {k : Str} (h : setScalar co k raw s = some t) : ScalarFrame k s t := by
  obtain ⟨assign, hmem, hassign⟩ := setScalar_cases h
  simp only [scalarSetters, List.mem_cons, Prod.mk.injEq, List.not_mem_nil, or_false] at hmem
  rcases hmem with ⟨rfl, rfl⟩ | ⟨rfl, rfl⟩ | ⟨rfl, rfl⟩ | ⟨rfl, rfl⟩ | ⟨rfl, rfl⟩ | ⟨rfl, rfl⟩ |
    ⟨rfl, rfl⟩ | ⟨rfl, rfl⟩ | ⟨rfl, rfl⟩ | ⟨rfl, rfl⟩ | ⟨rfl, rfl⟩
  all_goals
    obtain ⟨x, -, rfl⟩ := Option.map_eq_some_iff.mp hassign
    refine ⟨?_, ?_, ?_⟩
    · intro p
      cases p <;> rfl
    · intro hk
      first
        | rfl
        | exact absurd rfl hk
    · intro hk
      first
        | rfl
        | exact absurd rfl hk

/-- Loading an artifact touches nothing else. -/
structure ArtifactRead (p : Phase) (s t : AuditState) : Prop where
  artifact : ∀ q, q ≠ p → t.artifact q = s.artifact q
  trail : t.approvalTrail = s.approvalTrail
  decisions : t.reviewDecisions = s.reviewDecisions

theorem setArtifact_frame {p : Phase} (h : setArtifact rt co p raw s = some t) :
    ArtifactRead p s t := by
  cases p with
  | planning =>
      obtain ⟨x, -, rfl⟩ := Option.map_eq_some_iff.mp h
      exact ⟨fun q hq => by cases q <;> first | rfl | exact absurd rfl hq, rfl, rfl⟩
  | fieldwork =>
      obtain ⟨x, -, rfl⟩ := Option.map_eq_some_iff.mp h
      exact ⟨fun q hq => by cases q <;> first | rfl | exact absurd rfl hq, rfl, rfl⟩
  | reporting =>
      obtain ⟨x, -, rfl⟩ := Option.map_eq_some_iff.mp h
      exact ⟨fun q hq => by cases q <;> first | rfl | exact absurd rfl hq, rfl, rfl⟩

theorem setArtifact_artifact (p : Phase) :
    (setArtifact rt co p raw s).map (·.artifact p) =
      ((StoredField.artifact p).redumped rt co raw).map some := by
  cases p with
  | planning =>
      unfold setArtifact StoredField.redumped
      rw [Option.map_map, Option.map_map]
      rfl
  | fieldwork =>
      unfold setArtifact StoredField.redumped
      rw [Option.map_map, Option.map_map]
      rfl
  | reporting =>
      unfold setArtifact StoredField.redumped
      rw [Option.map_map, Option.map_map]
      rfl

theorem artifact_frame (l : Loading) (p : Phase) :
    ArtifactRead p l.state (l.artifact rt co snapshot p).state := by
  unfold Loading.artifact
  split
  · exact ⟨fun _ _ => rfl, rfl, rfl⟩
  · exact ⟨fun _ _ => rfl, rfl, rfl⟩
  · rename_i raw _ _
    cases hset : setArtifact rt co p raw l.state with
    | none => exact ⟨fun _ _ => rfl, rfl, rfl⟩
    | some t => exact setArtifact_frame hset

theorem redumped_null (p : Phase) : (StoredField.artifact p).redumped rt co .null = none := by
  cases p <;> rfl

theorem artifact_skipped {l : Loading} {p : Phase} (hget : snapshot.get? p.artifactField = some raw)
    (hset : setArtifact rt co p raw l.state = none) :
    (l.artifact rt co snapshot p).state = l.state := by
  unfold Loading.artifact
  rw [hget]
  split
  · rfl
  · rfl
  · rename_i hraw
    obtain rfl := Option.some.inj hraw
    rw [hset]
    rfl

/-- A stored artifact is what its value validates to, or not there. -/
theorem artifact_read (l : Loading) {p : Phase} (hl : l.state.artifact p = none) :
    (l.artifact rt co snapshot p).state.artifact p =
      (snapshot.get? p.artifactField).bind ((StoredField.artifact p).redumped rt co) := by
  cases hget : snapshot.get? p.artifactField with
  | none =>
      unfold Loading.artifact
      rw [hget]
      exact hl
  | some raw =>
      have hartifact := @setArtifact_artifact rt co l.state raw p
      rw [Option.bind_some]
      cases hset : setArtifact rt co p raw l.state with
      | none =>
          rw [hset] at hartifact
          rw [artifact_skipped hget hset, Option.map_eq_none_iff.mp hartifact.symm]
          exact hl
      | some t =>
          rw [hset] at hartifact
          obtain ⟨w, hw, hsome⟩ := Option.map_eq_some_iff.mp hartifact.symm
          by_cases hnull : raw = .null
          · rw [hnull, redumped_null] at hw
            cases hw
          · rw [artifact_some hget hnull hset, hw]
            exact hsome.symm

theorem readSnapshot_artifact (initial : AuditStatus) (p : Phase) :
    (readSnapshot rt co snapshot initial).state.artifact p =
      (snapshot.get? p.artifactField).bind ((StoredField.artifact p).redumped rt co) := by
  unfold readSnapshot
  rw [@foldl_scalar_other co snapshot _ (·.artifact p) (scalarFields snapshot) _
    fun k _ raw s t h => (setScalar_frame h).artifact p]
  simp only [List.foldl_cons, List.foldl_nil]
  generalize hstart : (Loading.mk { AuditState.fresh [] [] [] with status := initial.value } []) = l
  have hnone : ∀ q, l.state.artifact q = none := by
    intro q
    subst hstart
    cases q <;> rfl
  have hplanning := @artifact_frame rt co snapshot l .planning
  have hfieldwork := @artifact_frame rt co snapshot (l.artifact rt co snapshot .planning) .fieldwork
  have hreporting := @artifact_frame rt co snapshot
    ((l.artifact rt co snapshot .planning).artifact rt co snapshot .fieldwork) .reporting
  cases p with
  | planning =>
      rw [hreporting.artifact _ (by decide), hfieldwork.artifact _ (by decide),
        artifact_read l (hnone _)]
  | fieldwork =>
      rw [hreporting.artifact _ (by decide), artifact_read]
      rw [hplanning.artifact _ (by decide), hnone]
  | reporting =>
      rw [artifact_read]
      rw [hfieldwork.artifact _ (by decide), hplanning.artifact _ (by decide), hnone]

theorem foldl_artifact_frame (l : Loading) (ps : List Phase) :
    (ps.foldl (Loading.artifact rt co snapshot) l).state.approvalTrail = l.state.approvalTrail ∧
      (ps.foldl (Loading.artifact rt co snapshot) l).state.reviewDecisions =
        l.state.reviewDecisions := by
  induction ps generalizing l with
  | nil => exact ⟨rfl, rfl⟩
  | cons p ps ih =>
      have hframe := @artifact_frame rt co snapshot l p
      obtain ⟨htrail, hdecisions⟩ := ih (l.artifact rt co snapshot p)
      exact ⟨htrail.trans hframe.trail, hdecisions.trans hframe.decisions⟩

theorem readSnapshot_trail (initial : AuditStatus) :
    (readSnapshot rt co snapshot initial).state.approvalTrail =
      ((snapshot.get? (lit "approval_trail")).bind readTrail).getD [] := by
  unfold readSnapshot
  rw [@foldl_scalar co snapshot _ (·.approvalTrail) (lit "approval_trail") readTrail
    (scalarFields snapshot)]
  · rw [(foldl_artifact_frame _ _).1]
    rfl
  · intro raw s
    have hset : setScalar co (lit "approval_trail") raw s =
      (readTrail raw).map fun x => { s with approvalTrail := x } := rfl
    rw [hset, Option.map_map]
    exact Option.map_id'
  · intro k hk raw s t h
    exact (setScalar_frame h).trail hk
  · intro h
    exact mem_scalarFields h (by decide) (by decide)

theorem readSnapshot_decisions (initial : AuditStatus) :
    (readSnapshot rt co snapshot initial).state.reviewDecisions =
      ((snapshot.get? (lit "review_decisions")).bind
        (readList (ReviewDecision.ofJson co))).getD [] := by
  unfold readSnapshot
  rw [@foldl_scalar co snapshot _ (·.reviewDecisions) (lit "review_decisions")
    (readList (ReviewDecision.ofJson co)) (scalarFields snapshot)]
  · rw [(foldl_artifact_frame _ _).2]
    rfl
  · intro raw s
    have hset : setScalar co (lit "review_decisions") raw s =
      (readList (ReviewDecision.ofJson co) raw).map fun x => { s with reviewDecisions := x } := rfl
    rw [hset, Option.map_map]
    exact Option.map_id'
  · intro k hk raw s t h
    exact (setScalar_frame h).decisions hk
  · intro h
    exact mem_scalarFields h (by decide) (by decide)

theorem apply_getD_bind {β γ δ : Type} {x : Option β} {read : β → Option γ} {f : γ → δ} {a : γ} :
    f ((x.bind read).getD a) = (x.bind fun v => (read v).map f).getD (f a) := by
  cases x with
  | none => rfl
  | some v => cases h : read v <;> simp [h]

/-- A field is read as what its value validates to, or as empty. -/
theorem readSnapshot_dumped (initial : AuditStatus) (k : StoredField) :
    k.dumped (readSnapshot rt co snapshot initial).state =
      ((snapshot.get? k.name).bind (k.redumped rt co)).getD k.empty := by
  cases k with
  | artifact p => exact congrArg (·.getD .null) (readSnapshot_artifact initial p)
  | approvalTrail => exact (congrArg dumpTrail (readSnapshot_trail initial)).trans apply_getD_bind
  | reviewDecisions =>
      exact (congrArg (ofList ReviewDecision.toJson) (readSnapshot_decisions initial)).trans
        apply_getD_bind

/-! ## The round trip -/

theorem same_null {v : Json} (h : Same v .null) : v = .null := by
  cases v with
  | null => rfl
  | bool b => exact absurd h (not_same_null_of_bool b)
  | int n => exact absurd h (not_same_null_of_int n)
  | float r => simp [Same, sortKeys] at h
  | str s => exact absurd h (not_same_null_of_str s)
  | arr xs => exact absurd h (not_same_null_of_arr xs)
  | obj kvs => exact absurd h (not_same_null_of_obj kvs)

theorem same_nil {v : Json} (h : Same v (.arr [])) : v = .arr [] := by
  rcases Same.exists_arr h with ⟨xs, rfl, hxs⟩
  cases hxs
  rfl

theorem StoredField.restorable_of_redumped {k : StoredField} {v w : Json}
    (h : k.redumped rt co v = some w) (hsame : Same v w) : k.Restorable v := by
  cases k with
  | artifact p =>
      cases p with
      | planning =>
          rcases Option.map_eq_some_iff.mp h with ⟨m, -, rfl⟩
          exact .inr ⟨m, hsame⟩
      | fieldwork =>
          rcases Option.map_eq_some_iff.mp h with ⟨papers, -, rfl⟩
          exact .inr ⟨papers, hsame⟩
      | reporting =>
          rcases Option.map_eq_some_iff.mp h with ⟨report, -, rfl⟩
          exact .inr ⟨report, hsame⟩
  | approvalTrail =>
      rcases Option.map_eq_some_iff.mp h with ⟨trail, -, rfl⟩
      exact ⟨trail, hsame⟩
  | reviewDecisions =>
      rcases Option.map_eq_some_iff.mp h with ⟨ds, hds, rfl⟩
      exact ⟨ds, forall_of_readList (fun _ _ => ReviewDecision.phase_of_ofJson) hds, hsame⟩

/-- The dump of valid content validates to content that is dumped the same. -/
theorem StoredField.redumped_of_restorable (hrt : LowersAscii rt) {k : StoredField} {v : Json}
    (h : k.Restorable v) :
    ((∃ p, k = artifact p) ∧ v = .null) ∨ ∃ w, k.redumped rt co v = some w ∧ Same v w := by
  cases k with
  | artifact p =>
      cases p with
      | planning =>
          rcases h with rfl | ⟨m, hm⟩
          · exact .inl ⟨⟨_, rfl⟩, rfl⟩
          · exact .inr ⟨_, congrArg (Option.map _) (m.reads hrt v hm), hm⟩
      | fieldwork =>
          rcases h with rfl | ⟨papers, hpapers⟩
          · exact .inl ⟨⟨_, rfl⟩, rfl⟩
          · exact .inr ⟨_, congrArg (Option.map _) (storedPapers_of_same hrt hpapers), hpapers⟩
      | reporting =>
          rcases h with rfl | ⟨report, hreport⟩
          · exact .inl ⟨⟨_, rfl⟩, rfl⟩
          · exact .inr ⟨_, congrArg (Option.map _) (storedReport_of_same hrt hreport), hreport⟩
  | approvalTrail =>
      rcases h with ⟨trail, htrail⟩
      have hentry : ∀ e ∈ trail, ∀ w, Same w (.obj (e.mapValues .str)) →
          ∃ e', readMembers readStr w = some e' ∧
            Same (.obj (e'.mapValues .str)) (.obj (e.mapValues .str)) := by
        intro e _ w hw
        rcases Same.exists_obj hw with ⟨members, rfl, hmembers⟩
        rcases exists_readMembers_str hmembers with ⟨e', he', hwritten⟩
        exact ⟨e', he', hwritten ▸ hmembers⟩
      rcases exists_readList hentry htrail with ⟨trail', hread, hsame⟩
      exact .inr ⟨_, congrArg (Option.map _) hread, htrail.trans hsame.symm⟩
  | reviewDecisions =>
      rcases h with ⟨ds, hds, hdumped⟩
      rcases exists_readList (fun d hd w hw => ReviewDecision.exists_ofJson (hds d hd) hw)
        hdumped with ⟨ds', hread, hsame⟩
      exact .inr ⟨_, congrArg (Option.map _) hread, hdumped.trans hsame.symm⟩

/-- A value that validates to nothing is not the empty one. -/
theorem StoredField.restorable_iff (hrt : LowersAscii rt) {k : StoredField} {v : Json} :
    Same v ((k.redumped rt co v).getD k.empty) ↔ k.Restorable v := by
  constructor
  · intro h
    cases hread : k.redumped rt co v with
    | some w =>
        rw [hread] at h
        exact restorable_of_redumped hread h
    | none =>
        rw [hread, Option.getD_none] at h
        cases k with
        | artifact p => cases p <;> exact .inl (same_null h)
        | approvalTrail => exact ⟨[], h⟩
        | reviewDecisions => exact ⟨[], by simp, h⟩
  · intro h
    rcases @redumped_of_restorable rt co hrt k v h with ⟨⟨p, rfl⟩, rfl⟩ | ⟨w, hw, hsame⟩
    · rw [redumped_null]
      exact .refl _
    · rw [hw]
      exact hsame

end

theorem snapshot_get? (s : AuditState) (k : StoredField) :
    (s.snapshot co).get? k.name = some (k.dumped s) := by
  rcases s with ⟨_, _, _, racm, papers, report, _, _, _, _, _, _, _, _, _⟩
  rcases k with (_ | _ | _) | _ | _
  · cases racm <;> rfl
  · cases papers <;> rfl
  · cases report <;> rfl
  · rfl
  · rfl

/-- The state of a loaded flow is the one read, but for its skill ids. -/
theorem dumped_of_load {sessions : Sessions} {id : Str} {snapshot : Dict Str Json}
    {loaded : LoadResult}
    (hstored : (sessions.get? id).bind (fun entry => entry.get? (lit "state_snapshot")) =
      some (.obj snapshot))
    (hload : FlowRepository.load rt co env sessions id = .ok (some loaded)) (k : StoredField) :
    k.dumped loaded.flow.state =
      ((snapshot.get? k.name).bind (k.redumped rt co)).getD k.empty := by
  unfold FlowRepository.load at hload
  rw [hstored] at hload
  dsimp only at hload
  split at hload
  · cases hload
  · obtain ⟨result, hresult, hsome⟩ := Except.map_eq_ok_iff.mp hload
    obtain rfl := Option.some.inj hsome
    unfold FlowRepository.loadSnapshot at hresult
    obtain ⟨initial, -, hresult⟩ := Except.bind_eq_ok_iff.mp hresult
    obtain rfl := Except.pure_eq_ok_iff.mp hresult
    rw [← @readSnapshot_dumped rt co snapshot initial]
    dsimp only
    rw [AuditFlow.exec_restoreSkillContext]
    split
    · rcases k with (_ | _ | _) | _ | _ <;> rfl
    · rfl

/-- A stored field of the record is kept by loading and saving exactly when it is what is dumped of
valid content, up to the order of keys. -/
theorem load_then_save_keeps_iff (hrt : LowersAscii rt) {sessions saved : Sessions} {id : Str}
    {snapshot : Dict Str Json} {loaded : LoadResult}
    (hstored : (sessions.get? id).bind (fun entry => entry.get? (lit "state_snapshot")) =
      some (.obj snapshot))
    (hload : FlowRepository.load rt co env sessions id = .ok (some loaded))
    (hsave : FlowRepository.save co sessions id loaded.flow = some saved)
    (k : StoredField) {v : Json} (hv : snapshot.get? k.name = some v) :
    k.KeptIn saved id v ↔ k.Restorable v := by
  have hdumped := dumped_of_load hstored hload k
  rw [hv, Option.bind_some] at hdumped
  rw [← @StoredField.restorable_iff rt co hrt, ← hdumped]
  obtain ⟨entry, -, rfl⟩ := Option.map_eq_some_iff.mp hsave
  have hentry : (entry.update (FlowRepository.sessionFields co loaded.flow.state)).get?
      (lit "state_snapshot") = some (.obj (loaded.flow.state.snapshot co)) :=
    Dict.get?_set_self _ _ _
  constructor
  · intro hkept
    obtain ⟨entry', stored, w, hget, hsnapshot, hw, hsame⟩ := hkept
    rw [Dict.get?_set_self] at hget
    obtain rfl := Option.some.inj hget
    rw [hentry] at hsnapshot
    obtain rfl := Json.obj.inj (Option.some.inj hsnapshot)
    rw [snapshot_get?] at hw
    rw [Option.some.inj hw]
    exact hsame
  · intro hsame
    exact ⟨_, _, _, Dict.get?_set_self _ _ _, hentry, snapshot_get? _ k, hsame⟩

namespace Sample

def storedSession (k : StoredField) (v : Json) : Sessions :=
  [(lit "s1", [(lit "state_snapshot", .obj
    [(lit "status", .str (lit "WAITING_FOR_SCOPE")), (k.name, v)])])]

/-- A matrix whose keys stand in another order than they are dumped in. -/
def storedMatrix : Json := .obj [(lit "risks", .arr []), (lit "theme", .str (lit "Access"))]

def numberedTrail : Json := .arr [.obj [(lit "gate", .int 1)]]

def loadedState (s : AuditState) (skipped : List Str) : LoadResult :=
  ⟨⟨s, ⟨.waitingForScope⟩, [], some (lit "s1"), []⟩, skipped⟩

end Sample

theorem load_then_save_keeps_matrix :
    ∃ loaded saved, FlowRepository.load Sample.rt Sample.coercions (Sample.smallEnv "u1")
        (Sample.storedSession (.artifact .planning) Sample.storedMatrix) (lit "s1") =
          .ok (some loaded) ∧
      FlowRepository.save Sample.coercions
        (Sample.storedSession (.artifact .planning) Sample.storedMatrix) (lit "s1") loaded.flow =
          some saved ∧
      (StoredField.artifact .planning).KeptIn saved (lit "s1") Sample.storedMatrix := by
  have hload : FlowRepository.load Sample.rt Sample.coercions (Sample.smallEnv "u1")
      (Sample.storedSession (.artifact .planning) Sample.storedMatrix) (lit "s1") =
        .ok (some (Sample.loadedState
          { AuditState.fresh [] [] [] with racmPlan := some ⟨lit "Access", []⟩ } [])) := by rfl
  refine ⟨_, _, hload, rfl, ?_⟩
  exact (load_then_save_keeps_iff (lowersAscii_ascii _) rfl hload rfl (.artifact .planning)
    rfl).mpr (.inr ⟨⟨lit "Access", []⟩, by rfl⟩)

/-- A trail that does not validate is loaded as no trail, and saved as none. -/
theorem load_then_save_empties_trail :
    ∃ loaded saved, FlowRepository.load Sample.rt Sample.coercions (Sample.smallEnv "u1")
        (Sample.storedSession .approvalTrail Sample.numberedTrail) (lit "s1") =
          .ok (some loaded) ∧
      FlowRepository.save Sample.coercions
        (Sample.storedSession .approvalTrail Sample.numberedTrail) (lit "s1") loaded.flow =
          some saved ∧
      ¬ StoredField.approvalTrail.KeptIn saved (lit "s1") Sample.numberedTrail := by
  refine ⟨Sample.loadedState (AuditState.fresh [] [] []) [lit "approval_trail"], _, rfl, rfl, ?_⟩
  intro hkept
  obtain ⟨entry, stored, w, hget, hsnapshot, hw, hsame⟩ := hkept
  rw [Dict.get?_set_self] at hget
  obtain rfl := Option.some.inj hget
  have hstored := Json.obj.inj (Option.some.inj hsnapshot)
  subst hstored
  have hempty := Option.some.inj hw
  rw [← hempty] at hsame
  cases same_nil hsame

end AuditSwarm
