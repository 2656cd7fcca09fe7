import AuditSwarm.Lib.Groups
import AuditSwarm.Oscal.Built

/-!
# The elements of a built document

Every UUID of a document is derived from the kind of the element it belongs to and, where there
can be more than one of the kind, a name.  The elements are listed here for all inputs, each once;
a document declares some of them, in the order of the list.
-/

namespace AuditSwarm

open Python

namespace Oscal

/-- What an element of the document is. -/
inductive Kind where
  | document | party | result | component | platform | conclusion | logEntry | observation
  | risk | managementResponse | remediationVerification | recommendation | actionPlan
  | finding | plan | evidence
  deriving DecidableEq

namespace Kind

def value : Kind → Str
  | document => lit "assessment-results"
  | party => lit "party"
  | result => lit "result"
  | component => lit "component"
  | platform => lit "assessment-platform"
  | conclusion => lit "engagement-conclusion"
  | logEntry => lit "log"
  | observation => lit "observation"
  | risk => lit "risk"
  | managementResponse => lit "management-response"
  | remediationVerification => lit "remediation-verification"
  | recommendation => lit "recommendation"
  | actionPlan => lit "action-plan"
  | finding => lit "finding"
  | plan => lit "assessment-plan-reference"
  | evidence => lit "evidence"

instance : StrEnum Kind where
  value := value
  members := [document, party, result, component, platform, conclusion, logEntry, observation,
    risk, managementResponse, remediationVerification, recommendation, actionPlan, finding, plan,
    evidence]
  mem_members k := by cases k <;> decide
  nodup := by decide

theorem slash_not_mem_value (k : Kind) : (47 : CodePoint) ∉ k.value := by
  cases k <;> decide

def block : Kind → Kind
  | managementResponse | remediationVerification | recommendation | actionPlan => risk
  | k => k

end Kind

/-- An element: its kind, and its name if there can be more than one of the kind. -/
structure Element where
  kind : Kind
  name : Option Str

namespace Element

variable (lib : OscalLibrary) (inp : Inputs)

def uuid (e : Element) : Str := elementUuid lib inp (e.kind.value :: e.name.toList)

/-! ## An element is known by its uuid -/

theorem takeWhile_seed (k : Kind) (name : Option Str) :
    (join (lit "/") (k.value :: name.toList)).takeWhile (fun c => c ≠ 47) = k.value := by
  have hkept : ∀ c ∈ k.value, (decide (c ≠ 47)) = true := by
    intro c hc
    apply decide_eq_true
    intro h
    rw [h] at hc
    exact k.slash_not_mem_value hc
  cases name with
  | none =>
      show (k.value ++ []).takeWhile _ = k.value
      rw [List.append_nil, List.takeWhile_eq_self_iff.mpr hkept]
  | some s =>
      show (k.value ++ ([47] ++ (s ++ []))).takeWhile _ = k.value
      rw [List.takeWhile_append_of_pos hkept]
      show k.value ++ [] = k.value
      rw [List.append_nil]

theorem seed_inj {k k' : Kind} {name name' : Option Str}
    (h : join (lit "/") (k.value :: name.toList) = join (lit "/") (k'.value :: name'.toList)) :
    k = k' ∧ name = name' := by
  have hkind : k.value = k'.value := by
    rw [← takeWhile_seed k name, h, takeWhile_seed k' name']
  have hk : k = k' := StrEnum.value_injective hkind
  rw [hk] at h
  refine ⟨hk, ?_⟩
  cases name with
  | none =>
      cases name' with
      | none => rfl
      | some s' =>
          have hlength : (k'.value ++ []).length = (k'.value ++ ([47] ++ (s' ++ []))).length :=
            congrArg List.length h
          simp only [List.length_append, List.length_cons, List.length_nil] at hlength
          omega
  | some s =>
      cases name' with
      | none =>
          have hlength : (k'.value ++ ([47] ++ (s ++ []))).length = (k'.value ++ []).length :=
            congrArg List.length h
          simp only [List.length_append, List.length_cons, List.length_nil] at hlength
          omega
      | some s' =>
          have htail : k'.value ++ ([47] ++ (s ++ [])) = k'.value ++ ([47] ++ (s' ++ [])) := h
          rw [List.append_nil, List.append_nil] at htail
          rw [List.append_cancel_left (List.append_cancel_left htail)]

variable {lib} {inp}

theorem uuid_injective (hinj : Function.Injective lib.uuid5) :
    Function.Injective (uuid lib inp) := by
  intro e e' h
  have hseed := hinj h
  have hjoin : ∀ parts : List Str, parts ≠ [] →
      join (lit "/") (inp.sessionId :: parts) = inp.sessionId ++ (lit "/" ++ join (lit "/") parts) := by
    intro parts hparts
    cases parts with
    | nil => exact absurd rfl hparts
    | cons p ps =>
        unfold join List.intercalate
        rw [List.intersperse_cons_cons, List.flatten_cons, List.flatten_cons]
  rw [hjoin _ (List.cons_ne_nil _ _), hjoin _ (List.cons_ne_nil _ _)] at hseed
  rcases seed_inj (List.append_cancel_left (List.append_cancel_left hseed)) with ⟨hk, hname⟩
  cases e
  cases e'
  dsimp only at hk hname
  rw [hk, hname]

end Element

/-! ## The list of the elements -/

variable (rt : Runtime) (lib : OscalLibrary) (inp : Inputs)

def riskElements (key : Str) : List Element :=
  [⟨.risk, some key⟩, ⟨.managementResponse, some (riskUuid lib inp key)⟩,
    ⟨.remediationVerification, some (riskUuid lib inp key)⟩,
    ⟨.recommendation, some (riskUuid lib inp key)⟩, ⟨.actionPlan, some (riskUuid lib inp key)⟩]

def named (k : Kind) (names : List Str) : List Element := names.map fun n => ⟨k, some n⟩

def elementBlocks : List (Kind × List Element) :=
  [(.document, [⟨.document, none⟩]),
    (.party, named .party (partyNames rt inp)),
    (.result, [⟨.result, none⟩]),
    (.component, [⟨.component, some (lit "audit-scope")⟩]),
    (.platform, [⟨.platform, none⟩]),
    (.conclusion, [⟨.conclusion, none⟩]),
    (.logEntry, named .logEntry ((List.range inp.trail.length).map decimal)),
    (.observation, named .observation (findingKeys inp)),
    (.risk, (riskKeys inp).flatMap (riskElements lib inp)),
    (.finding, named .finding (findingKeys inp)),
    (.plan, [⟨.plan, none⟩]),
    (.evidence, named .evidence (evidenceIds inp))]

def elements : List Element := (elementBlocks rt lib inp).flatMap Prod.snd

variable {rt} {lib} {inp}

/-! ### Each once -/

theorem nodup_named {k : Kind} {names : List Str} (h : names.Nodup) : (named k names).Nodup := by
  apply List.Nodup.map _ h
  intro n n' hn
  exact Option.some.inj (congrArg Element.name hn)

theorem nodup_registerParty {byName : List Str} (h : byName.Nodup) (name : Str) :
    (registerParty byName name).Nodup := by
  unfold registerParty
  by_cases hname : oneLine name ∈ byName
  · rw [if_pos hname]
    exact h
  · rw [if_neg hname]
    exact List.nodup_append.mpr ⟨h, List.nodup_singleton _, fun a ha b hb hab =>
      hname (List.mem_singleton.mp hb ▸ hab ▸ ha)⟩

theorem nodup_partyNames : (partyNames rt inp).Nodup := by
  unfold partyNames
  generalize partyCalls rt inp = calls
  have hgen : ∀ byName : List Str, byName.Nodup → (calls.foldl registerParty byName).Nodup := by
    induction calls with
    | nil => exact fun _ h => h
    | cons name calls ih => exact fun byName h => ih _ (nodup_registerParty h name)
  exact hgen [] List.nodup_nil

theorem nodup_evidenceIds : (evidenceIds inp).Nodup := by
  have h : ((evidenceIds inp).map id).Nodup := Dict.nodup_firstBy _
  rwa [List.map_id] at h

theorem riskUuid_injective (hinj : Function.Injective lib.uuid5) :
    Function.Injective (riskUuid lib inp) := by
  intro key key' h
  have helement : (⟨.risk, some key⟩ : Element) = ⟨.risk, some key'⟩ :=
    Element.uuid_injective hinj h
  exact Option.some.inj (congrArg Element.name helement)

theorem nodup_risks (hinj : Function.Injective lib.uuid5) {keys : List Str} (h : keys.Nodup) :
    (keys.flatMap (riskElements lib inp)).Nodup := by
  apply List.nodup_flatMap.mpr
  constructor
  · intro key _
    apply List.Nodup.of_map Element.kind
    show [Kind.risk, .managementResponse, .remediationVerification, .recommendation,
      .actionPlan].Nodup
    decide
  · apply h.imp
    intro key key' hne e he he'
    have hriskNe : riskUuid lib inp key ≠ riskUuid lib inp key' :=
      fun heq => hne (riskUuid_injective hinj heq)
    have hname : ∀ {k : Str}, e ∈ riskElements lib inp k →
        e.name = some k ∧ e.kind = .risk ∨ e.name = some (riskUuid lib inp k) ∧ e.kind ≠ .risk := by
      intro k hk
      simp only [riskElements, List.mem_cons, List.not_mem_nil, or_false] at hk
      rcases hk with rfl | rfl | rfl | rfl | rfl
      · exact .inl ⟨rfl, rfl⟩
      · exact .inr ⟨rfl, by intro h; cases h⟩
      · exact .inr ⟨rfl, by intro h; cases h⟩
      · exact .inr ⟨rfl, by intro h; cases h⟩
      · exact .inr ⟨rfl, by intro h; cases h⟩
    rcases hname he with ⟨hn, hk⟩ | ⟨hn, hk⟩ <;> rcases hname he' with ⟨hn', hk'⟩ | ⟨hn', hk'⟩
    · exact hne (Option.some.inj (hn.symm.trans hn'))
    · exact hk' hk
    · exact hk hk'
    · exact hriskNe (Option.some.inj (hn.symm.trans hn'))

theorem block_singleton {k : Kind} {e' : Element} (h : e'.kind.block = k) :
    ∀ e ∈ [e'], e.kind.block = k := by
  intro e he
  rw [List.mem_singleton.mp he, h]

theorem block_named {k : Kind} {names : List Str} (h : k.block = k) :
    ∀ e ∈ named k names, e.kind.block = k := by
  intro e he
  rcases List.mem_map.mp he with ⟨n, -, rfl⟩
  exact h

theorem block_risks : ∀ e ∈ (riskKeys inp).flatMap (riskElements lib inp), e.kind.block = .risk := by
  intro e he
  rcases List.mem_flatMap.mp he with ⟨key, -, hkey⟩
  simp only [riskElements, List.mem_cons, List.not_mem_nil, or_false] at hkey
  rcases hkey with rfl | rfl | rfl | rfl | rfl
  · rfl
  · rfl
  · rfl
  · rfl
  · rfl

theorem nodup_elements (hinj : Function.Injective lib.uuid5) : (elements rt lib inp).Nodup := by
  have hkeys : (riskKeys inp).Nodup := nodup_numberedFrom _ _
  have hfindings : (findingKeys inp).Nodup := nodup_occurrenceKeys _
  have hlog : ((List.range inp.trail.length).map decimal).Nodup :=
    List.nodup_range.map fun _ _ h => decimal_injective h
  have hone : ∀ e : Element, [e].Nodup := fun e => List.nodup_singleton e
  apply Groups.nodup_of_labels fun e : Element => e.kind.block
  · show [Kind.document, .party, .result, .component, .platform, .conclusion, .logEntry,
      .observation, .risk, .finding, .plan, .evidence].Nodup
    decide
  · intro b hb
    simp only [elementBlocks, List.mem_cons, List.not_mem_nil, or_false] at hb
    rcases hb with rfl | rfl | rfl | rfl | rfl | rfl | rfl | rfl | rfl | rfl | rfl | rfl
    · exact hone _
    · exact nodup_named nodup_partyNames
    · exact hone _
    · exact hone _
    · exact hone _
    · exact hone _
    · exact nodup_named hlog
    · exact nodup_named hfindings
    · exact nodup_risks hinj hkeys
    · exact nodup_named hfindings
    · exact hone _
    · exact nodup_named nodup_evidenceIds
  · intro b hb
    simp only [elementBlocks, List.mem_cons, List.not_mem_nil, or_false] at hb
    rcases hb with rfl | rfl | rfl | rfl | rfl | rfl | rfl | rfl | rfl | rfl | rfl | rfl
    · exact block_singleton rfl
    · exact block_named rfl
    · exact block_singleton rfl
    · exact block_singleton rfl
    · exact block_singleton rfl
    · exact block_singleton rfl
    · exact block_named rfl
    · exact block_named rfl
    · exact block_risks
    · exact block_named rfl
    · exact block_singleton rfl
    · exact block_named rfl

/-! ## What a document declares -/

theorem uuid_party (names : List Str) :
    (named .party names).map (Element.uuid lib inp) =
      names.map fun n => elementUuid lib inp [lit "party", n] := by
  unfold named
  rw [List.map_map]
  rfl

theorem logEntriesFrom_uuids (modified : Timestamp) (i : Nat)
    (ets : List (Entry × Option Timestamp)) :
    (logEntriesFrom rt lib inp modified i ets).map (·.uuid) =
      (List.range' i ets.length).map fun j => elementUuid lib inp [lit "log", decimal j] := by
  induction ets generalizing i with
  | nil => rfl
  | cons et rest ih =>
      rw [logEntriesFrom, List.map_cons, ih, List.length_cons, List.range'_succ, List.map_cons]
      rfl

theorem log_sublist (modified : Timestamp) (times : List (Option Timestamp)) :
    ((logEntriesFrom rt lib inp modified 0 (inp.trail.zip times)).map (·.uuid)).Sublist
      ((named .logEntry ((List.range inp.trail.length).map decimal)).map
        (Element.uuid lib inp)) := by
  have hlength : (inp.trail.zip times).length ≤ inp.trail.length := by
    rw [List.length_zip]
    exact Nat.min_le_left _ _
  rw [logEntriesFrom_uuids, ← List.range_eq_range']
  unfold named
  rw [List.map_map, List.map_map]
  exact (List.range_sublist.mpr hlength).map _

theorem snd_keyedFindings : (keyedFindings inp).map Prod.snd = findingKeys inp := by
  apply List.map_snd_zip
  unfold findingKeys occurrenceKeys
  rw [length_occurrenceKeysFrom]

theorem observation_uuid {times : Times} {found : Dict Str (Option EvidenceMeta)}
    {f : AuditFindingSchema} {key : Str} {o : Observation}
    (h : observation rt lib inp times found f key = .ok o) : o.uuid = observationUuid lib inp key := by
  unfold observation at h
  rcases Except.bind_eq_ok_iff.mp h with ⟨review, -, h⟩
  rcases Except.bind_eq_ok_iff.mp h with ⟨ofFinding, -, h⟩
  rcases Except.bind_eq_ok_iff.mp h with ⟨evidence, -, h⟩
  rw [← Except.ok.inj h]

theorem observations_uuids {p : Parts} (h : PartsRead rt lib inp p) :
    p.observations.map (·.uuid) =
      (named .observation (findingKeys inp)).map (Element.uuid lib inp) := by
  have hmade := h.observationsMade
  rw [← snd_keyedFindings]
  generalize keyedFindings inp = fks, p.observations = os at hmade ⊢
  induction hmade with
  | nil => rfl
  | cons hfk _ ih =>
      rw [List.map_cons, observation_uuid hfk, ih]
      rfl

theorem findingOf_some {f : AuditFindingSchema} {key : Str} {g : Finding}
    (h : findingOf rt lib inp f key = .ok (some g)) :
    ∃ a review, assessedFinding inp.view f key = some a ∧ g = documentFinding lib inp f a review := by
  unfold findingOf at h
  cases ha : assessedFinding inp.view f key with
  | none =>
      rw [ha] at h
      cases h
  | some a =>
      rw [ha] at h
      rcases Except.map_eq_ok_iff.mp h with ⟨review, -, hg⟩
      exact ⟨a, review, rfl, (Option.some.inj hg).symm⟩

theorem assessedFinding_key {view : Option Decisions.EffectiveView} {f : AuditFindingSchema}
    {key : Str} {a : AssessedFinding} (h : assessedFinding view f key = some a) : a.key = key := by
  unfold assessedFinding at h
  dsimp only at h
  split at h
  · cases h
  · rw [← Option.some.inj h]

theorem findingOf_uuid {f : AuditFindingSchema} {key : Str} {g : Finding}
    (h : findingOf rt lib inp f key = .ok (some g)) : g.uuid = findingUuid lib inp key := by
  rcases findingOf_some h with ⟨a, review, ha, rfl⟩
  rw [← assessedFinding_key ha]
  rfl

theorem findings_sublist {p : Parts} (h : PartsRead rt lib inp p) :
    (p.findings.map (·.uuid)).Sublist
      ((named .finding (findingKeys inp)).map (Element.uuid lib inp)) := by
  rcases h.findingsMade with ⟨found, hmade, hp⟩
  rw [hp, ← snd_keyedFindings]
  clear hp h
  generalize keyedFindings inp = fks at hmade ⊢
  induction hmade with
  | nil => exact List.Sublist.refl _
  | @cons fk o fks os hfk _ ih =>
      cases o with
      | none =>
          rw [List.reduceOption_cons_of_none]
          exact ih.cons _
      | some g =>
          have huuid : g.uuid = Element.uuid lib inp ⟨.finding, some fk.2⟩ := findingOf_uuid hfk
          rw [List.reduceOption_cons_of_some, List.map_cons, huuid]
          exact ih.cons_cons _

theorem evidence_keys {found : Dict Str (Option EvidenceMeta)} (h : evidenceMeta inp = .ok found) :
    found.map Prod.fst = evidenceIds inp := by
  have hmade := Except.mapM_eq_ok_iff.mp h
  clear h
  generalize evidenceIds inp = vids at hmade ⊢
  induction hmade with
  | nil => rfl
  | cons hvid _ ih =>
      rcases Except.map_eq_ok_iff.mp hvid with ⟨m, -, hm⟩
      rw [List.map_cons, ih, ← hm]

theorem resources_uuids {p : Parts} (h : PartsRead rt lib inp p) :
    (resources lib inp p.evidence).map (·.uuid) =
      Element.uuid lib inp ⟨.plan, none⟩ ::
        (named .evidence (evidenceIds inp)).map (Element.uuid lib inp) := by
  have hkeys := evidence_keys h.evidence
  unfold resources named
  rw [List.map_cons, List.map_map, List.map_map, ← hkeys, List.map_map]
  rfl

theorem responseLog_sublist {modified : Timestamp} {key : Str}
    {ref : Option Decisions.DecisionRef} {log : List RiskLogEntry}
    (h : responseLog rt lib inp modified key ref = .ok log) :
    (log.map (·.uuid)).Sublist [ofRiskUuid lib inp "management-response" key] := by
  unfold responseLog at h
  cases ref with
  | none =>
      rw [← Except.ok.inj h]
      exact List.nil_sublist _
  | some r =>
      rcases Except.bind_eq_ok_iff.mp h with ⟨ofResponse, -, h⟩
      rcases Except.bind_eq_ok_iff.mp h with ⟨received, -, h⟩
      rcases Except.bind_eq_ok_iff.mp h with ⟨decided, -, h⟩
      rw [← Except.ok.inj h]
      exact List.Sublist.refl _

theorem verificationLog_sublist {modified : Timestamp} {key : Str}
    {ref : Option Decisions.DecisionRef} {log : List RiskLogEntry}
    (h : verificationLog rt lib inp modified key ref = .ok log) :
    (log.map (·.uuid)).Sublist [ofRiskUuid lib inp "remediation-verification" key] := by
  unfold verificationLog at h
  cases ref with
  | none =>
      rw [← Except.ok.inj h]
      exact List.nil_sublist _
  | some r =>
      rcases Except.bind_eq_ok_iff.mp h with ⟨byReviewer, -, h⟩
      rcases Except.bind_eq_ok_iff.mp h with ⟨verified, -, h⟩
      rcases Except.bind_eq_ok_iff.mp h with ⟨decided, -, h⟩
      rw [← Except.ok.inj h]
      exact List.Sublist.refl _

/-- The recommendation of a write-up, if there is one, is that of its reviewer. -/
theorem recommendation_cases {key : Str} {writeup : Option Decisions.DecisionRef}
    {made : List Remediation} (h : recommendation rt lib inp key writeup = .ok made) :
    made = [] ∨ ∃ w m, writeup = some w ∧ valueLine w.values "recommendation" ≠ [] ∧
      made = [m] ∧ m.uuid = ofRiskUuid lib inp "recommendation" key ∧
      m.origins = reviewerOrigin lib inp (some w) := by
  unfold recommendation at h
  cases writeup with
  | none => exact .inl (Except.ok.inj h).symm
  | some w =>
      dsimp only at h
      by_cases hline : valueLine w.values "recommendation" = []
      · rw [if_pos hline] at h
        exact .inl (Except.ok.inj h).symm
      · rw [if_neg hline] at h
        rcases Except.bind_eq_ok_iff.mp h with ⟨decided, -, h⟩
        exact .inr ⟨w, _, rfl, hline, (Except.ok.inj h).symm, rfl, rfl⟩

theorem actionPlan_cases {key : Str} {response : Option Decisions.DecisionRef}
    {made : List Remediation} (h : actionPlan rt lib inp key response = .ok made) :
    made = [] ∨ ∃ m, made = [m] ∧ m.uuid = ofRiskUuid lib inp "action-plan" key ∧
      m.origins = [] := by
  unfold actionPlan at h
  cases response with
  | none => exact .inl (Except.ok.inj h).symm
  | some r =>
      rcases Except.bind_eq_ok_iff.mp h with ⟨ofResponse, -, h⟩
      have hmade := (Except.ok.inj h).symm
      split at hmade
      · exact .inr ⟨_, hmade, rfl, rfl⟩
      · exact .inl hmade

theorem risk_sublist {modified : Timestamp} {e : DeficiencyEvaluationSchema} {key : Str}
    {r : DocumentRisk} (h : documentRisk rt lib inp modified e key = .ok r) :
    r.uuids.Sublist ((riskElements lib inp key).map (Element.uuid lib inp)) := by
  have hmade := documentRisk_made h
  rcases hmade.riskLog with ⟨responded, verified, hresponded, hverified, hlog⟩
  rcases hmade.remediations with ⟨recommended, planned, hrecommended, hplanned, hremediations⟩
  have hrecommendation : (recommended.map (·.uuid)).Sublist
      [ofRiskUuid lib inp "recommendation" key] := by
    rcases recommendation_cases hrecommended with rfl | ⟨w, m, -, -, rfl, huuid, -⟩
    · exact List.nil_sublist _
    · rw [List.map_singleton, huuid]
  have hplan : (planned.map (·.uuid)).Sublist [ofRiskUuid lib inp "action-plan" key] := by
    rcases actionPlan_cases hplanned with rfl | ⟨m, rfl, huuid, -⟩
    · exact List.nil_sublist _
    · rw [List.map_singleton, huuid]
  unfold DocumentRisk.uuids
  rw [hlog, hremediations, hmade.uuid, List.map_append, List.map_append]
  have hall := (((responseLog_sublist hresponded).append (verificationLog_sublist hverified)).append
    (hrecommendation.append hplan)).cons_cons (riskUuid lib inp key)
  exact hall

theorem risks_sublist {p : Parts} (h : PartsRead rt lib inp p) :
    (p.risks.flatMap DocumentRisk.uuids).Sublist
      (((riskKeys inp).flatMap (riskElements lib inp)).map (Element.uuid lib inp)) := by
  have hmade := h.risksMade
  have hkeys : (inp.report.deficiencyEvaluations.zip (riskKeys inp)).map Prod.snd =
      riskKeys inp := List.map_snd_zip (Nat.le_of_eq length_riskKeys)
  rw [← hkeys]
  generalize inp.report.deficiencyEvaluations.zip (riskKeys inp) = eks, p.risks = rs at hmade ⊢
  induction hmade with
  | nil => exact List.Sublist.refl _
  | cons hek _ ih =>
      rw [List.flatMap_cons, List.map_cons, List.flatMap_cons, List.map_append]
      exact (risk_sublist hek).append ih

theorem attestations_cases {made : List Attestation} (h : attestations rt lib inp = .ok made) :
    made = [] ∨ ∃ c a part, conclusionOf inp = some c ∧ made = [a] ∧ a.parts = [part] ∧
      part.uuid = elementUuid lib inp [lit "engagement-conclusion"] ∧
      a.responsibleParties = [⟨lit "reviewer", [partyUuid lib inp c.decidedBy]⟩] := by
  unfold attestations at h
  cases hc : conclusionOf inp with
  | none =>
      rw [hc] at h
      exact .inl (Except.ok.inj h).symm
  | some c =>
      rw [hc] at h
      rcases Except.bind_eq_ok_iff.mp h with ⟨decided, -, h⟩
      exact .inr ⟨c, _, _, rfl, (Except.ok.inj h).symm, rfl, rfl, rfl⟩

theorem attestations_sublist {p : Parts} (h : PartsRead rt lib inp p) :
    (p.attestations.flatMap (·.parts.map (·.uuid))).Sublist
      [Element.uuid lib inp ⟨.conclusion, none⟩] := by
  rcases attestations_cases h.attestations with hp | ⟨c, a, part, -, hp, hparts, huuid, -⟩
  · rw [hp]
    exact List.nil_sublist _
  · rw [hp, List.flatMap_singleton, hparts, List.map_singleton, huuid]
    exact List.Sublist.refl _

/-- A document declares elements of the list, in the order of the list. -/
theorem uuids_sublist {p : Parts} (h : PartsRead rt lib inp p) (controls : ReviewedControls) :
    (documentOf rt lib inp p controls).uuids.Sublist
      ((elements rt lib inp).map (Element.uuid lib inp)) := by
  have hparties : (parties rt lib inp).map (·.uuid) =
      (named .party (partyNames rt inp)).map (Element.uuid lib inp) := by
    unfold parties
    rw [uuid_party, List.map_map]
    rfl
  have hdeclared : (documentOf rt lib inp p controls).uuids =
      [[Element.uuid lib inp ⟨.document, none⟩], (parties rt lib inp).map (·.uuid),
        [Element.uuid lib inp ⟨.result, none⟩],
        [Element.uuid lib inp ⟨.component, some (lit "audit-scope")⟩],
        [Element.uuid lib inp ⟨.platform, none⟩],
        p.attestations.flatMap (·.parts.map (·.uuid)),
        (logEntriesFrom rt lib inp p.times.lastModified 0 (inp.trail.zip p.trailTimes)).map (·.uuid),
        p.observations.map (·.uuid), p.risks.flatMap DocumentRisk.uuids,
        p.findings.map (·.uuid), (resources lib inp p.evidence).map (·.uuid)].flatten := by
    unfold Document.uuids documentOf
    simp only [List.flatMap_singleton, List.flatten_cons, List.flatten_nil, List.append_nil,
      AssessmentResult.uuids, assessmentResult, localDefinitions, List.map_singleton,
      List.append_assoc, List.cons_append]
    rfl
  have hlisted : (elements rt lib inp).map (Element.uuid lib inp) =
      [[Element.uuid lib inp ⟨.document, none⟩],
        (named .party (partyNames rt inp)).map (Element.uuid lib inp),
        [Element.uuid lib inp ⟨.result, none⟩],
        [Element.uuid lib inp ⟨.component, some (lit "audit-scope")⟩],
        [Element.uuid lib inp ⟨.platform, none⟩],
        [Element.uuid lib inp ⟨.conclusion, none⟩],
        (named .logEntry ((List.range inp.trail.length).map decimal)).map (Element.uuid lib inp),
        (named .observation (findingKeys inp)).map (Element.uuid lib inp),
        ((riskKeys inp).flatMap (riskElements lib inp)).map (Element.uuid lib inp),
        (named .finding (findingKeys inp)).map (Element.uuid lib inp),
        Element.uuid lib inp ⟨.plan, none⟩ ::
          (named .evidence (evidenceIds inp)).map (Element.uuid lib inp)].flatten := by
    unfold elements elementBlocks
    simp only [List.flatMap_cons, List.flatMap_nil, List.map_append, List.map_cons,
      List.flatten_cons, List.flatten_nil, List.cons_append, List.nil_append, List.append_nil]
  rw [hdeclared, hlisted]
  apply Groups.sublist_flatten
  refine .cons (List.Sublist.refl _) <| .cons ?_ <| .cons (List.Sublist.refl _) <|
    .cons (List.Sublist.refl _) <| .cons (List.Sublist.refl _) <| .cons (attestations_sublist h) <|
    .cons (log_sublist _ _) <| .cons ?_ <| .cons (risks_sublist h) <|
    .cons (findings_sublist h) <| .cons ?_ .nil
  · rw [hparties]
  · rw [observations_uuids h]
  · rw [resources_uuids h]

end Oscal

end AuditSwarm
