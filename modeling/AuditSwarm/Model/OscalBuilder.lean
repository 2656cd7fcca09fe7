import AuditSwarm.Model.OscalDocument

/-!
# Builder of the assessment results

`build_assessment_results` of `oscal_ar.py`, one definition for each part of the document.
-/

namespace AuditSwarm

open Python
open StrEnum (value)
open Decisions (DecisionRef FindingView DeficiencyView EffectiveView FindingConclusions)

/-- What the builder takes from the standard library besides. -/
structure OscalLibrary extends LintLibrary where
  /-- `str(uuid.uuid5(_UUID_ROOT, name))` -/
  uuid5 : Str → Str
  /-- `str.upper` -/
  upper : Str → Str
  /-- `_digest` of the printed report, working papers and RACM and of the dumped decisions -/
  digest : FinalReportSchema → WorkingPaperSchema → Option RiskControlMatrixSchema → List Json → Str

/-- `EffectiveView.deficiency(deficiency_id)` -/
def Decisions.EffectiveView.deficiency (v : EffectiveView) (deficiencyId : Str) :
    Option DeficiencyView :=
  v.deficiencies.find? fun d => d.deficiencyId = deficiencyId

namespace Oscal

/-- The exceptions of the builder. -/
inductive OscalError where
  /-- A `ValueError` with its message -/
  | valueError (message : Str)
  | other (e : LintError)

/-- The arguments of `build_assessment_results`, and the clock it falls back on. -/
structure Inputs where
  sessionId : Str
  sessionName : Str
  sessionStatus : Str
  reportState : Str
  theme : Str
  report : FinalReportSchema
  papers : WorkingPaperSchema
  racm : Option RiskControlMatrixSchema
  trail : List Entry
  preparedBy : Str
  markup : Str → Str
  verifyQuote : Option (Str → Str → Except LintError Bool)
  evidenceLookup : Str → Except LintError (Option EvidenceMeta)
  view : Option EffectiveView
  decisions : List Json
  now : Timestamp

variable (rt : Runtime) (lib : OscalLibrary) (inp : Inputs)

/-! ## Identifiers -/

def elementUuid (parts : List Str) : Str := lib.uuid5 (join (lit "/") (inp.sessionId :: parts))

def Inputs.approved : Bool := inp.sessionStatus = lit "COMPLETED"

def planUuid : Str := elementUuid lib inp [lit "assessment-plan-reference"]
def componentUuid : Str := elementUuid lib inp [lit "component", lit "audit-scope"]
def platformUuid : Str := elementUuid lib inp [lit "assessment-platform"]
def evidenceUuid (vid : Str) : Str := elementUuid lib inp [lit "evidence", vid]
def observationUuid (key : Str) : Str := elementUuid lib inp [lit "observation", key]
def findingUuid (key : Str) : Str := elementUuid lib inp [lit "finding", key]
def riskUuid (key : Str) : Str := elementUuid lib inp [lit "risk", key]

def ofRiskUuid (kind : String) (key : Str) : Str :=
  elementUuid lib inp [lit kind, riskUuid lib inp key]

/-- `parties.uuid_for(name)`; `registerParty` records the name. -/
def partyUuid (name : Str) : Str := elementUuid lib inp [lit "party", oneLine name]

/-- `by_name` of `_Parties` after `uuid_for(name)`: the declared names, in order of appearance. -/
def registerParty (byName : List Str) (name : Str) : List Str :=
  if oneLine name ∈ byName then byName else byName ++ [oneLine name]

/-- `dict.fromkeys(xs)` -/
def fromKeys (xs : List Str) : List Str := Dict.firstBy id xs

def findingKeys : List Str := occurrenceKeys inp.papers.findings

def riskKeys : List Str := numberedFrom [] (inp.report.deficiencyEvaluations.map (·.deficiencyId))

/-! ## Times -/

def timeText (t : Option Timestamp) : Str := (t.map Timestamp.text).getD []

/-- `oscal_datetime` of a text. -/
def textTime (s : Str) : Except LintError (Option Timestamp) :=
  oscalDatetime rt lib.toLintLibrary (some (.str s))

/-- `oscal_datetime` of a value that may be missing. -/
def valueTime (s : Option Str) : Except LintError (Option Timestamp) :=
  oscalDatetime rt lib.toLintLibrary (s.map Json.str)

def trailTimes : Except LintError (List (Option Timestamp)) :=
  inp.trail.mapM fun e => oscalDatetime rt lib.toLintLibrary (e.get? (lit "timestamp"))

/-- `last_modified`: the latest time of the trail, else that of the report, else the clock. -/
def lastModified (knownTimes : List Timestamp) : Except LintError Timestamp :=
  match Timestamp.latest knownTimes with
  | some t => .ok t
  | none =>
      match inp.report.oscalSar with
      | none => .ok inp.now
      | some sar => do
          let t ← textTime rt lib sar.metadata.lastModified
          return t.getD inp.now

/-- `gate2_time`: the time of the latest approval of the working papers. -/
def gate2Time : Except LintError (Option Timestamp) :=
  match inp.trail.reverse.find? fun e =>
      Trail.fieldIs e (lit "action") (lit "gate_approval") &&
        Trail.fieldIs e (lit "artifact") (lit "working_papers") with
  | none => .ok none
  | some e => oscalDatetime rt lib.toLintLibrary (e.get? (lit "timestamp"))

/-! ## Reviewers -/

def decidedProps (ref : Option DecisionRef) (label : Str) : Except LintError (List Property) :=
  match ref with
  | none => .ok []
  | some d => do
      let decidedAt ← textTime rt lib d.decidedAt
      return props [(label ++ lit "decided-by", d.decidedBy),
        (label ++ lit "decided-at", timeText decidedAt),
        (label ++ lit "identity-source", d.identitySource),
        (label ++ lit "decision-id", d.decisionId)]

def reviewerOrigin (ref : Option DecisionRef) : List Origin :=
  ref.toList.map fun d =>
    ⟨[⟨lit "party", partyUuid lib inp d.decidedBy, some (lit "reviewer")⟩]⟩

def platformOrigin : Origin := ⟨[⟨lit "assessment-platform", platformUuid lib inp, none⟩]⟩

/-! ## Back matter and local definitions -/

/-- The vault ids the working papers cite, in order of appearance. -/
def evidenceIds : List Str :=
  fromKeys ((inp.papers.findings.map fun f => oneLine f.vaultIdReference).filter (· ≠ []))

def evidenceMeta : Except LintError (Dict Str (Option EvidenceMeta)) :=
  (evidenceIds inp).mapM fun vid => (inp.evidenceLookup vid).map fun found => (vid, found)

def evidenceResource (vid : Str) (found : Option EvidenceMeta) : Resource where
  uuid := evidenceUuid lib inp vid
  title := inp.markup (lit "Evidence vault record " ++ vid)
  description := inp.markup (match found with
    | some _ => lit ("Raw evidence collected by a read-only tool and stored in " ++
        "the project's evidence vault with an integrity digest. " ++
        "The payload is not embedded in this document.")
    | none => lit ("The working paper cites this vault ID, but no such " ++
        "record was found in the evidence vault at export time."))
  props := props [(lit "vault-id", vid),
    (lit "evidence-source", (found.map EvidenceMeta.source).getD []),
    (lit "collected", timeText (found.bind EvidenceMeta.collected)),
    (lit "vault-record-found", yesNo (some found.isSome))]
  rlinks := []

/-- `_line(text) or other` -/
def lineOr (text other : Str) : Str := if oneLine text = [] then other else oneLine text

def planResource : Resource where
  uuid := planUuid lib inp
  title := inp.markup (lit "Audit programme (RACM) — " ++ lineOr inp.theme (lit "audit"))
  description := inp.markup (lit ("No OSCAL assessment plan exists for this engagement. The Risk " ++
    "and Control Matrix approved at Gate 1 (Planning) served as " ++
    "the plan: the risks, the controls in scope and their test " ++
    "procedures. It is available as an .xlsx export, not as OSCAL."))
  props := []
  rlinks := [⟨lit "/api/sessions/" ++ inp.sessionId ++ lit "/export/racm.xlsx",
    lit "application/vnd.openxmlformats-officedocument.spreadsheetml.sheet"⟩]

def resources (found : Dict Str (Option EvidenceMeta)) : List Resource :=
  planResource lib inp :: found.map fun kv => evidenceResource lib inp kv.1 kv.2

/-- `evidence_times`: when the cited records were collected. -/
def evidenceTimes (found : Dict Str (Option EvidenceMeta)) : List Timestamp :=
  found.filterMap fun kv => kv.2.bind EvidenceMeta.collected

def localDefinitions : LocalDefinitions where
  components := [{
    uuid := componentUuid lib inp
    type := lit "this-system"
    title := inp.markup (lit "Audit scope: " ++ lineOr inp.theme (lit "not stated"))
    description := inp.markup (lit ("The environment in scope for this audit, as described by " ++
      "the audit theme. No system security plan was imported, so " ++
      "the component is described only by the audit scope."))
    state := lit "other"
    stateRemarks := lit "Operational status was not recorded by the audit." }]
  platforms := [{
    uuid := platformUuid lib inp
    title := inp.markup (lit "GRC Audit Swarm")
    props := props [(lit "platform-description",
      lit ("LLM agent crews draft the RACM, working papers and " ++
        "report; a human approves each phase at a gate"))] }]

/-- The controls of the RACM with the risk each stands under. -/
def racmControls (racm : Option RiskControlMatrixSchema) : List (Risk × Control) :=
  ((racm.map (·.risks)).getD []).flatMap fun r => r.controls.map fun c => (r, c)

def controlObjective (r : Risk) (c : Control) : ControlObjective :=
  let text := lineOr c.description (lit "RACM control " ++ oneLine c.controlId)
  { controlId := token c.controlId
    description := inp.markup text
    partId := token c.controlId
    partName := lit "assessment-objective"
    prose := inp.markup text
    props := props [(lit "racm-control-id", c.controlId), (lit "racm-risk-id", r.riskId),
      (lit "control-nature", (c.nature.map value).getD []),
      (lit "control-frequency", (c.frequency.map value).getD []),
      (lit "framework-mapping",
        join (lit "; ") (r.regulatoryMapping.filter fun m => oneLine m ≠ []))] }

/-- `objectives_and_methods`: the first entry of each control decides. -/
def objectivesAndMethods : List ControlObjective :=
  ((Dict.firstBy (fun rc => rc.2.controlId) (racmControls inp.racm)).filter
    fun rc => rc.2.controlId ≠ []).map fun rc => controlObjective inp rc.1 rc.2

/-! ## Reviewed controls -/

def nistFamilies : List Str :=
  ["AC", "AT", "AU", "CA", "CM", "CP", "IA", "IR", "MA", "MP", "PE", "PL", "PM", "PS", "PT", "RA",
    "SA", "SC", "SI", "SR"].map lit

/-- A text of a pattern under `re.IGNORECASE`. -/
def anyCase (s : String) : Regex := .text lib.sameLetter s

/-- `[A-Z]` under `re.IGNORECASE` -/
def anyLetter : Regex := .one fun c => (lit "ABCDEFGHIJKLMNOPQRSTUVWXYZ").any fun a => lib.sameLetter a c

/-- `_NIST_CONTROL_RE` on a text that ends in no line break, with its `slot`-th group. -/
def nistControl (slot : Nat) : Regex :=
  let part (i : Nat) (r : Regex) : Regex := if i = slot then .group r else r
  .concat [part 1 (.times 2 (anyLetter lib)), .exactly "-", part 2 (.plus (.one lib.digit)),
    .opt (.concat [.exactly "(", part 3 (.plus (.one lib.digit)), .exactly ")"]),
    .notBefore fun _ => true]

/-- The `slot`-th group of a match of `_NIST_CONTROL_RE`; no match gives `none`, an unused group
the empty text. -/
def nistGroup (slot : Nat) (text : Str) : Option Str :=
  ((nistControl lib slot).run lib.word ⟨none, text, none⟩).head?.map fun c => c.group.getD []

/-- The prefix of a control id that names the catalogue. -/
def nistPrefix : Regex :=
  let space := Regex.plus .space
  .anyOf [.concat [anyCase lib "NIST", space, .opt (.concat [anyCase lib "SP", space]),
      .exactly "800-53", .opt (.concat [space, anyCase lib "r", .opt (anyCase lib "ev"),
        .plus (.one lib.digit)]), space],
    .concat [anyCase lib "NIST", .oneOf "._-"]]

/-- `norm_c` -/
def withoutNistPrefix (controlId : Str) : Str :=
  match ((nistPrefix lib).run lib.word ⟨none, strip controlId, none⟩).head? with
  | some c => c.rest
  | none => strip controlId

def citesNist (racm : Option RiskControlMatrixSchema) : Bool :=
  let names := lit "800-53"
  (((racm.map (·.risks)).getD []).any fun r =>
      r.regulatoryMapping.any fun m => names <:+: rt.lower m) ||
    (racm.any fun m => names <:+: rt.lower m.theme)

/-- The catalogue entry of a control, if its id names one. -/
def catalogLinks (cites : Bool) (controlId : Str) : List Link :=
  let explicit := Regex.occursIn lib.word
    (.anyOf [.exactly "800-53", anyCase lib "nist"]) controlId
  let text := withoutNistPrefix lib controlId
  match nistGroup lib 1 text, nistGroup lib 2 text, nistGroup lib 3 text with
  | some letters, some number, some enhancement =>
      let family := lib.upper letters
      if family ∈ nistFamilies ∧ (cites || explicit) then
        let canonical := family ++ lit "-" ++ number ++
          (if enhancement = [] then [] else lit "(" ++ enhancement ++ lit ")")
        [⟨lit ("https://csrc.nist.gov/Projects/risk-management/sp800-53-controls/" ++
            "release-search#!/control?version=5.1&number=") ++ lib.upper canonical,
          lit "related"⟩]
      else []
  | _, _, _ => []

def controlIds : List Str :=
  (racmControls inp.racm).map (·.2.controlId) ++ inp.papers.findings.map (·.controlId)

def reviewedControls : Except OscalError ReviewedControls := do
  let selected := (fromKeys (controlIds inp)).map fun c =>
    SelectedControl.mk (token c) (catalogLinks lib (citesNist rt inp.racm) c)
  Except.ensure (selected.isEmpty = false)
    (.valueError (lit "no controls to report: the RACM and working papers are empty"))
  return {
    description := inp.markup (lit ("Controls in the engagement's Risk and Control Matrix (RACM). " ++
      "Where control IDs match verified NIST 800-53 families and the engagement cites " ++
      "NIST SP 800-53, standard framework catalog links are attached for interoperability."))
    includeControls := selected }

end Oscal

end AuditSwarm
