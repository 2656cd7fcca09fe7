import AuditSwarm.Model.Assessment
import AuditSwarm.Model.Linter

/-!
# OSCAL assessment results

The document `build_assessment_results` of `oscal_ar.py` returns, the small value helpers it is
built with, and the UUIDs a document declares and refers to.
-/

namespace AuditSwarm

open Python StrEnum

namespace Oscal

/-! ## Values -/

def oneLine (s : Str) : Str := join (lit " ") (words s)

/-- A prop in the namespace of the project. -/
structure Property where
  name : Str
  value : Str
  deriving DecidableEq

def prop (name value : Str) : Property := ⟨name, oneLine value⟩

/-- `_props`: the pairs whose value is not empty. -/
def props (pairs : List (Str × Str)) : List Property :=
  (pairs.filter fun p => oneLine p.2 ≠ []).map fun p => prop p.1 p.2

/-- An ASCII letter, digit, `.`, `_` or `-`. -/
def isTokenChar (c : CodePoint) : Bool :=
  (65 ≤ c.val && c.val ≤ 90) || (97 ≤ c.val && c.val ≤ 122) || (48 ≤ c.val && c.val ≤ 57) ||
    c.val = 46 || c.val = 95 || c.val = 45

/-- A token may start with it.  The other characters of a token are ASCII, of which `str.isalpha`
accepts the letters. -/
def startsToken (c : CodePoint) : Bool :=
  (65 ≤ c.val && c.val ≤ 90) || (97 ≤ c.val && c.val ≤ 122) || c.val = 95

/-- `token`: an identifier as an XML name. -/
def token (value : Str) : Str :=
  match (oneLine value).map fun c => if isTokenChar c then c else 95 with
  | [] => lit "_"
  | c :: rest => if startsToken c then c :: rest else 95 :: c :: rest

/-! ## Times -/

/-- A time in UTC, in microseconds from the first day of the calendar on. -/
structure Timestamp where
  micros : Nat
  bounded : micros / Linters.microsPerDay + 1 ≤ maxOrdinal

namespace Timestamp

def date (t : Timestamp) : Date :=
  ⟨t.micros / Linters.microsPerDay + 1, Nat.le_add_left _ _, t.bounded⟩

/-- `isoformat()` -/
def text (t : Timestamp) : Str :=
  let ofDay := t.micros % Linters.microsPerDay
  let seconds := ofDay / 1000000
  t.date.isoFormat ++ lit "T" ++ Date.padded 2 (seconds / 3600) ++ lit ":" ++
    Date.padded 2 (seconds / 60 % 60) ++ lit ":" ++ Date.padded 2 (seconds % 60) ++
    (if ofDay % 1000000 = 0 then [] else lit "." ++ Date.padded 6 (ofDay % 1000000)) ++
    lit "+00:00"

/-- `max(times, key=datetime.fromisoformat)`: the first of the latest. -/
def latest : List Timestamp → Option Timestamp
  | [] => none
  | t :: ts => some (ts.foldl (fun m u => if m.micros < u.micros then u else m) t)

def earliest : List Timestamp → Option Timestamp
  | [] => none
  | t :: ts => some (ts.foldl (fun m u => if u.micros < m.micros then u else m) t)

end Timestamp

theorem inCalendar (p : ParsedDatetime)
    (h : 0 ≤ (p.micros : Int) - p.offset.getD 0 ∧
      ((p.micros : Int) - p.offset.getD 0).toNat / Linters.microsPerDay + 1 ≤ maxOrdinal) :
    ((p.micros : Int) - p.offset.getD 0).toNat / Linters.microsPerDay + 1 ≤ maxOrdinal := h.2

/-- `astimezone(UTC)`, which refuses a time outside the calendar. -/
def toUtc (p : ParsedDatetime) : Except LintError Timestamp :=
  let micros := (p.micros : Int) - p.offset.getD 0
  if h : 0 ≤ micros ∧ micros.toNat / Linters.microsPerDay + 1 ≤ maxOrdinal then
    .ok ⟨micros.toNat, inCalendar p h⟩
  else .error .overflowError

def oscalDatetime (rt : Runtime) (lib : LintLibrary) (field : Option Json) :
    Except LintError (Option Timestamp) :=
  if Linters.line rt field = [] then .ok none
  else
    match lib.parseDatetime (Linters.replaceZ (Linters.line rt field)) with
    | none => .ok none
    | some p => (toUtc p).map some

/-- Collection time and source operation of a vault record. -/
structure EvidenceMeta where
  collected : Option Timestamp
  source : Str

/-! ## Elements of the document -/

structure Actor where
  type : Str
  actorUuid : Str
  roleId : Option Str

structure Origin where
  actors : List Actor

structure Link where
  href : Str
  qualifier : Str

structure Resource where
  uuid : Str
  title : Str
  description : Str
  props : List Property
  rlinks : List Link

structure Component where
  uuid : Str
  type : Str
  title : Str
  description : Str
  state : Str
  stateRemarks : Str

structure Platform where
  uuid : Str
  title : Str
  props : List Property

structure LocalDefinitions where
  components : List Component
  platforms : List Platform

/-- An objective of the local definitions of the document, with its single part. -/
structure ControlObjective where
  controlId : Str
  description : Str
  partId : Str
  partName : Str
  prose : Str
  props : List Property

structure SelectedControl where
  controlId : Str
  links : List Link

structure ReviewedControls where
  description : Str
  includeControls : List SelectedControl

structure RelevantEvidence where
  href : Str
  description : Str
  props : List Property

structure Observation where
  uuid : Str
  title : Str
  description : Str
  props : List Property
  methods : List Str
  types : List Str
  origins : List Origin
  /-- (`subject-uuid`, `type`) -/
  subjects : List (Str × Str)
  collected : Timestamp
  relevantEvidence : List RelevantEvidence
  remarks : Option Str

structure FindingTarget where
  type : Str
  targetId : Str
  title : Str
  status : TargetStatus

structure Finding where
  uuid : Str
  title : Str
  description : Str
  props : List Property
  target : FindingTarget
  relatedObservations : List Str
  relatedRisks : List Str

/-- A remediation of a risk; an empty field is left out. -/
structure Remediation where
  uuid : Str
  lifecycle : Str
  title : Str
  description : Str
  props : List Property
  origins : List Origin

structure RiskLogEntry where
  uuid : Str
  title : Str
  description : Str
  start : Timestamp
  props : List Property

structure DocumentRisk where
  uuid : Str
  title : Str
  description : Str
  statement : Str
  props : List Property
  status : Str
  origins : List Origin
  deadline : Option Timestamp
  riskLog : List RiskLogEntry
  remediations : List Remediation
  relatedObservations : List Str

structure ResponsibleParty where
  roleId : Str
  partyUuids : List Str

structure AttestationPart where
  uuid : Str
  name : Str
  title : Str
  props : List Property
  prose : Str

structure Attestation where
  responsibleParties : List ResponsibleParty
  parts : List AttestationPart

structure AssessmentLogEntry where
  uuid : Str
  title : Str
  start : Timestamp
  props : List Property
  description : Str
  /-- The party of `logged-by` -/
  loggedBy : Option Str

structure AssessmentResult where
  uuid : Str
  title : Str
  description : Str
  start : Timestamp
  stop : Option Timestamp
  props : List Property
  localDefinitions : LocalDefinitions
  reviewedControls : ReviewedControls
  attestations : List Attestation
  assessmentLog : List AssessmentLogEntry
  observations : List Observation
  risks : List DocumentRisk
  findings : List Finding
  remarks : Str

structure Party where
  uuid : Str
  type : Str
  name : Str
  remarks : Str

structure Role where
  id : Str
  title : Str

structure Metadata where
  title : Str
  lastModified : Timestamp
  version : Str
  oscalVersion : Str
  props : List Property
  roles : List Role
  parties : List Party
  responsibleParties : List ResponsibleParty
  remarks : Str

structure ImportAp where
  href : Str
  remarks : Str

structure Document where
  uuid : Str
  metadata : Metadata
  importAp : ImportAp
  localDefinitions : List ControlObjective
  results : List AssessmentResult
  resources : List Resource

/-! ## Declared and referred to -/

def DocumentRisk.uuids (r : DocumentRisk) : List Str :=
  r.uuid :: (r.riskLog.map (·.uuid) ++ r.remediations.map (·.uuid))

def AssessmentResult.uuids (r : AssessmentResult) : List Str :=
  r.uuid :: (r.localDefinitions.components.map (·.uuid) ++
    r.localDefinitions.platforms.map (·.uuid) ++
    r.attestations.flatMap (·.parts.map (·.uuid)) ++ r.assessmentLog.map (·.uuid) ++
    r.observations.map (·.uuid) ++ r.risks.flatMap DocumentRisk.uuids ++ r.findings.map (·.uuid))

def Document.uuids (d : Document) : List Str :=
  d.uuid :: (d.metadata.parties.map (·.uuid) ++ d.results.flatMap AssessmentResult.uuids ++
    d.resources.map (·.uuid))

/-- A reference to an element of a document. -/
inductive Reference where
  | party (uuid : Str)
  | platform (uuid : Str)
  | component (uuid : Str)
  | observation (uuid : Str)
  | risk (uuid : Str)
  /-- `#` and the uuid of a resource of the back matter -/
  | resource (href : Str)

def Actor.reference (a : Actor) : Reference :=
  if a.type = lit "party" then .party a.actorUuid else .platform a.actorUuid

def Origin.references (o : Origin) : List Reference := o.actors.map Actor.reference

def ResponsibleParty.references (r : ResponsibleParty) : List Reference :=
  r.partyUuids.map Reference.party

def Observation.references (o : Observation) : List Reference :=
  o.origins.flatMap Origin.references ++ o.subjects.map (fun s => .component s.1) ++
    o.relevantEvidence.map (fun e => .resource e.href)

def Finding.references (f : Finding) : List Reference :=
  f.relatedObservations.map Reference.observation ++ f.relatedRisks.map Reference.risk

def DocumentRisk.references (r : DocumentRisk) : List Reference :=
  r.origins.flatMap Origin.references ++
    r.remediations.flatMap (·.origins.flatMap Origin.references) ++
    r.relatedObservations.map Reference.observation

def AssessmentResult.references (r : AssessmentResult) : List Reference :=
  r.attestations.flatMap (·.responsibleParties.flatMap ResponsibleParty.references) ++
    r.assessmentLog.flatMap (fun e => e.loggedBy.toList.map Reference.party) ++
    r.observations.flatMap Observation.references ++ r.risks.flatMap DocumentRisk.references ++
    r.findings.flatMap Finding.references

def Document.references (d : Document) : List Reference :=
  d.metadata.responsibleParties.flatMap ResponsibleParty.references ++
    .resource d.importAp.href :: d.results.flatMap AssessmentResult.references

/-- The element a reference names is declared in the document. -/
def Document.Resolves (d : Document) : Reference → Prop
  | .party u => ∃ p ∈ d.metadata.parties, p.uuid = u
  | .platform u => ∃ r ∈ d.results, ∃ p ∈ r.localDefinitions.platforms, p.uuid = u
  | .component u => ∃ r ∈ d.results, ∃ c ∈ r.localDefinitions.components, c.uuid = u
  | .observation u => ∃ r ∈ d.results, ∃ o ∈ r.observations, o.uuid = u
  | .risk u => ∃ r ∈ d.results, ∃ k ∈ r.risks, k.uuid = u
  | .resource href => ∃ b ∈ d.resources, href = lit "#" ++ b.uuid

end Oscal

end AuditSwarm
