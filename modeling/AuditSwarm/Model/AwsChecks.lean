import AuditSwarm.Model.Linter

/-!
# AWS evidence collection

`aws_checks.py`: the age of the access keys and the public access of a bucket.
-/

namespace AuditSwarm

open Python

inductive AwsError where
  /-- `ClientError`: the `Code` and the `Message` of its `Error`, when it has them -/
  | clientError (code message : Option Str)
  /-- `BotoCoreError`: the name of its class and its text -/
  | botoCoreError (className text : Str)
  deriving DecidableEq

namespace AwsChecks

variable (lib : VaultLibrary)

def describeError : AwsError → Str
  | .clientError code message =>
      let code := code.getD (lit "Unknown")
      let message := message.getD []
      Evidence.redactAccountIds lib (if message = [] then code else code ++ lit ": " ++ message)
  | .botoCoreError className text => Evidence.redactAccountIds lib (className ++ lit ": " ++ text)

/-! ## Access keys -/

/-- A `CreateDate`: a time, a text, or anything else. -/
inductive CreateDate where
  | datetime (time : ParsedDatetime)
  | text (s : Str)
  | other

structure AccessKeyMetadata where
  accessKeyId : Option Str
  status : Option Str
  createDate : CreateDate

/-- A response of `ListAccessKeys`.  `truncated` says that the user has more keys. -/
structure AccessKeysResponse where
  metadata : Option (List AccessKeyMetadata)
  truncated : Bool

/-- What the collection asks of IAM. -/
structure IamClient where
  /-- The pages of `list_users` with the names of their `Users` -/
  listUsers : Except AwsError (List (Option (List Str)))
  listAccessKeys : Str → Except AwsError AccessKeysResponse

inductive KeyLine where
  | unread (userName error : Str)
  | key (userName accessKeyIdSuffix status : Str) (ageDays : Option Nat) (exceedsMaxAge : Bool)

namespace KeyLine

def status : KeyLine → Str
  | unread _ _ => lit "Unknown"
  | key _ _ status _ _ => status

/-- `k.get("ExceedsMaxAge") is True` -/
def exceeds : KeyLine → Bool
  | unread _ _ => false
  | key _ _ _ _ exceedsMaxAge => exceedsMaxAge

end KeyLine

structure KeyAgeReport where
  maxAgeThresholdDays : Int
  accessKeys : List KeyLine
  totalKeys : Nat
  activeKeys : Nat
  exceedingMaxAge : Nat
  verdict : Str

section
variable (parseDatetime : Str → Option ParsedDatetime) (now : ParsedDatetime) (maxAgeDays : Int)

/-- The microseconds of a time in UTC; without a timezone it is one in UTC. -/
def utcMicros (t : ParsedDatetime) : Int := t.micros - t.offset.getD 0

/-- `max(0, (now - created).days)` -/
def daysSince (created : ParsedDatetime) : Nat :=
  ((utcMicros now - utcMicros created) / Linters.microsPerDay).toNat

def ageDays : CreateDate → Option Nat
  | .datetime t => some (daysSince now t)
  | .text s => (parseDatetime (Linters.replaceZ s)).map (daysSince now)
  | .other => none

def keyStatus (m : AccessKeyMetadata) : Str := m.status.getD (lit "Unknown")

def exceedsMaxAge (m : AccessKeyMetadata) : Bool :=
  keyStatus m = lit "Active" &&
    match ageDays parseDatetime now m.createDate with
    | none => false
    | some age => maxAgeDays < age

def keyLine (user : Str) (m : AccessKeyMetadata) : KeyLine :=
  let keyId := m.accessKeyId.getD []
  .key user (if 4 ≤ keyId.length then keyId.drop (keyId.length - 4) else keyId) (keyStatus m)
    (ageDays parseDatetime now m.createDate) (exceedsMaxAge parseDatetime now maxAgeDays m)

def userLines (user : Str) : Except AwsError AccessKeysResponse → List KeyLine
  | .error e => [.unread user (describeError lib e)]
  | .ok resp => (resp.metadata.getD []).map (keyLine parseDatetime now maxAgeDays user)

def userNames (pages : List (Option (List Str))) : List Str := pages.flatMap (·.getD [])

def collectAccessKeyAge (iam : IamClient) : Except AwsError KeyAgeReport :=
  iam.listUsers.map fun pages =>
    let users := (userNames pages).insertionSort (· ≤ ·)
    let keysReport := users.flatMap fun user =>
      userLines lib parseDatetime now maxAgeDays user (iam.listAccessKeys user)
    let activeKeys := keysReport.filter (·.status = lit "Active")
    let expiredKeys := activeKeys.filter (·.exceeds)
    { maxAgeThresholdDays := maxAgeDays
      accessKeys := keysReport
      totalKeys := keysReport.length
      activeKeys := activeKeys.length
      exceedingMaxAge := expiredKeys.length
      verdict := if expiredKeys = [] then lit "PASS" else lit "FAIL" }

end

/-! ## Block Public Access -/

inductive BpaFlag where
  | blockPublicAcls
  | ignorePublicAcls
  | blockPublicPolicy
  | restrictPublicBuckets
  deriving DecidableEq

def BpaFlag.name : BpaFlag → Str
  | blockPublicAcls => lit "BlockPublicAcls"
  | ignorePublicAcls => lit "IgnorePublicAcls"
  | blockPublicPolicy => lit "BlockPublicPolicy"
  | restrictPublicBuckets => lit "RestrictPublicBuckets"

/-- A layer of Block Public Access. -/
inductive BpaLayer where
  | unknown (error : Str)
  | notConfigured
  | configured (flags : BpaFlag → Bool)

def bpaLayer (settings : Dict Str Json) : BpaLayer :=
  .configured fun flag => ((settings.get? flag.name).getD (.bool false)).truthy

/-- A response of `GetPublicAccessBlock`: its `PublicAccessBlockConfiguration`, when it has one. -/
abbrev BpaRead := Except AwsError (Option (Dict Str Json))

/-- The layer that a read of `GetPublicAccessBlock` gives. -/
def bpaLayerOf : BpaRead → BpaLayer
  | .error (.clientError code message) =>
      if code.getD [] = lit "NoSuchPublicAccessBlockConfiguration" then .notConfigured
      else .unknown (describeError lib (.clientError code message))
  | .error (.botoCoreError className text) =>
      .unknown (describeError lib (.botoCoreError className text))
  | .ok resp => bpaLayer (resp.getD [])

def getAccountBpa (accountId : Option Str) (s3control : Str → BpaRead) : BpaLayer :=
  match accountId with
  | none => .unknown
      (lit "GetCallerIdentity failed (no account id available for the S3 Control call)")
  | some accountId => bpaLayerOf lib (s3control accountId)

def layerFlag (layer : BpaLayer) (flag : BpaFlag) : Option Bool :=
  match layer with
  | .unknown _ => none
  | .notConfigured => some false
  | .configured flags => some (flags flag)

def either (a b : Option Bool) : Option Bool :=
  if a = some true ∨ b = some true then some true
  else if a = none ∨ b = none then none
  else some false

/-! ## Buckets -/

/-- A grant of a bucket ACL: the `URI` of its `Grantee` and its `Permission`. -/
structure Grant where
  granteeUri : Option Str
  permission : Option Str

/-- What the evaluation of a bucket asks of S3, by the name of the bucket. -/
structure S3Client where
  getPublicAccessBlock : Str → BpaRead
  /-- `PolicyStatus.IsPublic` of the response, when it has one -/
  getBucketPolicyStatus : Str → Except AwsError (Option Json)
  /-- The `Grants` of the response, when it has them -/
  getBucketAcl : Str → Except AwsError (Option (List Grant))

/-- `_get_policy_public`, given what was read. -/
def policyPublicOf : Except AwsError (Option Json) → Option Bool × Option Str
  | .error (.clientError code message) =>
      if code.getD [] = lit "NoSuchBucketPolicy" then (some false, none)
      else (none, some (describeError lib (.clientError code message)))
  | .error (.botoCoreError className text) =>
      (none, some (describeError lib (.botoCoreError className text)))
  | .ok (some (.bool isPublic)) => (some isPublic, none)
  | .ok _ => (none, some (lit "GetBucketPolicyStatus returned no IsPublic value"))

def publicAclGroups : List (Str × Str) :=
  [(lit "/groups/global/AllUsers", lit "AllUsers"),
    (lit "/groups/global/AuthenticatedUsers", lit "AuthenticatedUsers")]

/-- The texts of the public grants of an ACL, in its order. -/
def publicGrants (grants : List Grant) : List Str :=
  grants.flatMap fun grant =>
    (publicAclGroups.filter fun group => group.1 <:+ grant.granteeUri.getD []).map fun group =>
      group.2 ++ lit " " ++ grant.permission.getD (lit "UNKNOWN")

/-- `_get_public_acl_grants`, given what was read. -/
def publicAclGrantsOf : Except AwsError (Option (List Grant)) → Option (List Str) × Option Str
  | .error e => (none, some (describeError lib e))
  | .ok grants => (some ((publicGrants (grants.getD [])).dedup.insertionSort (· ≤ ·)), none)

def layersWith (flag : BpaFlag) (account bucket : BpaLayer) : Str :=
  let on := ([(lit "account", account), (lit "bucket", bucket)].filter fun layer =>
    layerFlag layer.2 flag = some true).map Prod.fst
  join (lit " and ") on ++ (if on.length = 1 then lit " level" else lit " levels")

/-- What one of the two paths to public access adds to the report. -/
structure PathResult where
  effective : Option Bool
  reasons : List Str := []
  unknowns : List Str := []
  notes : List Str := []

def policyPath (policyPublic restrict : Option Bool) (account bucket : BpaLayer) : PathResult :=
  if policyPublic = some false then { effective := some false }
  else if restrict = some true then
    { effective := some false
      notes :=
        if policyPublic = some true then
          [lit "Bucket policy is public, but RestrictPublicBuckets is on at the " ++
            layersWith .restrictPublicBuckets account bucket ++
            lit ", so access is limited to AWS service principals and the bucket owner's account."]
        else [] }
  else if policyPublic = some true ∧ restrict = some false then
    { effective := some true, reasons := [lit "public bucket policy"] }
  else
    { effective := none
      unknowns :=
        if policyPublic = some true then
          [lit "bucket policy is public but RestrictPublicBuckets could not be determined"]
        else [] }

def aclPath (aclGrants : Option (List Str)) (ignoreAcls : Option Bool)
    (account bucket : BpaLayer) : PathResult :=
  let grants := aclGrants.getD []
  if aclGrants = some [] then { effective := some false }
  else if ignoreAcls = some true then
    { effective := some false
      notes :=
        if grants ≠ [] then
          [lit "ACL has public grants (" ++ join (lit ", ") grants ++
            lit "), but IgnorePublicAcls is on at the " ++
            layersWith .ignorePublicAcls account bucket ++ lit ", so S3 ignores them."]
        else [] }
  else if grants ≠ [] ∧ ignoreAcls = some false then
    { effective := some true, reasons := grants.map (lit "ACL grants " ++ ·) }
  else
    { effective := none
      unknowns :=
        if grants ≠ [] then
          [lit "ACL has public grants (" ++ join (lit ", ") grants ++
            lit ") but IgnorePublicAcls could not be determined"]
        else [] }

def layerUnknown (layerName : Str) : BpaLayer → List Str
  | .unknown error =>
      [layerName ++ lit "-level Block Public Access unknown (" ++ error ++ lit ")"]
  | _ => []

inductive Verdict where
  | isPublic
  | notPublic
  | unknown
  deriving DecidableEq

/-- `{True: "PUBLIC", False: "NOT_PUBLIC", None: "UNKNOWN"}` -/
def Verdict.of : Option Bool → Verdict
  | some true => .isPublic
  | some false => .notPublic
  | none => .unknown

structure BucketReport where
  bucket : Str
  verdict : Verdict
  effectivePublic : Option Bool
  reasons : List Str
  unknowns : List Str
  notes : List Str
  accountBpa : BpaLayer
  bucketBpa : BpaLayer
  effective : BpaFlag → Option Bool
  policyIsPublic : Option Bool
  publicAclGrants : Option (List Str)

def checkBucketPublicAccess (s3 : S3Client) (name : Str) (accountBpa : BpaLayer) : BucketReport :=
  let bucketBpa := bpaLayerOf lib (s3.getPublicAccessBlock name)
  let policy := policyPublicOf lib (s3.getBucketPolicyStatus name)
  let acl := publicAclGrantsOf lib (s3.getBucketAcl name)
  let effective := fun flag => either (layerFlag accountBpa flag) (layerFlag bucketBpa flag)
  let byPolicy := policyPath policy.1 (effective .restrictPublicBuckets) accountBpa bucketBpa
  let byAcl := aclPath acl.1 (effective .ignorePublicAcls) accountBpa bucketBpa
  let effectivePublic := either byPolicy.effective byAcl.effective
  { bucket := name
    verdict := Verdict.of effectivePublic
    effectivePublic := effectivePublic
    reasons := byPolicy.reasons ++ byAcl.reasons
    unknowns :=
      policy.2.toList.map (fun e => lit "bucket policy status unknown (" ++ e ++ lit ")") ++
        acl.2.toList.map (fun e => lit "bucket ACL unknown (" ++ e ++ lit ")") ++
        layerUnknown (lit "account") accountBpa ++ layerUnknown (lit "bucket") bucketBpa ++
        byPolicy.unknowns ++ byAcl.unknowns
    notes := byPolicy.notes ++ byAcl.notes
    accountBpa := accountBpa
    bucketBpa := bucketBpa
    effective := effective
    policyIsPublic := policy.1
    publicAclGrants := acl.1 }

end AwsChecks

end AuditSwarm
