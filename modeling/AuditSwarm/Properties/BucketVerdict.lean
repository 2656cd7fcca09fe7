import AuditSwarm.Lib.ThreeValued
import AuditSwarm.Model.AwsChecks

/-!
# The S3 verdict

The verdict of a bucket is the strongest sound one: it is what every answer to the failed reads
would give, and unknown when they would not all give the same.
-/

namespace AuditSwarm

open Python ThreeValued

namespace AwsChecks

variable {lib : VaultLibrary}

/-! ## The paths as connectives -/

theorem policyPath_effective (policyPublic restrict : Option Bool) (account bucket : BpaLayer) :
    (policyPath policyPublic restrict account bucket).effective =
      conj policyPublic (neg restrict) := by
  rcases policyPublic with _ | _ | _ <;> rcases restrict with _ | _ | _ <;> rfl

def hasGrants (aclGrants : Option (List Str)) : Option Bool :=
  aclGrants.map fun grants => !grants.isEmpty

theorem aclPath_effective (aclGrants : Option (List Str)) (ignoreAcls : Option Bool)
    (account bucket : BpaLayer) :
    (aclPath aclGrants ignoreAcls account bucket).effective =
      conj (hasGrants aclGrants) (neg ignoreAcls) := by
  rcases aclGrants with _ | _ | ⟨g, grants⟩ <;> rcases ignoreAcls with _ | _ | _ <;> rfl

theorem effectivePublic_eq (s3 : S3Client) (name : Str) (account : BpaLayer) :
    (checkBucketPublicAccess lib s3 name account).effectivePublic =
      disj
        (conj (policyPublicOf lib (s3.getBucketPolicyStatus name)).1
          (neg (disj (layerFlag account .restrictPublicBuckets)
            (layerFlag (bpaLayerOf lib (s3.getPublicAccessBlock name)) .restrictPublicBuckets))))
        (conj (hasGrants (publicAclGrantsOf lib (s3.getBucketAcl name)).1)
          (neg (disj (layerFlag account .ignorePublicAcls)
            (layerFlag (bpaLayerOf lib (s3.getPublicAccessBlock name)) .ignorePublicAcls)))) := by
  rw [← policyPath_effective _ _ account (bpaLayerOf lib (s3.getPublicAccessBlock name)),
    ← aclPath_effective _ _ account (bpaLayerOf lib (s3.getPublicAccessBlock name))]
  rfl

theorem verdict_eq (s3 : S3Client) (name : Str) (account : BpaLayer) :
    (checkBucketPublicAccess lib s3 name account).verdict =
      Verdict.of (checkBucketPublicAccess lib s3 name account).effectivePublic := rfl

theorem Verdict.of_injective {x y : Option Bool} (h : Verdict.of x = Verdict.of y) : x = y := by
  rcases x with _ | _ | _ <;> rcases y with _ | _ | _ <;> first | rfl | cases h

/-! ## Completions of the failed reads -/

def BpaLayer.Known (layer : BpaLayer) : Prop := ∀ error, layer ≠ .unknown error

theorem BpaLayer.known_iff {layer : BpaLayer} (flag : BpaFlag) :
    layer.Known ↔ layerFlag layer flag ≠ none := by
  cases layer with
  | unknown error =>
      exact iff_of_false (fun h => h error rfl) fun h => h rfl
  | notConfigured =>
      exact iff_of_true (fun error h => nomatch h) fun h => nomatch h
  | configured flags =>
      exact iff_of_true (fun error h => nomatch h) fun h => nomatch h

/-- The account layer is read when the caller's identity and then the layer itself are. -/
theorem getAccountBpa_known_iff {accountId : Option Str} {s3control : Str → BpaRead} :
    (getAccountBpa lib accountId s3control).Known ↔
      ∃ id, accountId = some id ∧ (bpaLayerOf lib (s3control id)).Known := by
  cases accountId with
  | none =>
      refine iff_of_false (fun h => h _ rfl) ?_
      intro h
      obtain ⟨id, hid, -⟩ := h
      cases hid
  | some id => simp [getAccountBpa]

/-- The reads of `s3'` and the layer `account'` answer what the reads of `s3` and the layer
`account` leave unknown of a bucket, and say the same where those say something.  A policy status
without an `IsPublic` value leaves the policy unknown. -/
structure Completes (lib : VaultLibrary) (name : Str) (s3 : S3Client) (account : BpaLayer)
    (s3' : S3Client) (account' : BpaLayer) : Prop where
  account_same : account.Known → account' = account
  account_known : account'.Known
  bucket_same : (bpaLayerOf lib (s3.getPublicAccessBlock name)).Known →
    s3'.getPublicAccessBlock name = s3.getPublicAccessBlock name
  bucket_known : (bpaLayerOf lib (s3'.getPublicAccessBlock name)).Known
  policy_same : (policyPublicOf lib (s3.getBucketPolicyStatus name)).1 ≠ none →
    s3'.getBucketPolicyStatus name = s3.getBucketPolicyStatus name
  policy_known : (policyPublicOf lib (s3'.getBucketPolicyStatus name)).1 ≠ none
  acl_same : (publicAclGrantsOf lib (s3.getBucketAcl name)).1 ≠ none →
    s3'.getBucketAcl name = s3.getBucketAcl name
  acl_known : (publicAclGrantsOf lib (s3'.getBucketAcl name)).1 ≠ none

/-- A known value that is the same where the other one is known. -/
theorem exists_completion_of_same {x x' : Option Bool} (hsame : x ≠ none → x' = x)
    (hknown : x' ≠ none) : ∃ b, x' = some b ∧ b ∈ completions x := by
  obtain ⟨b, hb⟩ := Option.ne_none_iff_exists'.mp hknown
  refine ⟨b, hb, ?_⟩
  intro v hv
  have hne : x ≠ none := by
    rw [hv]
    exact Option.some_ne_none v
  rw [hsame hne, hv] at hb
  exact (Option.some.inj hb).symm

section
variable {layer layer' : BpaLayer}

theorem exists_flag_of_same (hsame : layer.Known → layer' = layer) (hknown : layer'.Known)
    (flag : BpaFlag) :
    ∃ b, layerFlag layer' flag = some b ∧ b ∈ completions (layerFlag layer flag) := by
  apply exists_completion_of_same
  · intro hne
    rw [hsame ((BpaLayer.known_iff flag).mpr hne)]
  · exact (BpaLayer.known_iff flag).mp hknown

end

theorem hasGrants_ne_none {grants : Option (List Str)} (h : grants ≠ none) :
    hasGrants grants ≠ none := by
  cases grants with
  | none => exact absurd rfl h
  | some grants => exact Option.some_ne_none _

theorem ne_none_of_hasGrants {grants : Option (List Str)} (h : hasGrants grants ≠ none) :
    grants ≠ none := by
  intro hnone
  rw [hnone] at h
  exact h rfl

section
variable {name : Str} {s3 s3' : S3Client} {account account' : BpaLayer}

/-- What reads that have all succeeded answer. -/
structure Answers (lib : VaultLibrary) (s3 : S3Client) (name : Str) (account : BpaLayer)
    (policyPublic granted restrictAccount restrictBucket ignoreAccount ignoreBucket : Bool) :
    Prop where
  policy : (policyPublicOf lib (s3.getBucketPolicyStatus name)).1 = some policyPublic
  grants : hasGrants (publicAclGrantsOf lib (s3.getBucketAcl name)).1 = some granted
  restrictAccount : layerFlag account .restrictPublicBuckets = some restrictAccount
  restrictBucket : layerFlag (bpaLayerOf lib (s3.getPublicAccessBlock name))
    .restrictPublicBuckets = some restrictBucket
  ignoreAccount : layerFlag account .ignorePublicAcls = some ignoreAccount
  ignoreBucket : layerFlag (bpaLayerOf lib (s3.getPublicAccessBlock name)) .ignorePublicAcls =
    some ignoreBucket

/-- A bucket is public by its policy, unless the account or the bucket restricts public policies,
or by its grants, unless one of them ignores public ACLs. -/
def publicGiven (policyPublic granted restrictAccount restrictBucket ignoreAccount
    ignoreBucket : Bool) : Bool :=
  (policyPublic && !(restrictAccount || restrictBucket)) ||
    (granted && !(ignoreAccount || ignoreBucket))

theorem Answers.effectivePublic {p a ra rb ia ib : Bool}
    (h : Answers lib s3 name account p a ra rb ia ib) :
    (checkBucketPublicAccess lib s3 name account).effectivePublic =
      some (publicGiven p a ra rb ia ib) := by
  rw [effectivePublic_eq, h.policy, h.grants, h.restrictAccount, h.restrictBucket,
    h.ignoreAccount, h.ignoreBucket]
  simp only [disj_some, conj_some, neg_some]
  rfl

/-- The reads of a completion have all succeeded. -/
theorem Completes.exists_answers (h : Completes lib name s3 account s3' account') :
    ∃ p a ra rb ia ib, Answers lib s3' name account' p a ra rb ia ib := by
  obtain ⟨p, hp⟩ := Option.ne_none_iff_exists'.mp h.policy_known
  obtain ⟨a, ha⟩ := Option.ne_none_iff_exists'.mp (hasGrants_ne_none h.acl_known)
  have hflag : ∀ (layer : BpaLayer) (flag : BpaFlag), layer.Known →
      ∃ b, layerFlag layer flag = some b := fun layer flag hknown =>
    Option.ne_none_iff_exists'.mp ((BpaLayer.known_iff flag).mp hknown)
  obtain ⟨ra, hra⟩ := hflag account' .restrictPublicBuckets h.account_known
  obtain ⟨ia, hia⟩ := hflag account' .ignorePublicAcls h.account_known
  obtain ⟨rb, hrb⟩ := hflag _ .restrictPublicBuckets h.bucket_known
  obtain ⟨ib, hib⟩ := hflag _ .ignorePublicAcls h.bucket_known
  exact ⟨p, a, ra, rb, ia, ib, hp, ha, hra, hrb, hia, hib⟩

/-- A completion decides the bucket, in a way the known reads leave open. -/
theorem Completes.effectivePublic (h : Completes lib name s3 account s3' account') :
    ∃ b, (checkBucketPublicAccess lib s3' name account').effectivePublic = some b ∧
      b ∈ completions (checkBucketPublicAccess lib s3 name account).effectivePublic := by
  have hbucket : (bpaLayerOf lib (s3.getPublicAccessBlock name)).Known →
      bpaLayerOf lib (s3'.getPublicAccessBlock name) =
        bpaLayerOf lib (s3.getPublicAccessBlock name) := by
    intro hknown
    rw [h.bucket_same hknown]
  obtain ⟨p, hp, hp'⟩ := exists_completion_of_same
    (fun hne => by rw [h.policy_same hne]) h.policy_known
  obtain ⟨a, ha, ha'⟩ := exists_completion_of_same
    (fun hne => by rw [h.acl_same (ne_none_of_hasGrants hne)]) (hasGrants_ne_none h.acl_known)
  obtain ⟨ra, hra, hra'⟩ :=
    exists_flag_of_same h.account_same h.account_known .restrictPublicBuckets
  obtain ⟨ia, hia, hia'⟩ := exists_flag_of_same h.account_same h.account_known .ignorePublicAcls
  obtain ⟨rb, hrb, hrb'⟩ := exists_flag_of_same hbucket h.bucket_known .restrictPublicBuckets
  obtain ⟨ib, hib, hib'⟩ := exists_flag_of_same hbucket h.bucket_known .ignorePublicAcls
  rw [effectivePublic_eq, effectivePublic_eq, hp, ha, hra, hia, hrb, hib]
  simp only [disj_some, conj_some, neg_some]
  refine ⟨_, rfl, ?_⟩
  rw [completions_disj, completions_conj, completions_conj, completions_neg, completions_neg,
    completions_disj, completions_disj]
  have hrestrict := Set.mem_image_of_mem not (Set.mem_image2_of_mem (f := or) hra' hrb')
  have hignore := Set.mem_image_of_mem not (Set.mem_image2_of_mem (f := or) hia' hib')
  exact Set.mem_image2_of_mem (Set.mem_image2_of_mem hp' hrestrict)
    (Set.mem_image2_of_mem ha' hignore)

end

def settingsOf (r i : Bool) : Dict Str Json :=
  [(BpaFlag.restrictPublicBuckets.name, .bool r), (BpaFlag.ignorePublicAcls.name, .bool i)]

theorem layerFlag_settingsOf (r i : Bool) :
    layerFlag (bpaLayer (settingsOf r i)) .restrictPublicBuckets = some r ∧
      layerFlag (bpaLayer (settingsOf r i)) .ignorePublicAcls = some i := by
  cases r <;> cases i <;> exact ⟨by decide, by decide⟩

theorem layerFlag_of_mem {layer : BpaLayer} {flag : BpaFlag} {b : Bool} (hknown : layer.Known)
    (hb : b ∈ completions (layerFlag layer flag)) : layerFlag layer flag = some b := by
  obtain ⟨v, hv⟩ := Option.ne_none_iff_exists'.mp ((BpaLayer.known_iff flag).mp hknown)
  rw [hv, hb v hv]

/-- A read of Block Public Access can be completed to any values its flags may turn out to have. -/
theorem exists_bpaRead (read : BpaRead) {r i : Bool}
    (hr : r ∈ completions (layerFlag (bpaLayerOf lib read) .restrictPublicBuckets))
    (hi : i ∈ completions (layerFlag (bpaLayerOf lib read) .ignorePublicAcls)) :
    ∃ read', ((bpaLayerOf lib read).Known → read' = read) ∧ (bpaLayerOf lib read').Known ∧
      layerFlag (bpaLayerOf lib read') .restrictPublicBuckets = some r ∧
      layerFlag (bpaLayerOf lib read') .ignorePublicAcls = some i := by
  by_cases hknown : (bpaLayerOf lib read).Known
  · exact ⟨read, fun _ => rfl, hknown, layerFlag_of_mem hknown hr, layerFlag_of_mem hknown hi⟩
  · obtain ⟨hr', hi'⟩ := layerFlag_settingsOf r i
    refine ⟨.ok (some (settingsOf r i)), fun h => absurd h hknown, ?_, hr', hi'⟩
    apply (BpaLayer.known_iff .restrictPublicBuckets).mpr
    rw [bpaLayerOf, Option.getD_some, hr']
    exact Option.some_ne_none r

theorem exists_layer (layer : BpaLayer) {r i : Bool}
    (hr : r ∈ completions (layerFlag layer .restrictPublicBuckets))
    (hi : i ∈ completions (layerFlag layer .ignorePublicAcls)) :
    ∃ layer', (layer.Known → layer' = layer) ∧ layer'.Known ∧
      layerFlag layer' .restrictPublicBuckets = some r ∧
      layerFlag layer' .ignorePublicAcls = some i := by
  by_cases hknown : layer.Known
  · exact ⟨layer, fun _ => rfl, hknown, layerFlag_of_mem hknown hr, layerFlag_of_mem hknown hi⟩
  · obtain ⟨hr', hi'⟩ := layerFlag_settingsOf r i
    refine ⟨bpaLayer (settingsOf r i), fun h => absurd h hknown, ?_, hr', hi'⟩
    apply (BpaLayer.known_iff .restrictPublicBuckets).mpr
    rw [hr']
    exact Option.some_ne_none r

theorem exists_policyRead (read : Except AwsError (Option Json)) {p : Bool}
    (hp : p ∈ completions (policyPublicOf lib read).1) :
    ∃ read', ((policyPublicOf lib read).1 ≠ none → read' = read) ∧
      (policyPublicOf lib read').1 = some p := by
  cases hread : (policyPublicOf lib read).1 with
  | none => exact ⟨.ok (some (.bool p)), fun h => absurd rfl h, rfl⟩
  | some v =>
      have hv : p = v := hp v hread
      exact ⟨read, fun _ => rfl, by rw [hread, hv]⟩

theorem exists_aclRead (read : Except AwsError (Option (List Grant))) {a : Bool}
    (ha : a ∈ completions (hasGrants (publicAclGrantsOf lib read).1)) :
    ∃ read', ((publicAclGrantsOf lib read).1 ≠ none → read' = read) ∧
      hasGrants (publicAclGrantsOf lib read').1 = some a := by
  cases hread : (publicAclGrantsOf lib read).1 with
  | none =>
      cases a with
      | false => exact ⟨.ok none, fun h => absurd rfl h, rfl⟩
      | true =>
          refine ⟨.ok (some [⟨some (lit "/groups/global/AllUsers"), none⟩]),
            fun h => absurd rfl h, rfl⟩
  | some grants =>
      rw [hread] at ha
      have hgrants : a = !grants.isEmpty := ha _ rfl
      refine ⟨read, fun _ => rfl, ?_⟩
      rw [hread, hgrants]
      rfl

/-- Each way to decide the bucket that the known reads leave open is the one of a completion. -/
theorem exists_completes (s3 : S3Client) (name : Str) (account : BpaLayer) {b : Bool}
    (hb : b ∈ completions (checkBucketPublicAccess lib s3 name account).effectivePublic) :
    ∃ s3' account', Completes lib name s3 account s3' account' ∧
      (checkBucketPublicAccess lib s3' name account').effectivePublic = some b := by
  rw [effectivePublic_eq, completions_disj, completions_conj, completions_conj, completions_neg,
    completions_neg, completions_disj, completions_disj] at hb
  obtain ⟨-, ⟨p, hp, -, ⟨-, ⟨ra, hra, rb, hrb, rfl⟩, rfl⟩, rfl⟩, -,
    ⟨a, ha, -, ⟨-, ⟨ia, hia, ib, hib, rfl⟩, rfl⟩, rfl⟩, rfl⟩ := hb
  obtain ⟨account', haccount, haccountKnown, hra', hia'⟩ := exists_layer account hra hia
  obtain ⟨bucket', hbucket, hbucketKnown, hrb', hib'⟩ :=
    exists_bpaRead (s3.getPublicAccessBlock name) hrb hib
  obtain ⟨policy', hpolicy, hp'⟩ := exists_policyRead (s3.getBucketPolicyStatus name) hp
  obtain ⟨acl', hacl, ha'⟩ := exists_aclRead (s3.getBucketAcl name) ha
  refine ⟨⟨fun _ => bucket', fun _ => policy', fun _ => acl'⟩, account', ?_, ?_⟩
  · constructor
    · exact haccount
    · exact haccountKnown
    · exact hbucket
    · exact hbucketKnown
    · exact hpolicy
    · rw [hp']
      exact Option.some_ne_none p
    · exact hacl
    · apply ne_none_of_hasGrants
      rw [ha']
      exact Option.some_ne_none a
  · rw [effectivePublic_eq, hp', ha', hra', hia', hrb', hib']
    simp only [disj_some, conj_some, neg_some]

/-! ## The verdict -/

def AllGive (lib : VaultLibrary) (s3 : S3Client) (name : Str) (account : BpaLayer)
    (verdict : Verdict) : Prop :=
  ∀ s3' account', Completes lib name s3 account s3' account' →
    (checkBucketPublicAccess lib s3' name account').verdict = verdict

theorem allGive_iff (lib : VaultLibrary) (s3 : S3Client) (name : Str) (account : BpaLayer)
    (v : Bool) :
    AllGive lib s3 name account (Verdict.of (some v)) ↔
      (checkBucketPublicAccess lib s3 name account).effectivePublic = some v := by
  rw [eq_some_iff]
  constructor
  · intro h b hb
    obtain ⟨s3', account', hcompletes, hvalue⟩ := exists_completes s3 name account hb
    have hverdict := h s3' account' hcompletes
    rw [verdict_eq, hvalue] at hverdict
    exact Option.some.inj (Verdict.of_injective hverdict)
  · intro h s3' account' hcompletes
    obtain ⟨b, hvalue, hb⟩ := hcompletes.effectivePublic
    rw [verdict_eq, hvalue, h b hb]

/-- The verdict is public, or not public, exactly when every completion of the failed reads gives
that, and unknown otherwise.  A completion gives what its answers come to. -/
theorem bucketVerdict_strongest (lib : VaultLibrary) (s3 : S3Client) (name : Str)
    (account : BpaLayer) :
    ((checkBucketPublicAccess lib s3 name account).verdict = .isPublic ↔
        AllGive lib s3 name account .isPublic) ∧
      ((checkBucketPublicAccess lib s3 name account).verdict = .notPublic ↔
        AllGive lib s3 name account .notPublic) ∧
      ((checkBucketPublicAccess lib s3 name account).verdict = .unknown ↔
        ¬ AllGive lib s3 name account .isPublic ∧ ¬ AllGive lib s3 name account .notPublic) ∧
      ∀ s3' account', Completes lib name s3 account s3' account' →
        ∃ p a ra rb ia ib, Answers lib s3' name account' p a ra rb ia ib ∧
          (checkBucketPublicAccess lib s3' name account').verdict =
            Verdict.of (some (publicGiven p a ra rb ia ib)) := by
  have hpublic := allGive_iff lib s3 name account true
  have hnot := allGive_iff lib s3 name account false
  simp only [Verdict.of] at hpublic hnot
  have hcompleted : ∀ s3' account', Completes lib name s3 account s3' account' →
      ∃ p a ra rb ia ib, Answers lib s3' name account' p a ra rb ia ib ∧
        (checkBucketPublicAccess lib s3' name account').verdict =
          Verdict.of (some (publicGiven p a ra rb ia ib)) := by
    intro s3' account' hcompletes
    obtain ⟨p, a, ra, rb, ia, ib, hanswers⟩ := hcompletes.exists_answers
    refine ⟨p, a, ra, rb, ia, ib, hanswers, ?_⟩
    rw [verdict_eq, hanswers.effectivePublic]
  rw [← and_assoc, ← and_assoc]
  refine ⟨?_, hcompleted⟩
  rw [hpublic, hnot, verdict_eq]
  rcases (checkBucketPublicAccess lib s3 name account).effectivePublic with _ | _ | _ <;>
    simp [Verdict.of]

end AwsChecks

end AuditSwarm
