import AuditSwarm.Model.AwsChecks
import AuditSwarm.Vault.Redaction

/-!
# Access-key age

The report says `PASS` when no active key is known to be too old.  It does not look at the users
whose keys it could not read, nor at the active keys whose age it does not know.
-/

namespace AuditSwarm

open Python

namespace AwsChecks

section
variable (parseDatetime : Str → Option ParsedDatetime) (now : ParsedDatetime) (maxAgeDays : Int)

def HasKey (iam : IamClient) (pages : List (Option (List Str))) (m : AccessKeyMetadata) : Prop :=
  ∃ user ∈ userNames pages, ∃ resp, iam.listAccessKeys user = .ok resp ∧
    m ∈ resp.metadata.getD []

/-- The keys of every user were read, all of them. -/
def AllKeysRead (iam : IamClient) (pages : List (Option (List Str))) : Prop :=
  ∀ user ∈ userNames pages, ∃ resp, iam.listAccessKeys user = .ok resp ∧ resp.truncated = false

def ActiveKey (iam : IamClient) (pages : List (Option (List Str))) (m : AccessKeyMetadata) :
    Prop :=
  HasKey iam pages m ∧ keyStatus m = lit "Active"

/-- Every key was read, and every active key has a known age of at most the maximum. -/
def Established (iam : IamClient) (pages : List (Option (List Str))) : Prop :=
  AllKeysRead iam pages ∧ ∀ m, ActiveKey iam pages m →
    ∃ age, ageDays parseDatetime now m.createDate = some age ∧ (age : Int) ≤ maxAgeDays

/-- An active key is known to be older than the maximum. -/
def KnownTooOld (iam : IamClient) (pages : List (Option (List Str))) : Prop :=
  ∃ m, ActiveKey iam pages m ∧
    ∃ age, ageDays parseDatetime now m.createDate = some age ∧ maxAgeDays < age

end

section
variable {lib : VaultLibrary} {parseDatetime : Str → Option ParsedDatetime} {now : ParsedDatetime}
  {maxAgeDays : Int} {iam : IamClient} {pages : List (Option (List Str))}
  {report : KeyAgeReport} {m : AccessKeyMetadata}

theorem exceedsMaxAge_iff :
    exceedsMaxAge parseDatetime now maxAgeDays m = true ↔
      keyStatus m = lit "Active" ∧
        ∃ age, ageDays parseDatetime now m.createDate = some age ∧ maxAgeDays < age := by
  unfold exceedsMaxAge
  rw [Bool.and_eq_true, decide_eq_true_eq]
  apply and_congr_right
  intro _
  cases ageDays parseDatetime now m.createDate with
  | none => simp
  | some age => simp

/-- The lines that make the verdict are those of the active keys that are too old. -/
theorem exists_expired_iff (lib : VaultLibrary) (user : Str)
    (read : Except AwsError AccessKeysResponse) :
    (∃ line ∈ userLines lib parseDatetime now maxAgeDays user read,
        line.status = lit "Active" ∧ line.exceeds = true) ↔
      ∃ resp, read = .ok resp ∧ ∃ m ∈ resp.metadata.getD [],
        exceedsMaxAge parseDatetime now maxAgeDays m = true := by
  cases read with
  | error e =>
      apply iff_of_false
      · intro h
        obtain ⟨line, hline, -, hexceeds⟩ := h
        rw [List.mem_singleton.mp hline] at hexceeds
        cases hexceeds
      · intro h
        obtain ⟨resp, hresp, -⟩ := h
        cases hresp
  | ok resp =>
      constructor
      · intro h
        obtain ⟨line, hline, -, hexceeds⟩ := h
        obtain ⟨m, hm, rfl⟩ := List.mem_map.mp hline
        exact ⟨resp, rfl, m, hm, hexceeds⟩
      · intro h
        obtain ⟨resp', hresp, m, hm, hexceeds⟩ := h
        cases hresp
        exact ⟨_, List.mem_map_of_mem hm, (exceedsMaxAge_iff.mp hexceeds).1, hexceeds⟩

/-- The verdict is `PASS` unless an active key is known to be too old. -/
theorem verdict_eq_pass_iff (hpages : iam.listUsers = .ok pages)
    (h : collectAccessKeyAge lib parseDatetime now maxAgeDays iam = .ok report) :
    report.verdict = lit "PASS" ↔ ¬ KnownTooOld parseDatetime now maxAgeDays iam pages := by
  unfold collectAccessKeyAge at h
  rw [hpages] at h
  cases h
  have hne : lit "FAIL" ≠ lit "PASS" := by decide
  have hexpired : ∀ lines : List KeyLine,
      (lines.filter (·.status = lit "Active")).filter (·.exceeds) = [] ↔
        ¬ ∃ line ∈ lines, line.status = lit "Active" ∧ line.exceeds = true := by
    intro lines
    rw [List.filter_filter, List.filter_eq_nil_iff]
    simp only [Bool.and_eq_true, decide_eq_true_eq, not_exists, not_and]
    constructor
    · intro hnone line hline hactive hexceeds
      exact hnone line hline hexceeds hactive
    · intro hnone line hline hexceeds hactive
      exact hnone line hline hactive hexceeds
  dsimp only
  rw [ite_eq_left_iff]
  simp only [hne, imp_false, not_not]
  rw [hexpired]
  apply not_congr
  constructor
  · intro hline
    obtain ⟨line, hline, hexceeds⟩ := hline
    obtain ⟨user, huser, hline⟩ := List.mem_flatMap.mp hline
    obtain ⟨resp, hresp, m, hm, hold⟩ :=
      (exists_expired_iff lib user (iam.listAccessKeys user)).mp ⟨line, hline, hexceeds⟩
    obtain ⟨hactive, hage⟩ := exceedsMaxAge_iff.mp hold
    have hmem : user ∈ userNames pages := (List.mem_insertionSort _).mp huser
    exact ⟨m, ⟨⟨user, hmem, resp, hresp, hm⟩, hactive⟩, hage⟩
  · intro hold
    obtain ⟨m, ⟨⟨user, huser, resp, hresp, hm⟩, hactive⟩, hage⟩ := hold
    obtain ⟨line, hline, hexceeds⟩ :=
      (exists_expired_iff lib user (iam.listAccessKeys user)).mpr
        ⟨resp, hresp, m, hm, exceedsMaxAge_iff.mpr ⟨hactive, hage⟩⟩
    have hmem : user ∈ (userNames pages).insertionSort (· ≤ ·) :=
      (List.mem_insertionSort _).mpr huser
    exact ⟨line, List.mem_flatMap.mpr ⟨user, hmem, hline⟩, hexceeds⟩

/-- When no active key is known to be too old, the account is established once all keys are read
and the age of each active key is known. -/
theorem established_iff (h : ¬ KnownTooOld parseDatetime now maxAgeDays iam pages) :
    Established parseDatetime now maxAgeDays iam pages ↔
      AllKeysRead iam pages ∧
        ∀ m, ActiveKey iam pages m → ageDays parseDatetime now m.createDate ≠ none := by
  apply and_congr_right
  intro _
  constructor
  · intro hall m hm
    obtain ⟨age, hage, -⟩ := hall m hm
    rw [hage]
    exact Option.some_ne_none age
  · intro hall m hm
    obtain ⟨age, hage⟩ := Option.ne_none_iff_exists'.mp (hall m hm)
    refine ⟨age, hage, ?_⟩
    by_contra hold
    exact h ⟨m, hm, age, hage, by omega⟩

/-- `PASS` is no guess exactly when an active key is known to be too old, so that the verdict is
another one, or all keys were read and the age of every active key is known. -/
theorem collectAccessKeyAge_pass_iff (hpages : iam.listUsers = .ok pages)
    (h : collectAccessKeyAge lib parseDatetime now maxAgeDays iam = .ok report) :
    (report.verdict = lit "PASS" → Established parseDatetime now maxAgeDays iam pages) ↔
      KnownTooOld parseDatetime now maxAgeDays iam pages ∨
        (AllKeysRead iam pages ∧
          ∀ m, ActiveKey iam pages m → ageDays parseDatetime now m.createDate ≠ none) := by
  rw [verdict_eq_pass_iff hpages h]
  by_cases hold : KnownTooOld parseDatetime now maxAgeDays iam pages
  · exact iff_of_true (fun hnot => absurd hold hnot) (.inl hold)
  · rw [established_iff hold]
    constructor
    · exact fun hall => .inr (hall hold)
    · intro hcases _
      rcases hcases with hyes | hall
      · exact absurd hyes hold
      · exact hall

end

namespace Sample

def deniedIam : IamClient where
  listUsers := .ok [some [lit "alice"]]
  listAccessKeys := fun _ => .error (.clientError (some (lit "AccessDenied")) none)

def youngIam : IamClient where
  listUsers := .ok [some [lit "alice"]]
  listAccessKeys := fun _ =>
    .ok ⟨some [⟨some (lit "AKIA0001"), some (lit "Active"), .datetime ⟨0, none⟩⟩], false⟩

def now : ParsedDatetime := ⟨Linters.microsPerDay, none⟩

end Sample

/-- The only key is read, and is not too old. -/
theorem collectAccessKeyAge_pass_young :
    ∃ report, collectAccessKeyAge Evidence.sampleLibrary (fun _ => none) Sample.now 90
        Sample.youngIam = .ok report ∧ report.verdict = lit "PASS" ∧
      Established (fun _ => none) Sample.now 90 Sample.youngIam [some [lit "alice"]] := by
  have hpass : ((collectAccessKeyAge Evidence.sampleLibrary (fun _ => none) Sample.now 90
      Sample.youngIam).toOption.map (·.verdict)) = some (lit "PASS") := by decide +kernel
  cases hreport : collectAccessKeyAge Evidence.sampleLibrary (fun _ => none) Sample.now 90
      Sample.youngIam with
  | error e =>
      rw [hreport] at hpass
      cases hpass
  | ok report =>
      rw [hreport] at hpass
      have hverdict : report.verdict = lit "PASS" := Option.some.inj hpass
      refine ⟨report, rfl, hverdict, (collectAccessKeyAge_pass_iff rfl hreport).mpr ?_ hverdict⟩
      right
      constructor
      · intro user _
        exact ⟨_, rfl, rfl⟩
      · intro m hm
        obtain ⟨⟨user, -, resp, hresp, hmem⟩, -⟩ := hm
        cases Except.ok.inj hresp
        rw [List.mem_singleton.mp hmem]
        exact Option.some_ne_none _

/-- The keys of the only user could not be read, and the verdict is `PASS`. -/
theorem collectAccessKeyAge_guesses :
    ¬ ∀ (lib : VaultLibrary) (parseDatetime : Str → Option ParsedDatetime) (now : ParsedDatetime)
        (maxAgeDays : Int) (iam : IamClient) (pages : List (Option (List Str)))
        (report : KeyAgeReport), iam.listUsers = .ok pages →
      collectAccessKeyAge lib parseDatetime now maxAgeDays iam = .ok report →
      report.verdict = lit "PASS" → Established parseDatetime now maxAgeDays iam pages := by
  intro h
  have hread := (h Evidence.sampleLibrary (fun _ => none) Sample.now 90 Sample.deniedIam _ _ rfl rfl
    (by decide)).1 (lit "alice") (by decide)
  obtain ⟨resp, hresp, -⟩ := hread
  cases hresp

end AwsChecks

end AuditSwarm
