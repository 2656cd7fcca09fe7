import AuditSwarm.Lib.Since
import AuditSwarm.Tokens.File

/-!
# Reviewer token registry

After any sequence of commands the tokens file parses, its reviewers are told apart, and a token
authenticates as a name exactly when it is the latest one issued for it and has not been replaced or
removed since.
-/

namespace AuditSwarm

open Python

namespace ReviewerTokens

/-! ## Histories of commands -/

def ValidName (name : Str) : Prop := cleanName name ≠ [] ∧ (cleanName name).length ≤ maxNameLength

section
variable (rt : Runtime)

/-- The command asks for a token for the reviewer with the given key. -/
def Adds (c : Command) (key : Str) : Prop :=
  ∃ name replace random now, c = .add name replace random now ∧ ValidName name ∧
    nameKey rt name = key

def Removes (c : Command) (key : Str) : Prop := ∃ name, c = .remove name ∧ nameKey rt name = key

/-- The command replaces or removes the token of the reviewer with the given key. -/
def Ends (c : Command) (key : Str) : Prop :=
  (∃ name random now, c = .add name true random now ∧ ValidName name ∧ nameKey rt name = key) ∨
    Removes rt c key

/-- A token was asked for the reviewer with the given key, who has not been removed since. -/
def Registered (past : List Command) (key : Str) : Prop :=
  Since (fun _ c => Adds rt c key) (fun c => Removes rt c key) past

/-- After the given commands, the command issues a token under a name: the name is valid, and its
reviewer is not registered or the token is replaced. -/
def Issues (past : List Command) (c : Command) (n t : Str) : Prop :=
  ∃ name replace random now, c = .add name replace random now ∧ ValidName name ∧
    (replace = true ∨ ¬ Registered rt past (nameKey rt name)) ∧ n = cleanName name ∧
    t = generateToken random

/-- The token is the latest one issued for the name and has not been replaced or removed since. -/
def Current (commands : List Command) (n t : Str) : Prop :=
  Since (fun past c => Issues rt past c n t) (fun c => Ends rt c (nameKey rt n)) commands

end

section
variable {rt : Runtime} {commands : List Command} {c : Command}

theorem registered_concat_iff {key : Str} :
    Registered rt (commands ++ [c]) key ↔
      Adds rt c key ∨ (Registered rt commands key ∧ ¬ Removes rt c key) := by
  unfold Registered
  exact since_concat_iff

theorem current_concat_iff {n t : Str} :
    Current rt (commands ++ [c]) n t ↔
      Issues rt commands c n t ∨ (Current rt commands n t ∧ ¬ Ends rt c (nameKey rt n)) := by
  unfold Current
  exact since_concat_iff

end

/-! ## The tokens in force -/

structure Live where
  name : Str
  random : UrlsafeText
  createdAt : Str

def Live.entry (rt : Runtime) (l : Live) : ReviewerEntry :=
  ⟨l.name, tokenDigest rt l.random, l.createdAt⟩

/-- The tokens in force, given the random texts used so far. -/
structure InForce (rt : Runtime) (used : List UrlsafeText) (live : List Live) : Prop where
  clean : ∀ l ∈ live, cleanName l.name = l.name
  named : ∀ l ∈ live, l.name ≠ []
  short : ∀ l ∈ live, l.name.length ≤ maxNameLength
  keys : (live.map fun l => nameKey rt l.name).Nodup
  randoms : (live.map Live.random).Nodup
  used : ∀ l ∈ live, l.random ∈ used

def DigestsApart (rt : Runtime) (used : List UrlsafeText) : Prop :=
  ∀ a ∈ used, ∀ b ∈ used, tokenDigest rt a = tokenDigest rt b → a = b

section
variable {rt : Runtime} {used : List UrlsafeText} {live : List Live}

theorem inForce_nil : InForce rt used [] := by
  constructor <;> simp

theorem InForce.mono {used' : List UrlsafeText} (h : InForce rt used live) (hsub : used ⊆ used') :
    InForce rt used' live :=
  { h with used := fun l hl => hsub (h.used l hl) }

theorem InForce.filter (h : InForce rt used live) (p : Live → Bool) :
    InForce rt used (live.filter p) where
  clean := fun l hl => h.clean l (List.mem_of_mem_filter hl)
  named := fun l hl => h.named l (List.mem_of_mem_filter hl)
  short := fun l hl => h.short l (List.mem_of_mem_filter hl)
  keys := h.keys.sublist (List.filter_sublist.map _)
  randoms := h.randoms.sublist (List.filter_sublist.map _)
  used := fun l hl => h.used l (List.mem_of_mem_filter hl)

theorem InForce.concat {name now : Str} {random : UrlsafeText} (h : InForce rt used live)
    (hne : cleanName name ≠ []) (hshort : (cleanName name).length ≤ maxNameLength)
    (hkey : ∀ l ∈ live, nameKey rt l.name ≠ nameKey rt name) (hfresh : random ∉ used) :
    InForce rt (used ++ [random]) (live ++ [⟨cleanName name, random, now⟩]) := by
  have hall : ∀ {p : Live → Prop}, (∀ l ∈ live, p l) → p ⟨cleanName name, random, now⟩ →
      ∀ l ∈ live ++ [⟨cleanName name, random, now⟩], p l := by
    intro p hold hnew l hl
    rcases List.mem_append.mp hl with hl | hl
    · exact hold l hl
    · rw [List.mem_singleton.mp hl]
      exact hnew
  constructor
  · exact hall h.clean (cleanName_cleanName name)
  · exact hall h.named hne
  · exact hall h.short hshort
  · rw [List.map_append, List.map_singleton, nameKey_cleanName, List.nodup_append]
    refine ⟨h.keys, List.nodup_singleton _, ?_⟩
    intro a ha b hb
    obtain ⟨l, hl, rfl⟩ := List.mem_map.mp ha
    rw [List.mem_singleton.mp hb]
    exact hkey l hl
  · rw [List.map_append, List.map_singleton, List.nodup_append]
    refine ⟨h.randoms, List.nodup_singleton _, ?_⟩
    intro a ha b hb
    obtain ⟨l, hl, rfl⟩ := List.mem_map.mp ha
    rw [List.mem_singleton.mp hb]
    intro heq
    have hused := h.used l hl
    rw [heq] at hused
    exact hfresh hused
  · exact hall (fun l hl => List.mem_append_left _ (h.used l hl))
      (List.mem_append_right _ List.mem_cons_self)

theorem InForce.wellFormed (hlength : Sha256Length rt) (h : InForce rt used live) :
    ∀ e ∈ live.map (Live.entry rt), WellFormed e := by
  intro e he
  obtain ⟨l, hl, rfl⟩ := List.mem_map.mp he
  exact ⟨h.clean l hl, h.named l hl, h.short l hl, isTokenHash_tokenDigest hlength l.random⟩

theorem InForce.digests (hapart : DigestsApart rt used) (h : InForce rt used live) :
    ((live.map (Live.entry rt)).map (·.tokenHash)).Nodup := by
  rw [List.map_map]
  have hcomp : live.map ((·.tokenHash) ∘ Live.entry rt) =
      (live.map Live.random).map (tokenDigest rt) := by
    rw [List.map_map]
    rfl
  rw [hcomp]
  apply h.randoms.map_on
  intro a ha b hb heq
  obtain ⟨l, hl, rfl⟩ := List.mem_map.mp ha
  obtain ⟨m, hm, rfl⟩ := List.mem_map.mp hb
  exact hapart _ (h.used l hl) _ (h.used m hm) heq

theorem InForce.parse (hlength : Sha256Length rt) (hapart : DigestsApart rt used)
    (h : InForce rt used live) :
    parseRegistry rt (fileOf (live.map (Live.entry rt))) = .ok ⟨live.map (Live.entry rt)⟩ := by
  apply parseRegistry_fileOf (h.wellFormed hlength) _ (h.digests hapart)
  rw [List.map_map]
  exact h.keys

theorem InForce.write (hlength : Sha256Length rt) (hapart : DigestsApart rt used)
    (h : InForce rt used live) :
    writeAtomic rt (live.map (Live.entry rt)) = .ok (fileOf (live.map (Live.entry rt))) := by
  rw [writeAtomic, h.parse hlength hapart]
  rfl

/-! ## One command -/

def liveOthers (rt : Runtime) (key : Str) (live : List Live) : List Live :=
  live.filter fun l => nameKey rt l.name ≠ key

theorem others_entries (key : Str) (live : List Live) :
    others rt key (live.map (Live.entry rt)) = (liveOthers rt key live).map (Live.entry rt) := by
  rw [others, liveOthers, List.filter_map]
  rfl

theorem mem_liveOthers {key : Str} {l : Live} :
    l ∈ liveOthers rt key live ↔ l ∈ live ∧ nameKey rt l.name ≠ key := by
  simp [liveOthers]

/-- The file holds the tokens in force. -/
structure Holds (rt : Runtime) (used : List UrlsafeText) (file : Option Json)
    (live : List Live) : Prop where
  parsed : currentRegistry rt file = .ok ⟨live.map (Live.entry rt)⟩
  inForce : InForce rt used live

/-- What a command leaves in force after others that left `live`: the tokens, the reviewers that
have one, and what it reports. -/
structure StepEffect (rt : Runtime) (past : List Command) (c : Command) (outcome : Outcome)
    (live live' : List Live) : Prop where
  pairs : ∀ n t, (∃ l ∈ live', l.name = n ∧ generateToken l.random = t) ↔
    Issues rt past c n t ∨
      ((∃ l ∈ live, l.name = n ∧ generateToken l.random = t) ∧ ¬ Ends rt c (nameKey rt n))
  keys : ∀ key, (∃ l ∈ live', nameKey rt l.name = key) ↔
    Adds rt c key ∨ ((∃ l ∈ live, nameKey rt l.name = key) ∧ ¬ Removes rt c key)
  issued : ∀ t, outcome = .issued t ↔ ∃ n, Issues rt past c n t
  removed : outcome = .removed ↔ ∃ name, c = .remove name ∧ Registered rt past (nameKey rt name)

/-- The reviewers with a token in force are the registered ones. -/
def Matches (rt : Runtime) (past : List Command) (live : List Live) : Prop :=
  ∀ key, (∃ l ∈ live, nameKey rt l.name = key) ↔ Registered rt past key

section
variable {past : List Command} {name now : Str} {replace : Bool} {random : UrlsafeText}

theorem adds_add_iff {key : Str} :
    Adds rt (.add name replace random now) key ↔ ValidName name ∧ nameKey rt name = key := by
  constructor
  · intro h
    rcases h with ⟨name', replace', random', now', hc, hvalid, hkey⟩
    cases hc
    exact ⟨hvalid, hkey⟩
  · intro h
    exact ⟨name, replace, random, now, rfl, h.1, h.2⟩

theorem ends_add_iff {key : Str} :
    Ends rt (.add name replace random now) key ↔
      replace = true ∧ ValidName name ∧ nameKey rt name = key := by
  constructor
  · intro h
    rcases h with ⟨name', random', now', hc, hvalid, hkey⟩ | ⟨name', hc, -⟩
    · cases hc
      exact ⟨rfl, hvalid, hkey⟩
    · cases hc
  · intro h
    rcases h with ⟨rfl, hvalid, hkey⟩
    exact .inl ⟨name, random, now, rfl, hvalid, hkey⟩

theorem issues_add_iff {n t : Str} :
    Issues rt past (.add name replace random now) n t ↔
      ValidName name ∧ (replace = true ∨ ¬ Registered rt past (nameKey rt name)) ∧
        n = cleanName name ∧ t = generateToken random := by
  constructor
  · intro h
    rcases h with ⟨name', replace', random', now', hc, h⟩
    cases hc
    exact h
  · intro h
    exact ⟨name, replace, random, now, rfl, h⟩

theorem not_removes_add {key : Str} : ¬ Removes rt (.add name replace random now) key := by
  intro h
  rcases h with ⟨name', hc, -⟩
  cases hc

theorem removes_remove_iff {key : Str} :
    Removes rt (.remove name) key ↔ nameKey rt name = key := by
  constructor
  · intro h
    rcases h with ⟨name', hc, hkey⟩
    cases hc
    exact hkey
  · intro h
    exact ⟨name, rfl, h⟩

theorem ends_remove_iff {key : Str} : Ends rt (.remove name) key ↔ nameKey rt name = key := by
  rw [← removes_remove_iff]
  refine or_iff_right ?_
  intro h
  rcases h with ⟨name', random', now', hc, -⟩
  cases hc

theorem not_issues_remove {n t : Str} : ¬ Issues rt past (.remove name) n t := by
  intro h
  rcases h with ⟨name', replace', random', now', hc, -⟩
  cases hc

theorem not_adds_remove {key : Str} : ¬ Adds rt (.remove name) key := by
  intro h
  rcases h with ⟨name', replace', random', now', hc, -⟩
  cases hc

/-- An `add` with an invalid name, or for a registered reviewer without `--replace`, changes no
token. -/
theorem StepEffect.refused {e : TokensError} (hmatches : Matches rt past live)
    (h : ValidName name → replace = false ∧ Registered rt past (nameKey rt name)) :
    StepEffect rt past (.add name replace random now) (.refused e) live live where
  pairs := by
    intro n t
    have hissues : ¬ Issues rt past (.add name replace random now) n t := by
      rw [issues_add_iff]
      intro hissues
      rcases h hissues.1 with ⟨hreplace, hregistered⟩
      rcases hissues.2.1 with htrue | hnone
      · rw [hreplace] at htrue
        cases htrue
      · exact hnone hregistered
    have hends : ¬ Ends rt (.add name replace random now) (nameKey rt n) := by
      rw [ends_add_iff]
      intro hends
      rw [(h hends.2.1).1] at hends
      cases hends.1
    rw [or_iff_right hissues, and_iff_left hends]
  keys := by
    intro key
    rw [adds_add_iff, and_iff_left not_removes_add]
    refine (or_iff_right_of_imp ?_).symm
    intro hadds
    rw [hmatches, ← hadds.2]
    exact (h hadds.1).2
  issued := by
    intro t
    refine iff_of_false (fun hrefused => by cases hrefused) ?_
    intro hissues
    rcases hissues with ⟨n, hissues⟩
    rw [issues_add_iff] at hissues
    rcases h hissues.1 with ⟨hreplace, hregistered⟩
    rcases hissues.2.1 with htrue | hnone
    · rw [hreplace] at htrue
      cases htrue
    · exact hnone hregistered
  removed := by
    refine iff_of_false (fun hrefused => by cases hrefused) ?_
    intro hremove
    rcases hremove with ⟨name', hc, -⟩
    cases hc

/-- An `add` with a valid name issues a token if it replaces one or its reviewer has none. -/
theorem StepEffect.issue (hmatches : Matches rt past live) (hvalid : ValidName name)
    (hfree : replace = true ∨ ¬ Registered rt past (nameKey rt name)) :
    StepEffect rt past (.add name replace random now) (.issued (generateToken random)) live
      (liveOthers rt (nameKey rt name) live ++ [⟨cleanName name, random, now⟩]) where
  pairs := by
    intro n t
    rw [issues_add_iff, ends_add_iff]
    constructor
    · intro h
      rcases h with ⟨l, hl, hname, htoken⟩
      rcases List.mem_append.mp hl with hl | hl
      · rcases mem_liveOthers.mp hl with ⟨hl, hkey⟩
        refine .inr ⟨⟨l, hl, hname, htoken⟩, ?_⟩
        intro hends
        rw [← hname] at hends
        exact hkey hends.2.2.symm
      · rw [List.mem_singleton.mp hl] at hname htoken
        exact .inl ⟨hvalid, hfree, hname.symm, htoken.symm⟩
    · intro h
      rcases h with ⟨-, -, hname, htoken⟩ | ⟨⟨l, hl, hname, htoken⟩, hends⟩
      · exact ⟨_, List.mem_append_right _ List.mem_cons_self, hname.symm, htoken.symm⟩
      · refine ⟨l, List.mem_append_left _ (mem_liveOthers.mpr ⟨hl, ?_⟩), hname, htoken⟩
        intro hkey
        rcases hfree with hreplace | hnone
        · exact hends ⟨hreplace, hvalid, by rw [← hname, hkey]⟩
        · exact hnone ((hmatches _).mp ⟨l, hl, hkey⟩)
  keys := by
    intro key
    rw [adds_add_iff, and_iff_left not_removes_add]
    constructor
    · intro h
      rcases h with ⟨l, hl, hkey⟩
      rcases List.mem_append.mp hl with hl | hl
      · exact .inr ⟨l, (mem_liveOthers.mp hl).1, hkey⟩
      · rw [List.mem_singleton.mp hl, nameKey_cleanName] at hkey
        exact .inl ⟨hvalid, hkey⟩
    · intro h
      have hnew : nameKey rt name = key →
          ∃ l ∈ liveOthers rt (nameKey rt name) live ++ [⟨cleanName name, random, now⟩],
            nameKey rt l.name = key := by
        intro hkey
        refine ⟨_, List.mem_append_right _ List.mem_cons_self, ?_⟩
        rw [nameKey_cleanName]
        exact hkey
      rcases h with ⟨-, hkey⟩ | ⟨l, hl, hkey⟩
      · exact hnew hkey
      · by_cases hsame : nameKey rt name = key
        · exact hnew hsame
        · refine ⟨l, List.mem_append_left _ (mem_liveOthers.mpr ⟨hl, ?_⟩), hkey⟩
          rw [hkey]
          exact Ne.symm hsame
  issued := by
    intro t
    constructor
    · intro h
      injection h with htoken
      exact ⟨cleanName name, issues_add_iff.mpr ⟨hvalid, hfree, rfl, htoken.symm⟩⟩
    · intro h
      rcases h with ⟨n, h⟩
      rw [(issues_add_iff.mp h).2.2.2]
  removed := by
    refine iff_of_false (fun hissued => by cases hissued) ?_
    intro hremove
    rcases hremove with ⟨name', hc, -⟩
    cases hc

/-- A `remove` leaves the tokens of the other reviewers. -/
theorem StepEffect.remove {outcome : Outcome} (hmatches : Matches rt past live)
    (hissued : ∀ t, outcome ≠ .issued t)
    (hremoved : outcome = .removed ↔ ∃ l ∈ live, nameKey rt l.name = nameKey rt name) :
    StepEffect rt past (.remove name) outcome live (liveOthers rt (nameKey rt name) live) where
  pairs := by
    intro n t
    rw [or_iff_right not_issues_remove, ends_remove_iff]
    constructor
    · intro h
      rcases h with ⟨l, hl, hname, htoken⟩
      rcases mem_liveOthers.mp hl with ⟨hl, hkey⟩
      refine ⟨⟨l, hl, hname, htoken⟩, ?_⟩
      rw [← hname]
      exact Ne.symm hkey
    · intro h
      rcases h with ⟨⟨l, hl, hname, htoken⟩, hkey⟩
      refine ⟨l, mem_liveOthers.mpr ⟨hl, ?_⟩, hname, htoken⟩
      rw [hname]
      exact Ne.symm hkey
  keys := by
    intro key
    rw [or_iff_right not_adds_remove, removes_remove_iff]
    constructor
    · intro h
      rcases h with ⟨l, hl, hkey⟩
      rcases mem_liveOthers.mp hl with ⟨hl, hother⟩
      refine ⟨⟨l, hl, hkey⟩, ?_⟩
      rw [← hkey]
      exact Ne.symm hother
    · intro h
      rcases h with ⟨⟨l, hl, hkey⟩, hother⟩
      refine ⟨l, mem_liveOthers.mpr ⟨hl, ?_⟩, hkey⟩
      rw [hkey]
      exact Ne.symm hother
  issued := by
    intro t
    refine iff_of_false (hissued t) ?_
    intro h
    rcases h with ⟨n, h⟩
    exact not_issues_remove h
  removed := by
    rw [hremoved, hmatches]
    constructor
    · intro h
      exact ⟨name, rfl, h⟩
    · intro h
      rcases h with ⟨name', hc, h⟩
      cases hc
      exact h

end

def Command.randoms : Command → List UrlsafeText
  | .add _ _ random _ => [random]
  | .remove _ => []

/-- An `add` whose name is invalid, or whose reviewer has a token it does not replace, is refused. -/
theorem addReviewer_refused {file : Option Json} {name : Str} {replace : Bool}
    (random : UrlsafeText) (now : Str) (h : Holds rt used file live)
    (hno : ¬ (ValidName name ∧
      (replace = true ∨ ¬ ∃ l ∈ live, nameKey rt l.name = nameKey rt name))) :
    ∃ e, addReviewer rt file name replace random now = .error e := by
  unfold addReviewer
  dsimp only
  by_cases hne : cleanName name = []
  · exact ⟨_, by rw [if_pos hne]; rfl⟩
  by_cases hlong : maxNameLength < (cleanName name).length
  · exact ⟨_, by rw [if_neg hne, if_pos hlong]; rfl⟩
  have hvalid : ValidName name := ⟨hne, Nat.le_of_not_lt hlong⟩
  rw [if_neg hne, if_neg hlong, h.parsed]
  dsimp only [Except.bind]
  cases hfind : (live.map (Live.entry rt)).find?
      (nameKey rt ·.name = nameKey rt (cleanName name)) with
  | none =>
      refine absurd ⟨hvalid, .inr ?_⟩ hno
      intro hheld
      rcases hheld with ⟨l, hl, hkey⟩
      have hnot := List.find?_eq_none.mp hfind _ (List.mem_map_of_mem hl)
      rw [nameKey_cleanName] at hnot
      exact hnot (decide_eq_true hkey)
  | some existing =>
      cases replace with
      | false => exact ⟨_, rfl⟩
      | true => exact absurd ⟨hvalid, .inl rfl⟩ hno

/-- An `add` that is not refused writes the tokens of the other reviewers and the new one. -/
theorem addReviewer_issued {file : Option Json} {name : Str} {replace : Bool}
    {random : UrlsafeText} (now : Str) (hlength : Sha256Length rt)
    (hapart : DigestsApart rt (used ++ [random])) (hfresh : random ∉ used)
    (h : Holds rt used file live) (hvalid : ValidName name)
    (hfree : replace = true ∨ ¬ ∃ l ∈ live, nameKey rt l.name = nameKey rt name) :
    InForce rt (used ++ [random])
        (liveOthers rt (nameKey rt name) live ++ [⟨cleanName name, random, now⟩]) ∧
      addReviewer rt file name replace random now =
        .ok (generateToken random, fileOf ((liveOthers rt (nameKey rt name) live ++
          [Live.mk (cleanName name) random now]).map (Live.entry rt))) := by
  have hforce : InForce rt (used ++ [random])
      (liveOthers rt (nameKey rt name) live ++ [⟨cleanName name, random, now⟩]) := by
    apply (h.inForce.filter _).concat hvalid.1 hvalid.2 _ hfresh
    intro l hl
    exact (mem_liveOthers.mp hl).2
  refine ⟨hforce, ?_⟩
  have hwrite : (hashToken rt (generateToken random)).bind (fun tokenHash =>
      (writeAtomic rt (others rt (nameKey rt (cleanName name)) (live.map (Live.entry rt)) ++
        [ReviewerEntry.mk (cleanName name) tokenHash now])).map fun data =>
          (generateToken random, data)) =
      .ok (generateToken random, fileOf ((liveOthers rt (nameKey rt name) live ++
        [Live.mk (cleanName name) random now]).map (Live.entry rt))) := by
    have hentries := hforce.write hlength hapart
    rw [List.map_append, List.map_singleton, Live.entry] at hentries
    rw [hashToken_generateToken, nameKey_cleanName, others_entries]
    dsimp only [Except.bind]
    rw [hentries, List.map_append, List.map_singleton, Live.entry]
    rfl
  unfold addReviewer
  dsimp only
  rw [if_neg hvalid.1, if_neg (Nat.not_lt.mpr hvalid.2), h.parsed]
  dsimp only [Except.bind]
  cases hfind : (live.map (Live.entry rt)).find?
      (nameKey rt ·.name = nameKey rt (cleanName name)) with
  | none => exact hwrite
  | some existing =>
      cases replace with
      | true => exact hwrite
      | false =>
          rcases hfree with htrue | hnone
          · cases htrue
          · have hmem := List.mem_of_find?_eq_some hfind
            have hkey := List.find?_some hfind
            rcases List.mem_map.mp hmem with ⟨l, hl, rfl⟩
            refine absurd ⟨l, hl, ?_⟩ hnone
            rw [← nameKey_cleanName name]
            exact of_decide_eq_true hkey

theorem length_others_eq_iff {key : Str} :
    (others rt key (live.map (Live.entry rt))).length = (live.map (Live.entry rt)).length ↔
      ¬ ∃ l ∈ live, nameKey rt l.name = key := by
  rw [others_entries, List.length_map, List.length_map, liveOthers, List.length_filter_eq_length_iff]
  simp

/-- Each command leaves a file that holds the tokens in force after it. -/
theorem runCommand_effect {file : Option Json} {past : List Command}
    (hlength : Sha256Length rt) (c : Command) (hapart : DigestsApart rt (used ++ c.randoms))
    (hfresh : ∀ r ∈ c.randoms, r ∉ used) (h : Holds rt used file live)
    (hmatches : Matches rt past live) :
    ∃ live', Holds rt (used ++ c.randoms) (runCommand rt file c).2 live' ∧
      StepEffect rt past c (runCommand rt file c).1 live live' := by
  have hmono : InForce rt (used ++ c.randoms) live :=
    h.inForce.mono (List.subset_append_left used c.randoms)
  cases c with
  | add name replace random now =>
      by_cases hissue : ValidName name ∧
          (replace = true ∨ ¬ ∃ l ∈ live, nameKey rt l.name = nameKey rt name)
      · rcases addReviewer_issued now hlength hapart (hfresh random List.mem_cons_self) h hissue.1
          hissue.2 with ⟨hforce, hadd⟩
        rw [runCommand, hadd]
        refine ⟨_, ⟨hforce.parse hlength hapart, hforce⟩, ?_⟩
        apply StepEffect.issue hmatches hissue.1
        rw [← hmatches]
        exact hissue.2
      · rcases addReviewer_refused random now h hissue with ⟨e, hadd⟩
        rw [runCommand, hadd]
        refine ⟨live, ⟨h.parsed, hmono⟩, StepEffect.refused hmatches ?_⟩
        intro hvalid
        rw [← hmatches]
        by_cases hheld : ∃ l ∈ live, nameKey rt l.name = nameKey rt name
        · refine ⟨?_, hheld⟩
          by_contra hreplace
          exact hissue ⟨hvalid, .inl (Bool.eq_true_of_not_eq_false hreplace)⟩
        · exact absurd ⟨hvalid, .inr hheld⟩ hissue
  | remove name =>
      have hremove : removeReviewer rt file name =
          if (others rt (nameKey rt name) (live.map (Live.entry rt))).length =
              (live.map (Live.entry rt)).length then .ok none
          else (writeAtomic rt (others rt (nameKey rt name) (live.map (Live.entry rt)))).map
            some := by
        rw [removeReviewer, h.parsed]
        rfl
      have hused : used ++ (Command.remove name).randoms = used := List.append_nil used
      rw [hused] at hapart ⊢
      by_cases hheld : ∃ l ∈ live, nameKey rt l.name = nameKey rt name
      · have hforce : InForce rt used (liveOthers rt (nameKey rt name) live) := h.inForce.filter _
        have hrun : runCommand rt file (.remove name) = (.removed,
            some (fileOf ((liveOthers rt (nameKey rt name) live).map (Live.entry rt)))) := by
          rw [runCommand, hremove, if_neg (by rw [length_others_eq_iff]; exact not_not.mpr hheld),
            others_entries, hforce.write hlength hapart]
          rfl
        rw [hrun]
        refine ⟨_, ⟨hforce.parse hlength hapart, hforce⟩, ?_⟩
        exact StepEffect.remove hmatches (fun t ht => by cases ht) (iff_of_true rfl hheld)
      · have hrun : runCommand rt file (.remove name) = (.noToken, file) := by
          rw [runCommand, hremove, if_pos (length_others_eq_iff.mpr hheld)]
        have hall : liveOthers rt (nameKey rt name) live = live := by
          rw [liveOthers, List.filter_eq_self]
          intro l hl
          exact decide_eq_true fun hkey => hheld ⟨l, hl, hkey⟩
        rw [hrun]
        refine ⟨live, ⟨h.parsed, h.inForce⟩, ?_⟩
        have heffect : StepEffect rt past (.remove name) .noToken live
            (liveOthers rt (nameKey rt name) live) :=
          StepEffect.remove hmatches (fun t ht => by cases ht)
            (iff_of_false (fun ht => by cases ht) hheld)
        rw [hall] at heffect
        exact heffect

/-! ## Runs of commands -/

def randomsOf (commands : List Command) : List UrlsafeText := commands.flatMap Command.randoms

def fileAfter (rt : Runtime) (start : Option Json) (commands : List Command) : Option Json :=
  LabelledRun.final (runCommand rt) start commands

theorem randomsOf_append {p q : List Command} :
    randomsOf (p ++ q) = randomsOf p ++ randomsOf q := List.flatMap_append

/-- A run from an empty registry leaves a file that holds the current tokens. -/
theorem run_holds (hlength : Sha256Length rt) {start : Option Json}
    (hempty : currentRegistry rt start = .ok ⟨[]⟩) (commands : List Command)
    (hapart : DigestsApart rt (randomsOf commands)) (hfresh : (randomsOf commands).Nodup) :
    ∃ live, Holds rt (randomsOf commands) (fileAfter rt start commands) live ∧
      Matches rt commands live ∧
      ∀ n t, (∃ l ∈ live, l.name = n ∧ generateToken l.random = t) ↔ Current rt commands n t := by
  induction commands using List.reverseRecOn with
  | nil =>
      refine ⟨[], ⟨hempty, inForce_nil⟩, ?_, ?_⟩
      · intro key
        exact iff_of_false (by simp) not_since_nil
      · intro n t
        exact iff_of_false (by simp) not_since_nil
  | append_singleton commands c ih =>
      have hsplit : randomsOf (commands ++ [c]) = randomsOf commands ++ c.randoms := by
        simp [randomsOf]
      rw [hsplit] at hapart hfresh ⊢
      rcases List.nodup_append.mp hfresh with ⟨hbefore, -, hdisjoint⟩
      rcases ih
        (fun a ha b hb => hapart a (List.mem_append_left _ ha) b (List.mem_append_left _ hb))
        hbefore with ⟨live, hholds, hmatches, hcurrent⟩
      rcases runCommand_effect hlength c hapart (fun r hr hused => hdisjoint r hused r hr rfl)
        hholds hmatches with ⟨live', hholds', heffect⟩
      refine ⟨live', ?_, ?_, ?_⟩
      · rw [fileAfter, LabelledRun.final_append]
        exact hholds'
      · intro key
        rw [heffect.keys, hmatches, registered_concat_iff]
      · intro n t
        rw [heffect.pairs, hcurrent, current_concat_iff]

def HashApart (rt : Runtime) (tokens : List Str) : Prop :=
  ∀ a ∈ tokens, ∀ b ∈ tokens, hashToken rt a = hashToken rt b → a = b

theorem digestsApart_of_hashApart {randoms : List UrlsafeText}
    (h : HashApart rt (randoms.map generateToken)) : DigestsApart rt randoms := by
  intro a ha b hb heq
  apply generateToken_injective
  apply h _ (List.mem_map_of_mem ha) _ (List.mem_map_of_mem hb)
  rw [hashToken_generateToken, hashToken_generateToken, heq]

/-- A token authenticates as the name it is in force for. -/
theorem Holds.authenticate_iff {file : Option Json} {t n : Str}
    (hapart : HashApart rt (t :: used.map generateToken)) (h : Holds rt used file live) :
    authenticate rt ⟨live.map (Live.entry rt)⟩ (some t) = .ok (some n) ↔
      ∃ l ∈ live, l.name = n ∧ generateToken l.random = t := by
  have hissued : HashApart rt (used.map generateToken) := fun a ha b hb =>
    hapart a (List.mem_cons_of_mem t ha) b (List.mem_cons_of_mem t hb)
  have hascii : ∀ e ∈ live.map (Live.entry rt), isAscii e.tokenHash = true := by
    intro e he
    obtain ⟨l, -, rfl⟩ := List.mem_map.mp he
    exact isAscii_tokenDigest l.random
  have hdigests := h.inForce.digests (digestsApart_of_hashApart hissued)
  unfold authenticate
  rw [Option.getD_some]
  dsimp only
  by_cases hrange : t = [] ∨ maxTokenLength < t.length
  · rw [if_pos hrange]
    apply iff_of_false
    · intro heq
      cases heq
    · intro hlive
      obtain ⟨l, -, -, rfl⟩ := hlive
      have hlength := length_generateToken l.random
      rcases hrange with hnil | hlong
      · rw [hnil] at hlength
        cases hlength
      · rw [hlength] at hlong
        exact absurd hlong (by decide)
  · rw [if_neg hrange]
    cases hhash : hashToken rt t with
    | error e =>
        apply iff_of_false
        · intro heq
          cases heq
        · intro hlive
          obtain ⟨l, -, -, rfl⟩ := hlive
          rw [hashToken_generateToken] at hhash
          cases hhash
    | ok provided =>
        dsimp only [Except.bind]
        rw [lookup_eq_ok_iff hascii hdigests]
        constructor
        · intro hfound
          rcases hfound with ⟨e, he, hsame, hname⟩ | ⟨hnone, -⟩
          · obtain ⟨l, hl, rfl⟩ := List.mem_map.mp he
            refine ⟨l, hl, hname, ?_⟩
            have hmem : generateToken l.random ∈ used.map generateToken :=
              List.mem_map_of_mem (h.inForce.used l hl)
            apply hapart _ (List.mem_cons_of_mem t hmem) t List.mem_cons_self
            rw [hashToken_generateToken, hhash]
            exact congrArg Except.ok hsame
          · cases hnone
        · intro hlive
          obtain ⟨l, hl, hname, rfl⟩ := hlive
          rw [hashToken_generateToken] at hhash
          exact .inl ⟨_, List.mem_map_of_mem hl, by injection hhash, hname⟩

end

/-- The registry after any sequence of commands, when the random texts are fresh and the digests
tell the tokens apart: it parses, its names have different keys, and a token authenticates as a name
exactly when it is the current one of that name.  Along the way each command reports a token when it
issues one, and a removal when its reviewer is registered. -/
theorem registry_of_commands (rt : Runtime) (hlength : Sha256Length rt) (start : Option Json)
    (hempty : currentRegistry rt start = .ok ⟨[]⟩) (commands : List Command)
    (hfresh : (randomsOf commands).Nodup)
    (hapart : HashApart rt ((randomsOf commands).map generateToken)) :
    (∃ registry,
      currentRegistry rt (fileAfter rt start commands) = .ok registry ∧
      (registry.entries.map fun e => nameKey rt e.name).Nodup ∧
      ∀ t n, HashApart rt (t :: (randomsOf commands).map generateToken) →
        (authenticate rt registry (some t) = .ok (some n) ↔ Current rt commands n t)) ∧
    ∀ past c later, commands = past ++ c :: later →
      (∀ t, (runCommand rt (fileAfter rt start past) c).1 = .issued t ↔
        ∃ n, Issues rt past c n t) ∧
      ((runCommand rt (fileAfter rt start past) c).1 = .removed ↔
        ∃ name, c = .remove name ∧ Registered rt past (nameKey rt name)) := by
  have hdigests := digestsApart_of_hashApart hapart
  constructor
  · rcases run_holds hlength hempty commands hdigests hfresh with ⟨live, hholds, -, hcurrent⟩
    refine ⟨_, hholds.parsed, ?_, ?_⟩
    · rw [List.map_map]
      exact hholds.inForce.keys
    · intro t n hapart'
      rw [hholds.authenticate_iff hapart', hcurrent]
  · intro past c later hcommands
    have hrandoms : randomsOf commands = randomsOf past ++ (c.randoms ++ randomsOf later) := by
      rw [hcommands, randomsOf_append]
      rfl
    rw [hrandoms] at hdigests hfresh
    rcases List.nodup_append.mp hfresh with ⟨hpast, -, hdisjoint⟩
    rcases run_holds hlength hempty past
      (fun a ha b hb => hdigests a (List.mem_append_left _ ha) b (List.mem_append_left _ hb))
      hpast with ⟨live, hholds, hmatches, -⟩
    have hstep : ∀ a, a ∈ randomsOf past ++ c.randoms →
        a ∈ randomsOf past ++ (c.randoms ++ randomsOf later) := by
      intro a ha
      rw [← List.append_assoc]
      exact List.mem_append_left _ ha
    rcases runCommand_effect hlength c
      (fun a ha b hb => hdigests a (hstep a ha) b (hstep b hb))
      (fun r hr hused => hdisjoint r hused r (List.mem_append_left _ hr) rfl) hholds hmatches with
      ⟨live', -, heffect⟩
    exact ⟨heffect.issued, heffect.removed⟩

namespace Sample

def endDigest (x : DigestInput) : Digest :=
  ⟨(x.message.reverse ++ List.replicate 32 0).take 32, by simp⟩

def tokenRuntime : Runtime := Runtime.ascii endDigest

theorem sha256Length_tokenRuntime : Sha256Length tokenRuntime := by
  intro data
  change ((data.reverse ++ List.replicate 32 0).take 32).length = 32
  rw [List.length_take, List.length_append, List.length_replicate]
  omega

def firstRandom : UrlsafeText := ⟨List.replicate 43 65, by decide, by decide⟩
def secondRandom : UrlsafeText := ⟨List.replicate 43 66, by decide, by decide⟩
def thirdRandom : UrlsafeText := ⟨List.replicate 43 67, by decide, by decide⟩

/-- A token is replaced and one is removed, each under another spelling of the name. -/
def commands : List Command :=
  [.add (lit "Alice Example") false firstRandom (lit "2026-01-01T00:00:00+00:00"),
    .add (lit "Bob") false secondRandom (lit "2026-01-01T00:00:00+00:00"),
    .add (lit " alice  EXAMPLE") true thirdRandom (lit "2026-01-02T00:00:00+00:00"),
    .remove (lit "BOB")]

end Sample

open Sample in
/-- The registry of those commands. -/
theorem registry_of_commands_sample :
    (∃ registry,
      currentRegistry tokenRuntime (fileAfter tokenRuntime none commands) = .ok registry ∧
      (registry.entries.map fun e => nameKey tokenRuntime e.name).Nodup ∧
      ∀ t n, HashApart tokenRuntime (t :: (randomsOf commands).map generateToken) →
        (authenticate tokenRuntime registry (some t) = .ok (some n) ↔
          Current tokenRuntime commands n t)) ∧
    ∀ past c later, commands = past ++ c :: later →
      (∀ t, (runCommand tokenRuntime (fileAfter tokenRuntime none past) c).1 = .issued t ↔
        ∃ n, Issues tokenRuntime past c n t) ∧
      ((runCommand tokenRuntime (fileAfter tokenRuntime none past) c).1 = .removed ↔
        ∃ name, c = .remove name ∧ Registered tokenRuntime past (nameKey tokenRuntime name)) := by
  apply registry_of_commands tokenRuntime sha256Length_tokenRuntime none rfl commands
  · decide
  · unfold HashApart
    decide +kernel

end ReviewerTokens

end AuditSwarm
