import AuditSwarm.Lib.Returns
import AuditSwarm.Model.ReviewerTokens

/-!
# The tokens file

What the commands write is what the parser accepts: an entry with a clean name and a digest, no
two with one name key or one digest.
-/

namespace AuditSwarm

open Python

namespace ReviewerTokens

section
variable {rt : Runtime}

/-! ## Names -/

theorem nameKey_cleanName (name : Str) : nameKey rt (cleanName name) = nameKey rt name := by
  unfold nameKey Policy.normaliseIdentity cleanName
  dsimp only
  rw [words_join_words]

theorem cleanName_cleanName (name : Str) : cleanName (cleanName name) = cleanName name := by
  unfold cleanName
  rw [words_join_words]

/-! ## Digests -/

def tokenDigest (rt : Runtime) (random : UrlsafeText) : Str :=
  lit "sha256:" ++ hexdigest (rt.sha256 ((encodeUtf8 (generateToken random)).getD [])).val

theorem encodable_generateToken (random : UrlsafeText) : Encodable (generateToken random) := by
  rw [generateToken, encodable_append]
  refine ⟨encodable_lit _, encodable_of_lt ?_⟩
  intro c hc
  have hascii := List.all_eq_true.mp random.ascii c hc
  simp only [decide_eq_true_eq] at hascii
  omega

theorem hashToken_generateToken (random : UrlsafeText) :
    hashToken rt (generateToken random) = .ok (tokenDigest rt random) := by
  obtain ⟨data, hdata⟩ := Option.isSome_iff_exists.mp (encodable_generateToken random)
  rw [hashToken, tokenDigest, hdata]
  rfl

theorem length_generateToken (random : UrlsafeText) : (generateToken random).length = 49 := by
  rw [generateToken, List.length_append, random.length_eq]
  rfl

theorem generateToken_injective : Function.Injective generateToken := by
  intro a b h
  have htext : a.text = b.text := List.append_cancel_left h
  cases a
  cases b
  simp only at htext
  subst htext
  rfl

theorem isHashDigit_hexdigest (b : Bytes) : (hexdigest b).all isHashDigit = true := by
  have hdigit : ∀ n, n < 16 → isHashDigit (hexDigit n) = true := by decide
  apply List.all_eq_true.mpr
  intro c hc
  obtain ⟨x, -, hx⟩ := List.mem_flatMap.mp hc
  have hlt : x.toNat < 256 := x.toNat_lt
  rcases List.mem_pair.mp hx with rfl | rfl
  · exact hdigit _ (by omega)
  · exact hdigit _ (by omega)

theorem length_hexdigest (b : Bytes) : (hexdigest b).length = 2 * b.length := by
  induction b with
  | nil => rfl
  | cons x b ih =>
      have hcons : hexdigest (x :: b) =
          hexDigit (x.toNat / 16) :: hexDigit (x.toNat % 16) :: hexdigest b := rfl
      rw [hcons, List.length_cons, List.length_cons, List.length_cons, ih]
      omega

def Sha256Length (rt : Runtime) : Prop := ∀ data, (rt.sha256 data).val.length = 32

theorem isTokenHash_tokenDigest (hlength : Sha256Length rt) (random : UrlsafeText) :
    isTokenHash (tokenDigest rt random) = true := by
  have hhex := length_hexdigest (rt.sha256 ((encodeUtf8 (generateToken random)).getD [])).val
  rw [hlength] at hhex
  have hseven : (lit "sha256:").length = 7 := by decide
  have hpre : (lit "sha256:").isPrefixOf (tokenDigest rt random) = true :=
    List.isPrefixOf_iff_prefix.mpr (List.prefix_append _ _)
  have hdrop : (tokenDigest rt random).drop 7 =
      hexdigest (rt.sha256 ((encodeUtf8 (generateToken random)).getD [])).val := by
    rw [tokenDigest, ← hseven, List.drop_left]
  have htotal : (tokenDigest rt random).length = 71 := by
    rw [tokenDigest, List.length_append, hhex, hseven]
  rw [isTokenHash, hpre, hdrop, List.take_of_length_le (by omega), isHashDigit_hexdigest, htotal]
  rfl

theorem isAscii_tokenDigest (random : UrlsafeText) :
    isAscii (tokenDigest rt random) = true := by
  have hlit : isAscii (lit "sha256:") = true := by decide
  rw [tokenDigest, isAscii, List.all_append]
  exact Bool.and_eq_true_iff.mpr ⟨hlit, isAscii_hexdigest _⟩

/-! ## Parsing what is written -/

/-- An entry the parser reads back as it is. -/
structure WellFormed (e : ReviewerEntry) : Prop where
  clean : cleanName e.name = e.name
  named : e.name ≠ []
  short : e.name.length ≤ maxNameLength
  hash : isTokenHash e.tokenHash = true

theorem parseItem_itemOf {i : Nat} {names hashes : List Str} {e : ReviewerEntry}
    (h : WellFormed e) (hname : nameKey rt e.name ∉ names) (hhash : e.tokenHash ∉ hashes) :
    parseItem rt i names hashes (itemOf e) = .ok e := by
  have hget : Dict.get? [(lit "created_at", Json.str e.createdAt), (lit "name", Json.str e.name),
      (lit "token_hash", Json.str e.tokenHash)] (lit "name") = some (.str e.name) := by
    simp [Dict.get?_cons]
  have hget' : Dict.get? [(lit "created_at", Json.str e.createdAt), (lit "name", Json.str e.name),
      (lit "token_hash", Json.str e.tokenHash)] (lit "token_hash") = some (.str e.tokenHash) := by
    simp [Dict.get?_cons]
  have hget'' : Dict.get? [(lit "created_at", Json.str e.createdAt), (lit "name", Json.str e.name),
      (lit "token_hash", Json.str e.tokenHash)] (lit "created_at") = some (.str e.createdAt) := by
    simp [Dict.get?_cons]
  rw [itemOf, parseItem, hget, hget', hget'']
  have hclean : cleanField (some (.str e.name)) = e.name := h.clean
  simp only [hclean, if_neg h.named, if_neg (Nat.not_lt.mpr h.short), if_pos h.hash,
    if_neg hname, if_neg hhash]

theorem parseFrom_items {i : Nat} {names hashes : List Str} {entries : List ReviewerEntry}
    (h : ∀ e ∈ entries, WellFormed e)
    (hkeys : (entries.map fun e => nameKey rt e.name).Nodup)
    (hdigests : (entries.map (·.tokenHash)).Nodup)
    (hnames : ∀ e ∈ entries, nameKey rt e.name ∉ names)
    (hhashes : ∀ e ∈ entries, e.tokenHash ∉ hashes) :
    parseFrom rt i names hashes (entries.map itemOf) = .ok entries := by
  induction entries generalizing i names hashes with
  | nil => rfl
  | cons e entries ih =>
      rw [List.map_cons, List.nodup_cons] at hkeys hdigests
      have hitem : parseItem rt i names hashes (itemOf e) = .ok e :=
        parseItem_itemOf (h e List.mem_cons_self) (hnames e List.mem_cons_self)
          (hhashes e List.mem_cons_self)
      have hrest : parseFrom rt (i + 1) (nameKey rt e.name :: names) (e.tokenHash :: hashes)
          (entries.map itemOf) = .ok entries := by
        apply ih (fun d hd => h d (List.mem_cons_of_mem e hd)) hkeys.2 hdigests.2
        · intro d hd hmem
          rcases List.mem_cons.mp hmem with heq | hmem
          · exact hkeys.1 (List.mem_map.mpr ⟨d, hd, heq⟩)
          · exact hnames d (List.mem_cons_of_mem e hd) hmem
        · intro d hd hmem
          rcases List.mem_cons.mp hmem with heq | hmem
          · exact hdigests.1 (List.mem_map.mpr ⟨d, hd, heq⟩)
          · exact hhashes d (List.mem_cons_of_mem e hd) hmem
      rw [List.map_cons, parseFrom, hitem]
      dsimp only [Except.bind]
      rw [hrest]
      rfl

theorem parseRegistry_fileOf {entries : List ReviewerEntry} (h : ∀ e ∈ entries, WellFormed e)
    (hkeys : (entries.map fun e => nameKey rt e.name).Nodup)
    (hdigests : (entries.map (·.tokenHash)).Nodup) :
    parseRegistry rt (fileOf entries) = .ok ⟨entries⟩ := by
  have hversion : Dict.get? [(lit "reviewers", Json.arr (entries.map itemOf)),
      (lit "version", Json.int 1)] (lit "version") = some (.int 1) := by
    simp [Dict.get?_cons]
  have hreviewers : Dict.get? [(lit "reviewers", Json.arr (entries.map itemOf)),
      (lit "version", Json.int 1)] (lit "reviewers") = some (.arr (entries.map itemOf)) := by
    simp [Dict.get?_cons]
  have hparse : parseFrom rt 0 [] [] (entries.map itemOf) = .ok entries :=
    parseFrom_items h hkeys hdigests (fun _ _ => List.not_mem_nil) fun _ _ => List.not_mem_nil
  have hone : isFileVersion (some (.int 1)) = true := by decide
  rw [fileOf, parseRegistry, hversion, hreviewers, if_pos hone]
  dsimp only
  rw [hparse]
  rfl

/-! ## Lookup -/

/-- The lookup finds the name of the entry with the digest. -/
theorem lookup_eq_ok_iff {provided n : Str} {found : Option Str} {entries : List ReviewerEntry}
    (hascii : ∀ e ∈ entries, isAscii e.tokenHash = true)
    (hdigests : (entries.map (·.tokenHash)).Nodup) :
    lookup provided found entries = .ok (some n) ↔
      (∃ e ∈ entries, e.tokenHash = provided ∧ e.name = n) ∨
        (found = some n ∧ ∀ e ∈ entries, e.tokenHash ≠ provided) := by
  induction entries generalizing found with
  | nil => simp [lookup]
  | cons e entries ih =>
      rw [List.map_cons, List.nodup_cons] at hdigests
      rw [lookup, if_pos (hascii e List.mem_cons_self),
        ih (fun d hd => hascii d (List.mem_cons_of_mem e hd)) hdigests.2]
      by_cases heq : provided = e.tokenHash
      · have hothers : ∀ d ∈ entries, d.tokenHash ≠ provided := by
          intro d hd hsame
          exact hdigests.1 (List.mem_map.mpr ⟨d, hd, hsame.trans heq⟩)
        rw [if_pos heq]
        constructor
        · intro h
          rcases h with ⟨d, hd, hsame, -⟩ | ⟨hname, -⟩
          · exact absurd hsame (hothers d hd)
          · exact .inl ⟨e, List.mem_cons_self, heq.symm, Option.some.inj hname⟩
        · intro h
          rcases h with ⟨d, hd, hsame, hname⟩ | ⟨-, hnone⟩
          · rcases List.mem_cons.mp hd with rfl | hd
            · exact .inr ⟨by rw [hname], hothers⟩
            · exact absurd hsame (hothers d hd)
          · exact absurd heq.symm (hnone e List.mem_cons_self)
      · rw [if_neg heq]
        constructor
        · intro h
          rcases h with ⟨d, hd, hsame⟩ | ⟨hname, hnone⟩
          · exact .inl ⟨d, List.mem_cons_of_mem e hd, hsame⟩
          · refine .inr ⟨hname, ?_⟩
            intro d hd
            rcases List.mem_cons.mp hd with rfl | hd
            · exact Ne.symm heq
            · exact hnone d hd
        · intro h
          rcases h with ⟨d, hd, hsame, hname⟩ | ⟨hname, hnone⟩
          · rcases List.mem_cons.mp hd with rfl | hd
            · exact absurd hsame.symm heq
            · exact .inl ⟨d, hd, hsame, hname⟩
          · exact .inr ⟨hname, fun d hd => hnone d (List.mem_cons_of_mem e hd)⟩

end

end ReviewerTokens

end AuditSwarm
