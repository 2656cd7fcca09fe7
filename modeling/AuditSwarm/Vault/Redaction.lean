import AuditSwarm.Model.Vault

/-!
# What redaction changes

A redacted text is the text itself or shows the redaction mark, which no UUID contains; redacted
text and metadata can be encoded where the originals can.
-/

namespace AuditSwarm

open Python

namespace Evidence

variable {lib : VaultLibrary}

/-! ## Texts -/

/-- A text without the mark of a redaction was not redacted. -/
theorem redactFrom_eq_self {t : Str} {afterDigit : Bool}
    (h : (91 : CodePoint) ∉ redactFrom lib afterDigit 0 t) : redactFrom lib afterDigit 0 t = t := by
  induction t generalizing afterDigit with
  | nil => rfl
  | cons c t ih =>
      rw [redactFrom] at h ⊢
      split at h
      · simp only [List.mem_cons, not_or] at h
        rw [ih h.2]
      · exact absurd (List.mem_append_left _ (by decide)) h

theorem redactAccountIds_eq_self {t : Str} (h : (91 : CodePoint) ∉ redactAccountIds lib t) :
    redactAccountIds lib t = t :=
  redactFrom_eq_self h

theorem mem_of_mem_redactFrom {t : Str} {afterDigit : Bool} {skip : Nat} {c : CodePoint}
    (h : c ∈ redactFrom lib afterDigit skip t) : c ∈ redacted ∨ c ∈ t := by
  induction t generalizing afterDigit skip with
  | nil =>
      cases skip with
      | zero => cases h
      | succ skip => cases h
  | cons d t ih =>
      cases skip with
      | succ skip =>
          rw [redactFrom] at h
          exact (ih h).imp_right (List.mem_cons_of_mem d)
      | zero =>
          rw [redactFrom] at h
          split at h
          · rcases List.mem_cons.mp h with rfl | h
            · exact .inr List.mem_cons_self
            · exact (ih h).imp_right (List.mem_cons_of_mem d)
          · rcases List.mem_append.mp h with h | h
            · exact .inl h
            · exact (ih h).imp_right (List.mem_cons_of_mem d)

theorem encodable_redactAccountIds {t : Str} (h : Encodable t) :
    Encodable (redactAccountIds lib t) := by
  rw [encodable_iff] at h ⊢
  intro c hc
  rcases mem_of_mem_redactFrom hc with hc | hc
  · exact encodable_iff.mp (by decide) c hc
  · exact h c hc

/-! ## UUIDs -/

/-- Each character that tests were passed with passed one of them. -/
theorem mem_of_afterTests {tests : List (CodePoint → Bool)} {t rest : Str}
    (h : afterTests tests t = some rest) {c : CodePoint} (hc : c ∈ t) :
    c ∈ rest ∨ ∃ p ∈ tests, p c = true := by
  induction tests generalizing t with
  | nil =>
      obtain rfl := Option.some.inj h
      exact .inl hc
  | cons p tests ih =>
      cases t with
      | nil => cases h
      | cons d t =>
          rw [afterTests] at h
          split at h
          · rename_i hp
            rcases List.mem_cons.mp hc with rfl | hc
            · exact .inr ⟨p, List.mem_cons_self, hp⟩
            · obtain hrest | ⟨q, hq, hqc⟩ := ih h hc
              · exact .inl hrest
              · exact .inr ⟨q, List.mem_cons_of_mem p hq, hqc⟩
          · cases h

theorem mem_grouped {p q : CodePoint → Bool} {first : Nat} {rest : List Nat}
    (h : q ∈ grouped p first rest) : q = p ∨ q = isHyphen := by
  simp only [grouped, List.mem_append, List.mem_replicate, List.mem_flatMap, List.mem_cons] at h
  rcases h with ⟨-, rfl⟩ | ⟨n, -, rfl | ⟨-, rfl⟩⟩
  · exact .inl rfl
  · exact .inr rfl
  · exact .inl rfl

theorem char_of_isUuid {s : Str} (h : isUuid s = true) {c : CodePoint} (hc : c ∈ s) :
    isHexDigit c = true ∨ isHyphen c = true := by
  rcases mem_of_afterTests (of_decide_eq_true h) hc with hnil | ⟨p, hp, hpc⟩
  · cases hnil
  rcases mem_grouped hp with rfl | rfl
  · exact .inl hpc
  · exact .inr hpc

theorem not_mem_of_isUuid {s : Str} (h : isUuid s = true) : (91 : CodePoint) ∉ s := by
  intro hmem
  rcases char_of_isUuid h hmem with hc | hc
  · exact absurd hc (by decide)
  · exact absurd hc (by decide)

theorem isUuid_ne_nil {s : Str} (h : isUuid s = true) : s ≠ [] := by
  rintro rfl
  exact absurd h (by decide)

theorem eq_of_isUuid_redacted {s t : Str} (hs : isUuid s = true)
    (h : s = redactAccountIds lib t) : s = t := by
  rw [h]
  apply redactAccountIds_eq_self
  rw [← h]
  exact not_mem_of_isUuid hs

/-! ## Metadata -/

mutual

theorem signable_sanitizeMetadata : ∀ (j : Json), j.Signable → (sanitizeMetadata lib j).Signable
  | .str s, h => by
      rw [sanitizeMetadata, Json.signable_str] at *
      exact encodable_redactAccountIds h
  | .arr xs, h => by
      rw [sanitizeMetadata, Json.signable_arr] at *
      exact signable_sanitizeElems xs h
  | .obj kvs, h => by
      rw [sanitizeMetadata, Json.signable_obj] at *
      exact signable_sanitizeMembers kvs h
  | .null, h => h
  | .bool _, h => h
  | .int _, h => h
  | .float _, h => h

theorem signable_sanitizeElems : ∀ (xs : List Json), (∀ x ∈ xs, x.Signable) →
    ∀ x ∈ sanitizeElems lib xs, x.Signable
  | [], _ => by simp [sanitizeElems]
  | x :: xs, h => by
      rw [List.forall_mem_cons] at h
      rw [sanitizeElems, List.forall_mem_cons]
      exact ⟨signable_sanitizeMetadata x h.1, signable_sanitizeElems xs h.2⟩

theorem signable_sanitizeMembers : ∀ (kvs : Dict Str Json),
    (∀ kv ∈ kvs, Encodable kv.1 ∧ kv.2.Signable) →
    ∀ kv ∈ sanitizeMembers lib kvs, Encodable kv.1 ∧ kv.2.Signable
  | [], _ => by simp [sanitizeMembers]
  | (k, v) :: kvs, h => by
      rw [List.forall_mem_cons] at h
      rw [sanitizeMembers, List.forall_mem_cons]
      exact ⟨⟨h.1.1, signable_sanitizeMetadata v h.1.2⟩, signable_sanitizeMembers kvs h.2⟩

end

/-! ## A library to compute with -/

/-- A token of the sample library: two letters for each byte. -/
def letters (data : Bytes) : Str :=
  data.flatMap fun b => [Fin.ofNat _ (65 + b.toNat / 16), Fin.ofNat _ (65 + b.toNat % 16)]

def ofLetters : Str → Option Bytes
  | [] => some []
  | a :: b :: t =>
      (ofLetters t).map (UInt8.ofNat ((a.val - 65) * 16 + (b.val - 65)) :: ·)
  | [_] => none

theorem ofLetters_letters (data : Bytes) : ofLetters (letters data) = some data := by
  induction data with
  | nil => rfl
  | cons b data ih =>
      have hlt : b.toNat < 256 := b.toNat_lt
      have hhigh : (65 + b.toNat / 16) % 0x110000 = 65 + b.toNat / 16 := by omega
      have hlow : (65 + b.toNat % 16) % 0x110000 = 65 + b.toNat % 16 := by omega
      have hbyte : (65 + b.toNat / 16 - 65) * 16 + (65 + b.toNat % 16 - 65) = b.toNat := by omega
      rw [letters, List.flatMap_cons, List.cons_append, List.cons_append, List.nil_append,
        ofLetters]
      change (ofLetters (letters data)).map _ = _
      rw [ih, Option.map_some, Fin.val_ofNat, Fin.val_ofNat, hhigh, hlow, hbyte,
        UInt8.ofNat_toNat]

theorem isAscii_letters (data : Bytes) : isAscii (letters data) = true := by
  rw [isAscii, List.all_eq_true]
  intro c hc
  obtain ⟨b, -, hc⟩ := List.mem_flatMap.mp hc
  have hlt : b.toNat < 256 := b.toNat_lt
  simp only [List.mem_cons, List.not_mem_nil, or_false] at hc
  rcases hc with rfl | rfl
  · simp only [Fin.val_ofNat, decide_eq_true_eq]
    omega
  · simp only [Fin.val_ofNat, decide_eq_true_eq]
    omega

/-- A library whose digits are the ASCII ones and whose tokens hide nothing. -/
def sampleLibrary : VaultLibrary where
  digit := isDigit
  encrypt _ _ data := letters data
  decrypt _ token := ofLetters token
  digit_ascii _ _ := rfl
  isAscii_encrypt _ _ data := isAscii_letters data
  decrypt_encrypt _ _ data := ofLetters_letters data

example : redactAccountIds sampleLibrary (lit "arn:aws:iam::123456789012:user, 1234-5678-9012") =
    lit "arn:aws:iam::[REDACTED]:user, [REDACTED]" := by decide

end Evidence

end AuditSwarm
