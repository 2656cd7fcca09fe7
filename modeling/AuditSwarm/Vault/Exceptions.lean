import AuditSwarm.Vault.Registration

/-!
# Exceptions raised over a record

Both loops over records name the exceptions they answer themselves.  Each list holds what the text
of a record can raise, and neither holds what a value of the wrong type raises.
-/

namespace AuditSwarm

open Python

namespace Evidence

variable {rt : Runtime} {lib : VaultLibrary}

/-- A list of exceptions with those a text raises, and without those a wrong type raises. -/
structure Handled (p : VaultError → Prop) : Prop where
  keyError : p .keyError
  valueError : p .valueError
  invalidToken : p .invalidToken
  typeError : ¬ p .typeError
  attributeError : ¬ p .attributeError

theorem handled_caught : Handled fun e => e.caught = true :=
  ⟨rfl, rfl, rfl, by decide, by decide⟩

theorem handled_counted : Handled fun e => e.counted = true :=
  ⟨rfl, rfl, rfl, by decide, by decide⟩

theorem isAscii_of_plainDigest {input : Json} {digest : Str}
    (h : plainDigest rt input = .ok digest) : isAscii digest = true := by
  unfold plainDigest at h
  obtain ⟨data, -, h⟩ := Except.bind_eq_ok_iff.mp h
  rw [← Except.pure_eq_ok_iff.mp h]
  exact isAscii_hexdigest _

theorem isAscii_of_keyedDigest {input : Json} {keyB64 digest : Str}
    (h : keyedDigest rt input keyB64 = .ok digest) : isAscii digest = true := by
  unfold keyedDigest at h
  obtain ⟨key, -, h⟩ := Except.bind_eq_ok_iff.mp h
  obtain ⟨data, -, h⟩ := Except.bind_eq_ok_iff.mp h
  rw [← Except.pure_eq_ok_iff.mp h]
  exact isAscii_hexdigest _

section Handled

variable {p : VaultError → Prop} (hp : Handled p)

include hp

theorem raisesOnly_compareDigest_iff {a b : Str} (ha : isAscii a = true) :
    (compareDigest a b).RaisesOnly p ↔ isAscii b = true := by
  unfold compareDigest Trail.compareDigest
  cases hb : isAscii b with
  | true => simp [ha, Except.mapError]
  | false => simp [ha, Except.mapError, hp.typeError]

theorem raisesOnly_plainDigest (text : Str) : (plainDigest rt (.str text)).RaisesOnly p := by
  unfold plainDigest
  rw [Except.raisesOnly_bind_iff]
  constructor
  · exact Except.raisesOnly_orRaise_iff.mpr fun _ => hp.valueError
  · exact fun _ _ => Except.raisesOnly_pure _

theorem raisesOnly_deriveHmacKey (keyB64 : Str) :
    ((Trail.deriveHmacKey rt keyB64 hmacKeyLabel).mapError
      fun _ => VaultError.valueError).RaisesOnly p := by
  cases Trail.deriveHmacKey rt keyB64 hmacKeyLabel with
  | ok key => exact Except.raisesOnly_ok key
  | error e => exact Except.raisesOnly_error_iff.mpr hp.valueError

theorem raisesOnly_keyedDigest (text keyB64 : Str) :
    (keyedDigest rt (.str text) keyB64).RaisesOnly p := by
  unfold keyedDigest
  rw [Except.raisesOnly_bind_iff]
  refine ⟨raisesOnly_deriveHmacKey hp keyB64, fun key _ => ?_⟩
  rw [Except.raisesOnly_bind_iff]
  constructor
  · exact Except.raisesOnly_orRaise_iff.mpr fun _ => hp.valueError
  · exact fun _ _ => Except.raisesOnly_pure _

/-- A payload that is a text decrypts or raises what is handled; any other has no `encode`. -/
theorem raisesOnly_decryptPayload_iff {key : Bytes} {payload : Json} :
    (decryptPayload lib key payload).RaisesOnly p ↔ ∃ token, payload = .str token := by
  cases payload with
  | str token =>
      apply iff_of_true
      · rw [decryptPayload]
        by_cases hascii : isAscii token = true
        · rw [if_pos hascii]
          cases lib.decrypt key token with
          | none => exact Except.raisesOnly_error_iff.mpr hp.invalidToken
          | some data => exact Except.raisesOnly_orRaise_iff.mpr fun _ => hp.valueError
        · rw [if_neg hascii]
          exact Except.raisesOnly_error_iff.mpr hp.valueError
      · exact ⟨token, rfl⟩
  | _ => simp [decryptPayload, hp.attributeError]

end Handled

end Evidence

end AuditSwarm
