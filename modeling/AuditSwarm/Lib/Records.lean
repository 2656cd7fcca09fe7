import AuditSwarm.Lib.Dict

/-!
# Histories of a map of records

A map of records is written field by field: a write sets some fields of one record and creates it
if it is not there, a deletion removes one record.  What such a map holds is read off its history:
a record is there when it was written after its last deletion, and each of its fields has the value
last written to it.  Histories are listed newest first.
-/

variable {κ φ V : Type} [DecidableEq κ] [DecidableEq φ]

namespace Dict

def without (d : Dict κ V) (k : κ) : Dict κ V := d.filterKeys fun k' => k' ≠ k

@[simp] theorem get?_without_self (d : Dict κ V) (k : κ) : (d.without k).get? k = none :=
  get?_filterKeys_of_neg (by simp)

theorem get?_without_of_ne (d : Dict κ V) {k k' : κ} (h : k' ≠ k) :
    (d.without k).get? k' = d.get? k' :=
  get?_filterKeys_of_pos (by simpa using h)

theorem update_ne_nil {d e : Dict κ V} (h : e ≠ []) : d.update e ≠ [] := by
  induction e generalizing d with
  | nil => exact absurd rfl h
  | cons kv e ih =>
      rw [update_cons]
      by_cases he : e = []
      · rw [he, update_nil]
        intro hnil
        have hget := get?_set_self d kv.1 kv.2
        rw [hnil] at hget
        cases hget
      · exact ih he

/-- The last of a list of assignments to a key. -/
def lastOf (e : Dict κ V) (k : κ) : Option V := (update [] e).get? k

theorem update_append (d e f : Dict κ V) : d.update (e ++ f) = (d.update e).update f := by
  unfold update
  rw [List.foldl_append]

/-- After an update a key has the last value assigned to it, or the one it had. -/
theorem get?_update (d e : Dict κ V) (k : κ) :
    (d.update e).get? k = (lastOf e k).or (d.get? k) := by
  unfold lastOf
  induction e using List.reverseRecOn with
  | nil => rfl
  | append_singleton e kv ih =>
      rw [update_append, update_append]
      show ((d.update e).set kv.1 kv.2).get? k =
        (((update [] e).set kv.1 kv.2).get? k).or (d.get? k)
      by_cases hk : kv.1 = k
      · rw [← hk, get?_set_self, get?_set_self, Option.some_or]
      · rw [get?_set_of_ne _ _ (Ne.symm hk), get?_set_of_ne _ _ (Ne.symm hk), ih]

end Dict

inductive RecordWrite (κ φ V : Type) where
  | wrote (key : κ) (fields : Dict φ V)
  | deleted (key : κ)

namespace RecordWrite

def apply (d : Dict κ (Dict φ V)) : RecordWrite κ φ V → Dict κ (Dict φ V)
  | wrote k fields => d.set k ((d.getD k []).update fields)
  | deleted k => d.without k

def replay (start : Dict κ (Dict φ V)) : List (RecordWrite κ φ V) → Dict κ (Dict φ V)
  | [] => start
  | w :: older => w.apply (replay start older)

/-- The record was there at the start or has been written, and has not been deleted since. -/
def Present (start : Dict κ (Dict φ V)) : List (RecordWrite κ φ V) → κ → Prop
  | [], k => (start.get? k).isSome = true
  | wrote k' _ :: older, k => k' = k ∨ Present start older k
  | deleted k' :: older, k => k' ≠ k ∧ Present start older k

/-- The value last written to a field of a record. -/
def lastWritten (start : Dict κ (Dict φ V)) : List (RecordWrite κ φ V) → κ → φ → Option V
  | [], k, f => (start.get? k).bind fun r => r.get? f
  | wrote k' fields :: older, k, f =>
      if k' = k then (fields.lastOf f).or (lastWritten start older k f)
      else lastWritten start older k f
  | deleted k' :: older, k, f => if k' = k then none else lastWritten start older k f

/-- A record is in the map exactly when its history says so. -/
theorem isSome_replay_iff (start : Dict κ (Dict φ V)) (history : List (RecordWrite κ φ V)) (k : κ) :
    ((replay start history).get? k).isSome = true ↔ Present start history k := by
  induction history with
  | nil => rfl
  | cons w older ih =>
      cases w with
      | wrote k' fields =>
          unfold replay apply Present
          by_cases hk : k' = k
          · rw [← hk, Dict.get?_set_self]
            exact iff_of_true rfl (.inl rfl)
          · rw [Dict.get?_set_of_ne _ _ (Ne.symm hk), ih]
            exact (or_iff_right hk).symm
      | deleted k' =>
          unfold replay apply Present
          by_cases hk : k' = k
          · rw [← hk, Dict.get?_without_self]
            exact iff_of_false Bool.false_ne_true fun h => h.1 rfl
          · rw [Dict.get?_without_of_ne _ (Ne.symm hk), ih]
            exact (and_iff_right hk).symm

/-- Each field of a record has the value last written to it. -/
theorem field_replay (start : Dict κ (Dict φ V)) (history : List (RecordWrite κ φ V)) (k : κ)
    (f : φ) :
    ((replay start history).get? k).bind (fun r => r.get? f) = lastWritten start history k f := by
  induction history with
  | nil => rfl
  | cons w older ih =>
      cases w with
      | wrote k' fields =>
          unfold replay apply lastWritten
          by_cases hk : k' = k
          · rw [if_pos hk, ← hk, Dict.get?_set_self, Option.bind_some, Dict.get?_update, hk, ← ih]
            unfold Dict.getD
            cases (replay start older).get? k with
            | none => rfl
            | some r => rfl
          · rw [if_neg hk, Dict.get?_set_of_ne _ _ (Ne.symm hk), ih]
      | deleted k' =>
          unfold replay apply lastWritten
          by_cases hk : k' = k
          · rw [if_pos hk, ← hk, Dict.get?_without_self]
            rfl
          · rw [if_neg hk, Dict.get?_without_of_ne _ (Ne.symm hk), ih]

end RecordWrite
