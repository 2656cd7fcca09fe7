import AuditSwarm.Model.Dump
import AuditSwarm.Model.Trail
import AuditSwarm.Trail.Append

/-!
# The canonical encoding is injective

Values with the same canonical bytes are equal, objects as key-value maps, and so are the trail
entries, artifacts and decision lists that are digested through them.
-/

namespace Python

namespace Json

/-- Equality of values, an object being the values under its keys. -/
inductive Equal : Json → Json → Prop
  | null : Equal .null .null
  | bool (b : Bool) : Equal (.bool b) (.bool b)
  | int (n : Int) : Equal (.int n) (.int n)
  | float (r : FloatRepr) : Equal (.float r) (.float r)
  | str (s : Str) : Equal (.str s) (.str s)
  | arr {xs ys : List Json} (h : List.Forall₂ Equal xs ys) : Equal (.arr xs) (.arr ys)
  | obj {a b : Dict Str Json} (h : ∀ k, Option.Rel Equal (a.get? k) (b.get? k)) :
      Equal (.obj a) (.obj b)

theorem forall₂_imp_mem {α β : Type} {R S : α → β → Prop} {xs : List α} {ys : List β}
    (h : List.Forall₂ R xs ys) (himp : ∀ x ∈ xs, ∀ y, R x y → S x y) : List.Forall₂ S xs ys := by
  induction h with
  | nil => exact .nil
  | @cons x y xs ys hxy _ ih =>
      exact .cons (himp x List.mem_cons_self y hxy)
        (ih fun x' hx' => himp x' (List.mem_cons_of_mem x hx'))

theorem sizeOf_lt_of_get? {a : Dict Str Json} {k : Str} {v : Json} (h : a.get? k = some v) :
    sizeOf v < sizeOf (Json.obj a) := by
  have hmem := List.sizeOf_lt_of_mem (Dict.mem_of_get? h)
  simp only [Prod.mk.sizeOf_spec] at hmem
  simp only [Json.obj.sizeOf_spec]
  omega

theorem equal_of_same_of_sizeOf (n : Nat) (a b : Json) (hn : sizeOf a < n) (h : Same a b) :
    Equal a b := by
  induction n generalizing a b with
  | zero => exact absurd hn (Nat.not_lt_zero _)
  | succ n ih =>
      cases a with
      | arr xs =>
          cases b with
          | arr ys =>
              refine .arr (forall₂_imp_mem h.elems ?_)
              intro x hx y hxy
              have hsize := List.sizeOf_lt_of_mem hx
              rw [Json.arr.sizeOf_spec] at hn
              exact ih x y (by omega) hxy
          | _ => simp [Same, sortKeys] at h
      | obj kvs =>
          cases b with
          | obj kvs' =>
              refine .obj fun k => ?_
              have hk := h.get? k
              cases hv : Dict.get? kvs k with
              | none =>
                  rw [hv, Option.map_none, eq_comm, Option.map_eq_none_iff] at hk
                  rw [hk]
                  exact .none
              | some v =>
                  rw [hv, Option.map_some] at hk
                  cases hw : Dict.get? kvs' k with
                  | none =>
                      rw [hw] at hk
                      cases hk
                  | some w =>
                      rw [hw, Option.map_some] at hk
                      have hsize := sizeOf_lt_of_get? hv
                      exact .some (ih v w (by omega) (Option.some.inj hk))
          | _ => simp [Same, sortKeys] at h
      | null =>
          cases b with
          | null => exact .null
          | _ => simp [Same, sortKeys] at h
      | bool x =>
          cases b with
          | bool y =>
              rw [same_bool_iff.mp h]
              exact .bool y
          | _ => simp [Same, sortKeys] at h
      | int m =>
          cases b with
          | int n' =>
              rw [same_int_iff.mp h]
              exact .int n'
          | _ => simp [Same, sortKeys] at h
      | float r =>
          cases b with
          | float r' =>
              simp only [Same, sortKeys, Json.float.injEq] at h
              rw [h]
              exact .float r'
          | _ => simp [Same, sortKeys] at h
      | str s =>
          cases b with
          | str t =>
              rw [same_str_iff.mp h]
              exact .str t
          | _ => simp [Same, sortKeys] at h

/-- Values that are the same with their keys sorted are equal. -/
theorem equal_of_same {a b : Json} (h : Same a b) : Equal a b :=
  equal_of_same_of_sizeOf (sizeOf a + 1) a b (Nat.lt_succ_self _) h

end Json

end Python

namespace AuditSwarm

open Python

namespace Trail

theorem same_of_canonicalBytes {a b : Json} {bytes : Bytes} (ha : canonicalBytes a = .ok bytes)
    (hb : canonicalBytes b = .ok bytes) : Json.Same a b :=
  Json.canonical_inj (canonicalBytes_eq_ok_iff.mp ha) (canonicalBytes_eq_ok_iff.mp hb)

/-- Values of a type with a faithful dump and the same canonical bytes are the same. -/
theorem eq_of_canonicalBytes {α : Type} {dump : α → Json} (hdump : Json.Faithful dump) {a b : α}
    {bytes : Bytes} (ha : canonicalBytes (dump a) = .ok bytes)
    (hb : canonicalBytes (dump b) = .ok bytes) : a = b :=
  (hdump a b).mp (same_of_canonicalBytes ha hb)

theorem get?_of_canonicalEntry {e e' : Entry}
    (h : Json.Same (canonicalEntry e) (canonicalEntry e')) {k : Str}
    (hk : k ≠ lit "entry_hash") : Option.Rel Json.Equal (e.get? k) (e'.get? k) := by
  cases Json.equal_of_same h with
  | obj hentries =>
      have hkeep : ∀ d : Entry, (d.filterKeys (· ≠ lit "entry_hash")).get? k = d.get? k :=
        fun d => Dict.get?_filterKeys_of_pos (by simpa using hk)
      have hfield := hentries k
      rw [hkeep, hkeep] at hfield
      exact hfield

/-- The canonical encoding is injective: on values, on trail entries up to their `entry_hash`,
between an entry and a list of legacy entries, on artifacts and on lists of decisions. -/
theorem canonicalBytes_injective :
    (∀ (a b : Json) (bytes : Bytes), canonicalBytes a = .ok bytes →
      canonicalBytes b = .ok bytes → Json.Equal a b) ∧
    (∀ (e e' : Entry) (bytes : Bytes), canonicalBytes (canonicalEntry e) = .ok bytes →
      canonicalBytes (canonicalEntry e') = .ok bytes →
      ∀ k, k ≠ lit "entry_hash" → Option.Rel Json.Equal (e.get? k) (e'.get? k)) ∧
    (∀ (e : Entry) (legacy : List Entry) (bytes : Bytes),
      canonicalBytes (canonicalEntry e) = .ok bytes →
      canonicalBytes (.arr (legacy.map .obj)) ≠ .ok bytes) ∧
    (∀ (racm racm' : RiskControlMatrixSchema) (bytes : Bytes),
      canonicalBytes racm.toJson = .ok bytes → canonicalBytes racm'.toJson = .ok bytes →
      racm = racm') ∧
    (∀ (papers papers' : WorkingPaperSchema) (bytes : Bytes),
      canonicalBytes papers.toJson = .ok bytes → canonicalBytes papers'.toJson = .ok bytes →
      papers = papers') ∧
    (∀ (report report' : FinalReportSchema) (bytes : Bytes),
      canonicalBytes report.toJson = .ok bytes → canonicalBytes report'.toJson = .ok bytes →
      report = report') ∧
    ∀ (decisions decisions' : List Json) (bytes : Bytes),
      canonicalBytes (.arr decisions) = .ok bytes →
      canonicalBytes (.arr decisions') = .ok bytes →
      List.Forall₂ Json.Equal decisions decisions' := by
  refine ⟨?_, ?_, ?_, ?_, ?_, ?_, ?_⟩
  · intro a b bytes ha hb
    exact Json.equal_of_same (same_of_canonicalBytes ha hb)
  · intro e e' bytes he he' k hk
    exact get?_of_canonicalEntry (same_of_canonicalBytes he he') hk
  · intro e legacy bytes he hlegacy
    have h := same_of_canonicalBytes he hlegacy
    simp [canonicalEntry, Json.Same, Json.sortKeys] at h
  · intro racm racm' bytes h h'
    exact eq_of_canonicalBytes RiskControlMatrixSchema.faithful_toJson h h'
  · intro papers papers' bytes h h'
    exact eq_of_canonicalBytes WorkingPaperSchema.faithful_toJson h h'
  · intro report report' bytes h h'
    exact eq_of_canonicalBytes FinalReportSchema.faithful_toJson h h'
  · intro decisions decisions' bytes h h'
    cases Json.equal_of_same (same_of_canonicalBytes h h') with
    | arr helems => exact helems

end Trail

end AuditSwarm
