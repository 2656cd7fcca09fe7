import Mathlib

/-!
# Versions told apart by stamps

A document goes through a list of versions, oldest first, each with a stamp and each read as some
value.  A reader that takes a stamp first and a value afterwards holds a pair in which the value
is never older than the stamp; where no stamp recurs, such a pair is as good as any stamp it
matches.
-/

namespace Versions

variable {V σ α : Type} (stamp : V → σ) (Reads : V → α → Prop)

def StampFrom (versions : List V) (b : Nat) (st : σ) : Prop :=
  ∃ j v, b ≤ j ∧ versions[j]? = some v ∧ stamp v = st

/-- A version from the `b`-th on is read as the value. -/
def ValueFrom (versions : List V) (b : Nat) (a : α) : Prop :=
  ∃ k w, b ≤ k ∧ versions[k]? = some w ∧ Reads w a

/-- A version from the `b`-th on has the stamp, and it or a later one is read as the value. -/
def PairFrom (versions : List V) (b : Nat) (st : σ) (a : α) : Prop :=
  ∃ j v, b ≤ j ∧ versions[j]? = some v ∧ stamp v = st ∧ ValueFrom Reads versions j a

variable {stamp Reads} {versions later : List V} {b c : Nat} {st : σ} {a : α}

theorem valueFrom_iff_mem_drop :
    ValueFrom Reads versions b a ↔ ∃ w ∈ versions.drop b, Reads w a := by
  constructor
  · intro h
    rcases h with ⟨k, w, hk, hget, hreads⟩
    refine ⟨w, List.mem_iff_getElem?.mpr ⟨k - b, ?_⟩, hreads⟩
    rw [List.getElem?_drop, show b + (k - b) = k by omega]
    exact hget
  · intro h
    rcases h with ⟨w, hw, hreads⟩
    rcases List.mem_iff_getElem?.mp hw with ⟨k, hk⟩
    rw [List.getElem?_drop] at hk
    exact ⟨b + k, w, by omega, hk, hreads⟩

/-! ## A longer history -/

theorem getElem?_append_of_some {k : Nat} {v : V} (h : versions[k]? = some v) :
    (versions ++ later)[k]? = some v := by
  rw [List.getElem?_append_left (List.getElem?_eq_some_iff.mp h).choose, h]

theorem StampFrom.append (h : StampFrom stamp versions b st) :
    StampFrom stamp (versions ++ later) b st := by
  rcases h with ⟨j, v, hj, hget, hst⟩
  exact ⟨j, v, hj, getElem?_append_of_some hget, hst⟩

theorem ValueFrom.append (h : ValueFrom Reads versions b a) :
    ValueFrom Reads (versions ++ later) b a := by
  rcases h with ⟨k, w, hk, hget, hreads⟩
  exact ⟨k, w, hk, getElem?_append_of_some hget, hreads⟩

theorem PairFrom.append (h : PairFrom stamp Reads versions b st a) :
    PairFrom stamp Reads (versions ++ later) b st a := by
  rcases h with ⟨j, v, hj, hget, hst, hvalue⟩
  exact ⟨j, v, hj, getElem?_append_of_some hget, hst, hvalue.append⟩

/-! ## An earlier bound -/

theorem StampFrom.mono (h : StampFrom stamp versions b st) (hle : c ≤ b) :
    StampFrom stamp versions c st := by
  rcases h with ⟨j, v, hj, hrest⟩
  exact ⟨j, v, hle.trans hj, hrest⟩

theorem ValueFrom.mono (h : ValueFrom Reads versions b a) (hle : c ≤ b) :
    ValueFrom Reads versions c a := by
  rcases h with ⟨k, w, hk, hrest⟩
  exact ⟨k, w, hle.trans hk, hrest⟩

theorem PairFrom.mono (h : PairFrom stamp Reads versions b st a) (hle : c ≤ b) :
    PairFrom stamp Reads versions c st a := by
  rcases h with ⟨j, v, hj, hrest⟩
  exact ⟨j, v, hle.trans hj, hrest⟩

/-! ## Taking a stamp, then a value -/

theorem stampFrom_getLast? {v : V} (h : versions.getLast? = some v) :
    StampFrom stamp versions (versions.length - 1) (stamp v) := by
  rw [List.getLast?_eq_getElem?] at h
  exact ⟨versions.length - 1, v, le_rfl, h, rfl⟩

theorem valueFrom_getLast? {v : V} (h : versions.getLast? = some v) (hreads : Reads v a) :
    ValueFrom Reads versions (versions.length - 1) a := by
  rw [List.getLast?_eq_getElem?] at h
  exact ⟨versions.length - 1, v, le_rfl, h, hreads⟩

/-- A value read after a stamp was taken is not older than the stamp. -/
theorem StampFrom.pair {v : V} (h : StampFrom stamp versions b st)
    (hlast : versions.getLast? = some v) (hreads : Reads v a) :
    PairFrom stamp Reads versions b st a := by
  rcases h with ⟨j, w, hj, hget, hst⟩
  have hlt : j < versions.length := (List.getElem?_eq_some_iff.mp hget).choose
  exact ⟨j, w, hj, hget, hst, (valueFrom_getLast? hlast hreads).mono (by omega)⟩

theorem PairFrom.value (h : PairFrom stamp Reads versions b st a) :
    ValueFrom Reads versions b a := by
  rcases h with ⟨j, v, hj, -, -, hvalue⟩
  exact hvalue.mono hj

/-- Where no stamp recurs, a pair is as recent as any stamp it matches. -/
theorem PairFrom.value_of_stampFrom (h : PairFrom stamp Reads versions c st a)
    (hnodup : (versions.map stamp).Nodup) (hst : StampFrom stamp versions b st) :
    ValueFrom Reads versions b a := by
  rcases h with ⟨j, v, -, hget, hv, hvalue⟩
  rcases hst with ⟨i, w, hi, hget', hw⟩
  have hj : (versions.map stamp)[j]? = some st := by rw [List.getElem?_map, hget, ← hv]; rfl
  have hi' : (versions.map stamp)[i]? = some st := by rw [List.getElem?_map, hget', ← hw]; rfl
  have hlt : j < (versions.map stamp).length := (List.getElem?_eq_some_iff.mp hj).choose
  have heq : j = i := (List.getElem?_inj hlt hnodup).mp (hj.trans hi'.symm)
  exact hvalue.mono (heq ▸ hi)

end Versions
