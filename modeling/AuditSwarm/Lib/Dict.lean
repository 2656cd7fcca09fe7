import Mathlib

/-!
# Insertion-ordered dictionaries

A dictionary is the list of its key-value pairs in insertion order; a lookup returns the first
pair with the key.  `set` keeps the position of a key that is already there, as a Python `dict`
does, and `sortByKey` is the stable sort by key.
-/

abbrev Dict (κ V : Type) := List (κ × V)

namespace Dict

variable {κ V W : Type} [DecidableEq κ]

def get? : Dict κ V → κ → Option V
  | [], _ => none
  | (k', v) :: d, k => if k' = k then some v else get? d k

def getD (d : Dict κ V) (k : κ) (v : V) : V := (d.get? k).getD v

def contains (d : Dict κ V) (k : κ) : Bool := (d.get? k).isSome

/-- Store a value under a key, in place if the key is there, else at the end. -/
def set : Dict κ V → κ → V → Dict κ V
  | [], k, v => [(k, v)]
  | (k', v') :: d, k, v => if k' = k then (k', v) :: d else (k', v') :: set d k v

/-- Store a value under a key unless the key is there. -/
def setDefault (d : Dict κ V) (k : κ) (v : V) : Dict κ V :=
  if d.contains k then d else d.set k v

/-- Store every pair of a second dictionary, in its order. -/
def update (d e : Dict κ V) : Dict κ V := e.foldl (fun acc kv => acc.set kv.1 kv.2) d

def filterKeys (d : Dict κ V) (p : κ → Bool) : Dict κ V := d.filter (fun kv => p kv.1)

def mapValues (d : Dict κ V) (f : V → W) : Dict κ W := d.map (fun kv => (kv.1, f kv.2))

@[simp] theorem get?_nil (k : κ) : get? ([] : Dict κ V) k = none := rfl

theorem get?_cons (k' k : κ) (v : V) (d : Dict κ V) :
    get? ((k', v) :: d) k = if k' = k then some v else get? d k := rfl

theorem get?_append (d e : Dict κ V) (k : κ) :
    get? (d ++ e) k = (get? d k).or (get? e k) := by
  induction d with
  | nil => rfl
  | cons kv d ih =>
      simp only [List.cons_append, get?, ih]
      split <;> rfl

@[simp] theorem get?_set_self (d : Dict κ V) (k : κ) (v : V) : (d.set k v).get? k = some v := by
  induction d with
  | nil => simp [set, get?]
  | cons kv d ih =>
      simp only [set]
      split
      · simp [get?, *]
      · simp [get?, *]

theorem get?_set_of_ne (d : Dict κ V) {k k' : κ} (v : V) (h : k' ≠ k) :
    (d.set k v).get? k' = d.get? k' := by
  induction d with
  | nil => simp [set, get?, h.symm]
  | cons kv d ih =>
      simp only [set]
      split
      · subst ‹kv.1 = k›
        simp [get?, h.symm]
      · simp only [get?, ih]

theorem get?_set (d : Dict κ V) (k k' : κ) (v : V) :
    (d.set k v).get? k' = if k = k' then some v else d.get? k' := by
  split
  · subst ‹k = k'›
    exact get?_set_self d k v
  · exact get?_set_of_ne d v (Ne.symm ‹_›)

theorem set_eq_append {d : Dict κ V} {k : κ} (v : V) (h : d.get? k = none) :
    d.set k v = d ++ [(k, v)] := by
  induction d with
  | nil => rfl
  | cons kv d ih =>
      rw [get?] at h
      split at h
      · cases h
      · rw [set, if_neg ‹_›, ih h, List.cons_append]

@[simp] theorem update_nil (d : Dict κ V) : d.update [] = d := rfl

@[simp] theorem update_cons (d e : Dict κ V) (kv : κ × V) :
    d.update (kv :: e) = (d.set kv.1 kv.2).update e := rfl

/-- Updating with keys that are not there, each once, puts the pairs at the end. -/
theorem update_eq_append {d e : Dict κ V} (hfresh : ∀ kv ∈ e, d.get? kv.1 = none)
    (hnodup : (e.map Prod.fst).Nodup) : d.update e = d ++ e := by
  induction e generalizing d with
  | nil => simp
  | cons kv e ih =>
      rw [List.map_cons, List.nodup_cons] at hnodup
      rw [update_cons, set_eq_append _ (hfresh kv List.mem_cons_self), ih _ hnodup.2,
        List.append_assoc, List.singleton_append]
      intro kv' hkv'
      have hne : kv.1 ≠ kv'.1 := fun heq => hnodup.1 (heq ▸ List.mem_map_of_mem hkv')
      rw [get?_append, hfresh kv' (List.mem_cons_of_mem _ hkv'), Option.none_or]
      simp [get?, hne]

theorem get?_update_of_get?_eq_none (d : Dict κ V) {e : Dict κ V} {k : κ}
    (h : e.get? k = none) : (d.update e).get? k = d.get? k := by
  induction e generalizing d with
  | nil => rfl
  | cons kv e ih =>
      have hne : k ≠ kv.1 := by
        rintro rfl
        simp [get?] at h
      rw [update_cons, ih _ (by simpa [get?, hne.symm] using h), get?_set_of_ne _ _ hne]

theorem get?_setDefault (d : Dict κ V) (k k' : κ) (v : V) :
    (d.setDefault k v).get? k' = if k = k' then some ((d.get? k).getD v) else d.get? k' := by
  unfold setDefault contains
  split
  · obtain ⟨w, hw⟩ := Option.isSome_iff_exists.mp ‹(d.get? k).isSome = true›
    split
    · subst ‹k = k'›
      simp [hw]
    · rfl
  · have hnone : d.get? k = none := by simpa using ‹¬ (d.get? k).isSome = true›
    rw [get?_set]
    simp [hnone]

theorem get?_filterKeys_of_pos {d : Dict κ V} {p : κ → Bool} {k : κ} (h : p k) :
    (d.filterKeys p).get? k = d.get? k := by
  induction d with
  | nil => rfl
  | cons kv d ih =>
      have ih' : get? (List.filter (fun kv => p kv.1) d) k = get? d k := ih
      by_cases hkv : p kv.1
      · simp [filterKeys, hkv, get?, ih']
      · have hne : kv.1 ≠ k := by
          rintro rfl
          exact hkv h
        simp [filterKeys, hkv, get?, ih', hne]

theorem get?_filterKeys_of_neg {d : Dict κ V} {p : κ → Bool} {k : κ} (h : p k = false) :
    (d.filterKeys p).get? k = none := by
  induction d with
  | nil => rfl
  | cons kv d ih =>
      have ih' : get? (List.filter (fun kv => p kv.1) d) k = none := ih
      by_cases hkv : p kv.1
      · have hne : kv.1 ≠ k := by
          rintro rfl
          simp [hkv] at h
        simp [filterKeys, hkv, get?, ih', hne]
      · simp [filterKeys, hkv, ih']

@[simp] theorem get?_mapValues (d : Dict κ V) (f : V → W) (k : κ) :
    (d.mapValues f).get? k = (d.get? k).map f := by
  induction d with
  | nil => rfl
  | cons kv d ih =>
      have ih' : get? (d.map (fun kv => (kv.1, f kv.2))) k = (get? d k).map f := ih
      simp only [mapValues, List.map_cons, get?, ih']
      split <;> rfl

theorem mem_of_get? {d : Dict κ V} {k : κ} {v : V} (h : d.get? k = some v) : (k, v) ∈ d := by
  induction d with
  | nil => cases h
  | cons kv d ih =>
      simp only [get?] at h
      split at h
      · cases h
        subst ‹kv.1 = k›
        exact List.mem_cons_self
      · exact List.mem_cons_of_mem _ (ih h)

theorem get?_of_mem {d : Dict κ V} (hnodup : (d.map Prod.fst).Nodup) {kv : κ × V}
    (h : kv ∈ d) : d.get? kv.1 = some kv.2 := by
  induction d with
  | nil => cases h
  | cons p d ih =>
      simp only [List.map_cons, List.nodup_cons] at hnodup
      rcases List.mem_cons.mp h with rfl | h'
      · simp [get?]
      · have hne : p.1 ≠ kv.1 := fun he => hnodup.1 (he ▸ List.mem_map_of_mem h')
        simpa [get?, hne] using ih hnodup.2 h'

theorem keys_set (d : Dict κ V) (k : κ) (v : V) :
    (d.set k v).map Prod.fst = if k ∈ d.map Prod.fst then d.map Prod.fst
      else d.map Prod.fst ++ [k] := by
  induction d with
  | nil => rfl
  | cons kv d ih =>
      by_cases h : kv.1 = k
      · simp [set, h]
      · rw [set, if_neg h, List.map_cons, ih]
        by_cases hk : k ∈ d.map Prod.fst
        · simp [hk]
        · simp [hk, Ne.symm h]

theorem mem_of_mem_set {d : Dict κ V} {k : κ} {v : V} {kv : κ × V} (h : kv ∈ d.set k v) :
    kv = (k, v) ∨ kv ∈ d := by
  induction d with
  | nil => exact .inl (List.mem_singleton.mp h)
  | cons p d ih =>
      rw [set] at h
      split at h
      · rename_i hk
        rcases List.mem_cons.mp h with rfl | h
        · exact .inl (Prod.ext hk rfl)
        · exact .inr (List.mem_cons_of_mem p h)
      · rcases List.mem_cons.mp h with rfl | h
        · exact .inr List.mem_cons_self
        · exact (ih h).imp_right (List.mem_cons_of_mem p)

theorem nodup_keys_set {d : Dict κ V} (h : (d.map Prod.fst).Nodup) (k : κ) (v : V) :
    ((d.set k v).map Prod.fst).Nodup := by
  rw [keys_set]
  split
  · exact h
  · rename_i hk
    exact List.nodup_append.mpr ⟨h, List.nodup_singleton k, fun a ha b hb hab =>
      hk (by rw [← List.mem_singleton.mp hb, ← hab]; exact ha)⟩

theorem mem_iff_get? {d : Dict κ V} (hnodup : (d.map Prod.fst).Nodup) {k : κ} {v : V} :
    (k, v) ∈ d ↔ d.get? k = some v :=
  ⟨get?_of_mem hnodup, mem_of_get?⟩

/-! ## First occurrences -/

section
variable {α : Type} (key : α → κ)

/-- The elements whose key is not among `seen` and has not occurred before. -/
def firstByFrom : List κ → List α → List α
  | _, [] => []
  | seen, x :: xs =>
      if key x ∈ seen then firstByFrom seen xs else x :: firstByFrom (key x :: seen) xs

def firstBy (xs : List α) : List α := firstByFrom key [] xs

variable {key}

theorem mem_firstByFrom_iff {seen : List κ} {xs : List α} {x : α} :
    x ∈ firstByFrom key seen xs ↔
      key x ∉ seen ∧ xs.find? (fun y => key y = key x) = some x := by
  induction xs generalizing seen with
  | nil => simp [firstByFrom]
  | cons y ys ih =>
      unfold firstByFrom
      by_cases hy : key y = key x
      · split
        · rename_i hseen
          rw [ih]
          simp [hy ▸ hseen]
        · rename_i hseen
          rw [List.mem_cons, ih]
          simp only [hy, List.mem_cons, true_or, not_true, false_and, or_false,
            List.find?_cons_of_pos, decide_true, Option.some.injEq]
          constructor
          · intro h
            exact ⟨hy ▸ hseen, h.symm⟩
          · intro h
            exact h.2.symm
      · have hne : x ≠ y := fun h => hy (by rw [h])
        split
        · rw [ih]
          simp [hy]
        · rw [List.mem_cons, ih]
          simp [hy, hne, Ne.symm hy]

/-- The first elements are exactly those a search by their own key finds. -/
theorem mem_firstBy_iff {xs : List α} {x : α} :
    x ∈ firstBy key xs ↔ xs.find? (fun y => key y = key x) = some x := by
  simp [firstBy, mem_firstByFrom_iff]

theorem exists_mem_firstBy {xs : List α} {x : α} (h : x ∈ xs) :
    ∃ y ∈ firstBy key xs, key y = key x := by
  rcases hf : xs.find? (fun y => key y = key x) with _ | y
  · have := List.find?_eq_none.mp hf x h
    simp at this
  · have hy : key y = key x := by simpa using List.find?_some hf
    exact ⟨y, mem_firstBy_iff.mpr (hy ▸ hf), hy⟩

theorem mem_of_mem_firstBy {xs : List α} {x : α} (h : x ∈ firstBy key xs) : x ∈ xs :=
  List.mem_of_find?_eq_some (mem_firstBy_iff.mp h)

theorem nodup_firstByFrom (seen : List κ) (xs : List α) :
    ((firstByFrom key seen xs).map key).Nodup := by
  induction xs generalizing seen with
  | nil => exact List.nodup_nil
  | cons x xs ih =>
      unfold firstByFrom
      by_cases hx : key x ∈ seen
      · rw [if_pos hx]
        exact ih seen
      · rw [if_neg hx, List.map_cons]
        refine List.nodup_cons.mpr ⟨?_, ih _⟩
        intro hmem
        rcases List.mem_map.mp hmem with ⟨y, hy, hkey⟩
        apply (mem_firstByFrom_iff.mp hy).1
        rw [hkey]
        exact List.mem_cons_self

theorem nodup_firstBy (xs : List α) : ((firstBy key xs).map key).Nodup := nodup_firstByFrom [] xs

theorem firstByFrom_sublist (seen : List κ) (xs : List α) :
    (firstByFrom key seen xs).Sublist xs := by
  induction xs generalizing seen with
  | nil => exact List.Sublist.refl _
  | cons x xs ih =>
      unfold firstByFrom
      by_cases hx : key x ∈ seen
      · rw [if_pos hx]
        exact (ih seen).cons x
      · rw [if_neg hx]
        exact (ih _).cons_cons x

theorem firstBy_eq_self_iff {xs : List α} : firstBy key xs = xs ↔ (xs.map key).Nodup := by
  constructor
  · intro h
    rw [← h]
    exact nodup_firstBy xs
  · intro h
    apply (firstByFrom_sublist [] xs).eq_of_length_le
    have hall : xs ⊆ firstBy key xs := by
      intro x hx
      have hfirst : ∃ y ∈ firstBy key xs, key y = key x := exists_mem_firstBy hx
      rcases hfirst with ⟨y, hy, hkey⟩
      rw [← List.inj_on_of_nodup_map h (mem_of_mem_firstBy hy) hx hkey]
      exact hy
    exact ((List.Nodup.of_map key h).subperm hall).length_le

theorem firstBy_key_inj {xs : List α} {x y : α} (hx : x ∈ firstBy key xs)
    (hy : y ∈ firstBy key xs) (h : key x = key y) : x = y := by
  have h1 := mem_firstBy_iff.mp hx
  have h2 := mem_firstBy_iff.mp hy
  rw [h] at h1
  exact Option.some.inj (h1.symm.trans h2)

end

/-! ## Sorting by key -/

variable [LinearOrder κ]

omit [DecidableEq κ] in
def sortByKey (d : Dict κ V) : Dict κ V := d.insertionSort (fun p q => p.1 ≤ q.1)

@[simp] theorem get?_sortByKey (d : Dict κ V) (k : κ) : (sortByKey d).get? k = d.get? k := by
  have hinsert : ∀ (kv : κ × V) (l : Dict κ V),
      get? (List.orderedInsert (fun p q => p.1 ≤ q.1) kv l) k = get? (kv :: l) k := by
    intro kv l
    induction l with
    | nil => rfl
    | cons b l ih =>
        simp only [List.orderedInsert]
        split
        · rfl
        · have hne : b.1 ≠ kv.1 := fun h => ‹¬ kv.1 ≤ b.1› h.ge
          rw [get?, ih]
          simp only [get?]
          split <;> split <;> simp_all
  induction d with
  | nil => rfl
  | cons kv d ih =>
      have ih' : get? (List.insertionSort (fun p q => p.1 ≤ q.1) d) k = get? d k := ih
      rw [sortByKey, List.insertionSort_cons, hinsert, get?, get?, ih']

omit [DecidableEq κ] in
theorem sortByKey_mapValues (d : Dict κ V) (f : V → W) :
    sortByKey (mapValues d f) = mapValues (sortByKey d) f :=
  (List.map_insertionSort (fun p q : κ × V => p.1 ≤ q.1) (fun p q : κ × W => p.1 ≤ q.1)
    (fun kv => (kv.1, f kv.2)) d fun _ _ _ _ => Iff.rfl).symm

end Dict
