import AuditSwarm.Python.Runtime

/-!
# Reading JSON

Readers of JSON values, built up from readers of their parts, and the pairs of a writer and a
reader of which the reader undoes the writer.
-/

namespace Python

namespace Json

variable {α β : Type}

/-! ## Readers -/

/-- A reader refuses a value, or yields what it stands for. -/
abbrev Reader (α : Type) := Json → Option α

def readStr : Reader Str
  | .str s => some s
  | _ => none

def readList (read : Reader α) : Reader (List α)
  | .arr xs => xs.mapM read
  | _ => none

def readOption (read : Reader α) : Reader (Option α)
  | .null => some none
  | j => (read j).map some

def readMembers (read : Reader α) : Reader (Dict Str α)
  | .obj kvs => kvs.mapM fun kv => (read kv.2).map fun a => (kv.1, a)
  | _ => none

def readObject : Reader (Dict Str Json)
  | .obj kvs => some kvs
  | _ => none

def readField (o : Dict Str Json) (name : String) (read : Reader α) : Option α :=
  (o.get? (lit name)).bind read

def readFieldOr (default : α) (o : Dict Str Json) (name : String) (read : Reader α) : Option α :=
  match o.get? (lit name) with
  | none => some default
  | some j => read j

/-! ## Objects that are the same -/

theorem Same.exists_obj {v : Json} {o : Dict Str Json} (h : Same v (.obj o)) :
    ∃ o', v = .obj o' ∧ Same (.obj o') (.obj o) := by
  cases v with
  | obj o' => exact ⟨o', rfl, h⟩
  | _ => simp [Same, sortKeys] at h

theorem Same.exists_arr {v : Json} {xs : List Json} (h : Same v (.arr xs)) :
    ∃ ys, v = .arr ys ∧ List.Forall₂ Same ys xs := by
  cases v with
  | arr ys => exact ⟨ys, rfl, h.elems⟩
  | _ => simp [Same, sortKeys] at h

theorem Same.get?_eq_none {o o' : Dict Str Json} (h : Same (.obj o') (.obj o)) {k : Str}
    (hget : o.get? k = none) : o'.get? k = none := by
  have hsorted := h.get? k
  rw [hget] at hsorted
  exact Option.map_eq_none_iff.mp hsorted

theorem Same.exists_get? {o o' : Dict Str Json} (h : Same (.obj o') (.obj o)) {k : Str} {j : Json}
    (hget : o.get? k = some j) : ∃ j', o'.get? k = some j' ∧ Same j' j := by
  have hsorted := h.get? k
  rw [hget] at hsorted
  exact Option.map_eq_some_iff.mp hsorted

/-- Every member has one that is the same in the other object. -/
theorem Same.exists_mem {o o' : Dict Str Json} (h : Same (.obj o') (.obj o)) {kv : Str × Json}
    (hmem : kv ∈ o') : ∃ j, (kv.1, j) ∈ o ∧ Same kv.2 j := by
  have hperm : ∀ d : Dict Str Json, (Dict.sortByKey (d.mapValues sortKeys)).Perm
      (d.mapValues sortKeys) := fun d => List.perm_insertionSort _ _
  have hsorted : Dict.sortByKey (sortMembers o') = Dict.sortByKey (sortMembers o) := by
    simpa only [Same, sortKeys, Json.obj.injEq] using h
  rw [sortMembers_eq_mapValues, sortMembers_eq_mapValues] at hsorted
  have hin : (kv.1, sortKeys kv.2) ∈ o.mapValues sortKeys := by
    rw [← (hperm o).mem_iff, ← hsorted, (hperm o').mem_iff]
    exact List.mem_map_of_mem hmem
  rcases List.mem_map.mp hin with ⟨⟨k, j⟩, hj, heq⟩
  rw [Prod.mk.injEq] at heq
  rcases heq with ⟨rfl, heq⟩
  exact ⟨j, hj, heq.symm⟩

/-! ## Reading back what was written -/

/-- The reader undoes the writer on the values satisfying `P`. -/
def ReadsBackOn (P : α → Prop) (read : Reader α) (write : α → Json) : Prop :=
  ∀ a, P a → read (write a) = some a

abbrev ReadsBack (read : Reader α) (write : α → Json) : Prop := ∀ a, read (write a) = some a

variable {read : Reader α} {write : α → Json} {P : α → Prop}

theorem readsBack_str : ReadsBack readStr Json.str := fun _ => rfl

theorem mapM_map_eq_some {γ : Type} {f : β → Option γ} {g : γ → β} {xs : List γ}
    (h : ∀ x ∈ xs, f (g x) = some x) : (xs.map g).mapM f = some xs := by
  induction xs with
  | nil => rfl
  | cons x xs ih =>
      rw [List.map_cons, List.mapM_cons, h x List.mem_cons_self,
        ih fun y hy => h y (List.mem_cons_of_mem _ hy)]
      rfl

theorem ReadsBackOn.list (h : ReadsBackOn P read write) :
    ReadsBackOn (fun xs => ∀ x ∈ xs, P x) (readList read) (ofList write) := by
  intro xs hxs
  exact mapM_map_eq_some fun x hx => h x (hxs x hx)

theorem ReadsBack.list (h : ReadsBack read write) : ReadsBack (readList read) (ofList write) :=
  fun _ => mapM_map_eq_some fun x _ => h x

theorem ReadsBack.members (h : ReadsBack read write) (d : Dict Str α) :
    readMembers read (.obj (d.mapValues write)) = some d := by
  unfold readMembers Dict.mapValues
  refine mapM_map_eq_some ?_
  intro kv _
  rw [h kv.2]
  rfl

/-! ## Reading what is the same -/

/-- The reader yields the value for a JSON value and for whatever is the same as that. -/
def Reads (read : Reader α) (j : Json) (a : α) : Prop := ∀ v, Same v j → read v = some a

variable {j : Json} {a : α}

theorem Reads.self (h : Reads read j a) : read j = some a := h j (.refl j)

theorem reads_scalar (hscalar : Runtime.Scalar j) (h : read j = some a) : Reads read j a := by
  intro v hv
  rw [← Runtime.eq_of_same_scalar hscalar hv.symm]
  exact h

theorem eq_str_of_same {v : Json} {s : Str} (h : Same v (.str s)) : v = .str s :=
  (Runtime.eq_of_same_scalar (show Runtime.Scalar (.str s) from trivial) h.symm).symm

theorem reads_str (s : Str) : Reads readStr (.str s) s := reads_scalar trivial rfl

theorem reads_list {xs : List α} (h : ∀ x ∈ xs, Reads read (write x) x) :
    Reads (readList read) (ofList write xs) xs := by
  intro v hv
  rcases Same.exists_arr hv with ⟨ys, rfl, hys⟩
  clear hv
  unfold readList
  dsimp only
  induction xs generalizing ys with
  | nil =>
      cases hys
      rfl
  | cons x xs ih =>
      rcases List.forall₂_cons_right_iff.mp hys with ⟨y, ys', hy, hys', rfl⟩
      rw [List.mapM_cons, h x List.mem_cons_self y hy,
        ih (fun x' hx' => h x' (List.mem_cons_of_mem _ hx')) ys' hys']
      rfl

/-- A list whose elements are read as what is written the same is read so, too. -/
theorem exists_readList {xs : List α} {v : Json}
    (hread : ∀ x ∈ xs, ∀ w, Same w (write x) → ∃ y, read w = some y ∧ Same (write y) (write x))
    (h : Same v (ofList write xs)) :
    ∃ ys, readList read v = some ys ∧ Same (ofList write ys) (ofList write xs) := by
  rcases Same.exists_arr h with ⟨vs, rfl, hvs⟩
  clear h
  unfold readList
  dsimp only
  induction xs generalizing vs with
  | nil =>
      cases hvs
      exact ⟨[], rfl, .refl _⟩
  | cons x xs ih =>
      rcases List.forall₂_cons_right_iff.mp hvs with ⟨w, vs', hw, hvs', rfl⟩
      rcases hread x List.mem_cons_self w hw with ⟨y, hy, hsame⟩
      rcases ih (fun x' hx' => hread x' (List.mem_cons_of_mem _ hx')) vs' hvs' with
        ⟨ys, hys, hsames⟩
      refine ⟨y :: ys, ?_, same_arr_iff.mpr (.cons hsame (same_arr_iff.mp hsames))⟩
      rw [List.mapM_cons, hy, hys]
      rfl

theorem reads_option {x : Option α} (hnull : ∀ a, write a ≠ .null)
    (h : ∀ a ∈ x, Reads read (write a) a) : Reads (readOption read) (ofOption write x) x := by
  cases x with
  | none => exact reads_scalar trivial rfl
  | some a =>
      intro v hv
      have hread : read v = some a := h a rfl v hv
      have hv' : v ≠ .null := by
        rintro rfl
        exact hnull a (@Runtime.eq_of_same_scalar .null _ trivial hv).symm
      cases v with
      | null => exact absurd rfl hv'
      | _ =>
          show (read _).map some = _
          rw [hread]
          rfl

/-- Members that are read and written alike are read from what is the same, in its order. -/
theorem exists_readMembers {d : Dict Str α} {o : Dict Str Json}
    (hread : ∀ a v, Same v (write a) → read v = some a ∧ v = write a)
    (h : Same (.obj o) (.obj (d.mapValues write))) :
    ∃ d' : Dict Str α, readMembers read (.obj o) = some d' ∧ d'.mapValues write = o := by
  have hmembers : ∀ kv ∈ o, ∃ a, read kv.2 = some a ∧ kv.2 = write a := by
    intro kv hkv
    rcases h.exists_mem hkv with ⟨j, hj, hsame⟩
    rcases List.mem_map.mp hj with ⟨⟨k, a⟩, -, heq⟩
    rw [Prod.mk.injEq] at heq
    rw [← heq.2] at hsame
    exact ⟨a, hread a kv.2 hsame⟩
  clear h
  unfold readMembers
  induction o with
  | nil => exact ⟨[], rfl, rfl⟩
  | cons kv o ih =>
      rcases hmembers kv List.mem_cons_self with ⟨a, ha, hwritten⟩
      rcases ih fun kv' hkv' => hmembers kv' (List.mem_cons_of_mem _ hkv') with ⟨d', hd', hback⟩
      refine ⟨(kv.1, a) :: d', ?_, ?_⟩
      · dsimp only at hd' ⊢
        rw [List.mapM_cons, ha, hd']
        rfl
      · rw [← hback]
        show (kv.1, write a) :: _ = _
        rw [← hwritten]
        rfl

theorem exists_readMembers_str {d : Dict Str Str} {o : Dict Str Json}
    (h : Same (.obj o) (.obj (d.mapValues .str))) :
    ∃ d' : Dict Str Str, readMembers readStr (.obj o) = some d' ∧ d'.mapValues .str = o :=
  exists_readMembers (fun text v hv => ⟨reads_str text v hv, eq_str_of_same hv⟩) h

/-! ## Reading field by field -/

theorem bind_of_eq_some {x : Option α} {a : α} {k : α → Option β} {b : β} (h : x = some a)
    (hk : k a = some b) : (x >>= k) = some b := by
  rw [h]
  exact hk

section
variable {o o' : Dict Str Json} {name : String}

theorem readField_of_reads (h : Same (.obj o') (.obj o)) (hget : o.get? (lit name) = some j)
    (hread : Reads read j a) : readField o' name read = some a := by
  rcases h.exists_get? hget with ⟨j', hget', hsame⟩
  unfold readField
  rw [hget']
  exact hread j' hsame

theorem readFieldOr_of_reads {default : α} (h : Same (.obj o') (.obj o))
    (hget : o.get? (lit name) = some j) (hread : Reads read j a) :
    readFieldOr default o' name read = some a := by
  rcases h.exists_get? hget with ⟨j', hget', hsame⟩
  unfold readFieldOr
  rw [hget']
  exact hread j' hsame

end

end Json

end Python
