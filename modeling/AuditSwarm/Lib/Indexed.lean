import AuditSwarm.Lib.Dict

/-!
# Dictionaries that index a list

Elements stored one after the other under a key of their own.
-/

namespace Dict

variable {κ V : Type} [DecidableEq κ] {key : V → κ}

theorem get?_foldl_set_of_notMem {k : κ} {xs : List V} (h : k ∉ xs.map key) (d : Dict κ V) :
    get? (xs.foldl (fun d x => d.set (key x) x) d) k = get? d k := by
  induction xs generalizing d with
  | nil => rfl
  | cons x xs ih =>
      rw [List.map_cons, List.mem_cons, not_or] at h
      rw [List.foldl_cons, ih h.2, get?_set_of_ne d x h.1]

theorem get?_foldl_set_of_nodup {xs : List V} (hnodup : (xs.map key).Nodup) {x : V} (hx : x ∈ xs)
    (d : Dict κ V) : get? (xs.foldl (fun d x => d.set (key x) x) d) (key x) = some x := by
  induction xs generalizing d with
  | nil => cases hx
  | cons y xs ih =>
      rw [List.map_cons, List.nodup_cons] at hnodup
      rw [List.foldl_cons]
      rcases List.mem_cons.mp hx with rfl | hx
      · rw [get?_foldl_set_of_notMem hnodup.1, get?_set_self]
      · exact ih hnodup.2 hx _

end Dict
