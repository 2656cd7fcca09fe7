import Mathlib

/-!
# Sealed chains

A log whose later entries each carry a hash of their own content and the hash of the entry before
them.  The entries before the chain carry no hash; the first link is a seal of all of them, or a
fixed value when there are none.  The last hash of such a log commits to the whole log: this is
`Log.agree`.
-/

/-- How the entries of a log carry hashes, and what a hash commits to. -/
structure ChainScheme (E H : Type) where
  hash : E → H
  prev : E → H
  /-- What the first entry of a log links to. -/
  genesis : H
  /-- The hash of the entry is a digest of its content. -/
  Hashed : E → Prop
  /-- The value is a digest of the entries before a chain. -/
  Seals : H → List E → Prop
  /-- Two entries have the same content. -/
  Agree : E → E → Prop
  /-- Two entries before a chain are the same. -/
  AgreeBare : E → E → Prop
  agree_of_hash : ∀ {a b}, Hashed a → Hashed b → hash a = hash b → Agree a b
  prev_of_agree : ∀ {a b}, Hashed a → Hashed b → Agree a b → prev a = prev b
  not_seals_hash : ∀ {a l}, Hashed a → ¬ Seals (hash a) l
  agree_of_seals : ∀ {h l l'}, Seals h l → Seals h l' → List.Forall₂ AgreeBare l l'

namespace ChainScheme

variable {E H : Type} (c : ChainScheme E H)

/-- What the first entry of the chain links to, after the given entries. -/
def Starts (h : H) : List E → Prop
  | [] => h = c.genesis
  | e :: l => c.Seals h (e :: l)

/-- A chain after the entries `bare`, newest entry first. -/
inductive Chained (bare : List E) : List E → Prop
  | start {e : E} (hashed : c.Hashed e) (starts : c.Starts (c.prev e) bare) : Chained bare [e]
  | link {a b : E} {es : List E} (chain : Chained bare (a :: es)) (hashed : c.Hashed b)
      (prev : c.prev b = c.hash a) : Chained bare (b :: a :: es)

/-- No digest is the value the first entry of a log links to. -/
structure GenesisApart : Prop where
  hash : ∀ {a}, c.Hashed a → c.hash a ≠ c.genesis
  sealed : ∀ {l}, ¬ c.Seals c.genesis l

/-- Two entries of a chain are the same, hash included. -/
structure AgreeHashed (a b : E) : Prop where
  hashed : c.Hashed a
  content : c.Agree a b
  hash : c.hash a = c.hash b

variable {c} {bare bare' es es' : List E} {a b : E}

theorem Chained.head_hashed (h : c.Chained bare (a :: es)) : c.Hashed a := by
  cases h with
  | start hashed => exact hashed
  | link chain hashed => exact hashed

theorem Chained.older {newer : List E} (h : c.Chained bare (newer ++ a :: es)) :
    c.Chained bare (a :: es) := by
  induction newer with
  | nil => exact h
  | cons e newer ih =>
      cases newer with
      | nil =>
          cases h with
          | link chain => exact chain
      | cons e' newer =>
          cases h with
          | link chain => exact ih chain

/-- The first entry of a chain does not link to a hash, unless to the fixed value. -/
theorem Starts.ne_hash {h : H} (hs : c.Starts h bare) (ha : c.Hashed a)
    (hbare : bare = [] → c.hash a ≠ c.genesis) : h ≠ c.hash a := by
  rintro rfl
  cases bare with
  | nil => exact hbare rfl hs
  | cons e l => exact c.not_seals_hash ha hs

/-- What starts two chains is the same, unless one of them starts at the fixed value. -/
theorem Starts.agree {h : H} (hs : c.Starts h bare) (hs' : c.Starts h bare')
    (hgenesis : (bare = [] ↔ bare' = []) ∨ c.GenesisApart) :
    List.Forall₂ c.AgreeBare bare bare' := by
  cases bare with
  | nil =>
      cases bare' with
      | nil => exact .nil
      | cons e' l' =>
          rcases hgenesis with hiff | hapart
          · exact absurd (hiff.mp rfl) (by simp)
          · obtain rfl : h = c.genesis := hs
            exact absurd hs' hapart.sealed
  | cons e l =>
      cases bare' with
      | nil =>
          rcases hgenesis with hiff | hapart
          · exact absurd (hiff.mpr rfl) (by simp)
          · obtain rfl : h = c.genesis := hs'
            exact absurd hs hapart.sealed
      | cons e' l' => exact c.agree_of_seals hs hs'

/-- Chains with the same newest hash are the same, if they are as long or no digest is the fixed
value: they are followed back together, and neither can end before the other. -/
theorem Chained.agree (h : c.Chained bare (a :: es)) (h' : c.Chained bare' (b :: es'))
    (heq : c.hash a = c.hash b)
    (hpos : bare.length + es.length = bare'.length + es'.length ∨ c.GenesisApart) :
    List.Forall₂ c.AgreeBare bare bare' ∧ List.Forall₂ c.AgreeHashed (a :: es) (b :: es') := by
  induction es generalizing a b es' with
  | nil =>
      have hhashed := h.head_hashed
      have hagree := c.agree_of_hash hhashed h'.head_hashed heq
      have hprev := c.prev_of_agree hhashed h'.head_hashed hagree
      cases h with
      | start hashed starts =>
          cases h' with
          | start hashed' starts' =>
              have hbare : (bare = [] ↔ bare' = []) ∨ c.GenesisApart := by
                refine hpos.imp (fun hlen => ?_) id
                have hlen' : bare.length = bare'.length := by simpa using hlen
                rw [← List.length_eq_zero_iff, ← List.length_eq_zero_iff, hlen']
              exact ⟨starts.agree (hprev ▸ starts') hbare, .cons ⟨hhashed, hagree, heq⟩ .nil⟩
          | @link b' _ es' chain' hashed' prev' =>
              have hne : bare = [] → c.hash b' ≠ c.genesis := by
                rintro rfl
                rcases hpos with hlen | hapart
                · simp at hlen
                · exact hapart.hash chain'.head_hashed
              exact absurd (hprev.trans prev') (starts.ne_hash chain'.head_hashed hne)
  | cons a' es ih =>
      have hhashed := h.head_hashed
      have hagree := c.agree_of_hash hhashed h'.head_hashed heq
      have hprev := c.prev_of_agree hhashed h'.head_hashed hagree
      cases h with
      | link chain hashed prev =>
          cases h' with
          | start hashed' starts' =>
              have hne : bare' = [] → c.hash a' ≠ c.genesis := by
                rintro rfl
                rcases hpos with hlen | hapart
                · simp at hlen
                · exact hapart.hash chain.head_hashed
              exact absurd (hprev.symm.trans prev) (starts'.ne_hash chain.head_hashed hne)
          | link chain' hashed' prev' =>
              have heq' := prev.symm.trans (hprev.trans prev')
              have hpos' := hpos.imp_left fun hlen => by
                rw [List.length_cons, List.length_cons, ← Nat.add_assoc, ← Nat.add_assoc] at hlen
                exact Nat.succ.inj hlen
              obtain ⟨hbare, hes⟩ := ih chain chain' heq' hpos'
              exact ⟨hbare, .cons ⟨hhashed, hagree, heq⟩ hes⟩

/-! ## Logs -/

variable (c) in
/-- A log, oldest entry first, whose chain starts at index `k`. -/
structure Log (k : Nat) (log : List E) : Prop where
  lt : k < log.length
  chained : c.Chained (log.take k) (log.drop k).reverse

variable {log log' : List E} {k k' n : Nat}

/-- The entries of a log up to some point of its chain are a log. -/
theorem Log.take (h : c.Log k log) (hk : k < n) : c.Log k (log.take n) := by
  have hlen : k < (log.take n).length := by
    rw [List.length_take]
    exact lt_min hk h.lt
  refine ⟨hlen, ?_⟩
  have hsplit : (log.drop k).reverse =
      ((log.drop k).drop (n - k)).reverse ++ ((log.take n).drop k).reverse := by
    rw [← List.reverse_append, List.drop_take, List.take_append_drop]
  have hne : ((log.take n).drop k).reverse ≠ [] := by
    simpa using hlen
  obtain ⟨e, es, hes⟩ := List.exists_cons_of_ne_nil hne
  have hchain := h.chained
  rw [hsplit, hes] at hchain
  rw [List.take_take, min_eq_left hk.le, hes]
  exact hchain.older

/-- The newest entry of a log and the entries before it. -/
theorem Log.exists_last (h : c.Log k log) :
    ∃ a es, (log.drop k).reverse = a :: es ∧ log.getLast? = some a ∧
      (log.take k).length + es.length + 1 = log.length := by
  have hne : (log.drop k).reverse ≠ [] := by simpa using h.lt
  obtain ⟨a, es, hes⟩ := List.exists_cons_of_ne_nil hne
  refine ⟨a, es, hes, ?_, ?_⟩
  · have hlast : (log.drop k).getLast? = some a := by
      rw [← List.head?_reverse, hes]
      rfl
    rw [← hlast, List.getLast?_drop, if_neg (by exact Nat.not_le.mpr h.lt)]
  · have hlen := congrArg List.length hes
    rw [List.length_reverse, List.length_drop, List.length_cons] at hlen
    rw [List.length_take, min_eq_left h.lt.le]
    have hlt := h.lt
    omega

/-- Logs with the same last hash are the same log, if they are as long or no digest is the fixed
value. -/
theorem Log.agree (h : c.Log k log) (h' : c.Log k' log')
    (hlast : log.getLast?.map c.hash = log'.getLast?.map c.hash)
    (hpos : log.length = log'.length ∨ c.GenesisApart) :
    k = k' ∧ List.Forall₂ c.AgreeBare (log.take k) (log'.take k) ∧
      List.Forall₂ c.AgreeHashed (log.drop k) (log'.drop k) := by
  obtain ⟨a, es, hes, ha, hlen⟩ := h.exists_last
  obtain ⟨b, es', hes', hb, hlen'⟩ := h'.exists_last
  have heq : c.hash a = c.hash b := by
    rw [ha, hb] at hlast
    exact Option.some.inj hlast
  have hchain := h.chained
  have hchain' := h'.chained
  rw [hes] at hchain
  rw [hes'] at hchain'
  obtain ⟨hbare, hagree⟩ := hchain.agree hchain' heq (hpos.imp_left fun hl => by omega)
  have hk : k = k' := by
    have hl := hbare.length_eq
    rw [List.length_take, List.length_take, min_eq_left h.lt.le, min_eq_left h'.lt.le] at hl
    exact hl
  subst hk
  refine ⟨rfl, hbare, ?_⟩
  rw [← hes, ← hes'] at hagree
  exact List.forall₂_reverse_iff.mp hagree

/-- The last entry of a log is hashed; it links to the entry before it, or is the first of the
chain. -/
theorem Log.last (h : c.Log k log) (hlast : log.getLast? = some a) :
    c.Hashed a ∧ (c.Starts (c.prev a) (log.take k) ∨
      ∃ b, log.dropLast.getLast? = some b ∧ c.prev a = c.hash b ∧ c.Log k log.dropLast) := by
  obtain ⟨a', es, hes, ha', hlen⟩ := h.exists_last
  obtain rfl : a = a' := Option.some.inj (hlast.symm.trans ha')
  have hchain := h.chained
  rw [hes] at hchain
  refine ⟨hchain.head_hashed, ?_⟩
  cases hchain with
  | start hashed starts => exact .inl starts
  | @link b _ es' chain hashed prev =>
      have hlt := h.lt
      have hk : k < log.length - 1 := by
        rw [List.length_take, min_eq_left hlt.le, List.length_cons] at hlen
        omega
      have hlog := h.take hk
      rw [← List.dropLast_eq_take] at hlog
      obtain ⟨b', es'', hes', hb', -⟩ := hlog.exists_last
      refine .inr ⟨b, ?_, prev, hlog⟩
      rw [hb']
      have hdrop : (log.drop k).reverse.tail = (log.dropLast.drop k).reverse := by
        rw [List.tail_reverse, List.dropLast_eq_take, List.dropLast_eq_take, List.drop_take,
          List.length_drop]
        congr 2
        omega
      rw [hes, List.tail_cons, hes'] at hdrop
      rw [(List.cons.inj hdrop).1]

end ChainScheme
