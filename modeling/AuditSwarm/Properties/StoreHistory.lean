import AuditSwarm.Model.SessionStore

/-!
# What the session store keeps

The threads of the store, step by step: which of them holds the lock, what it may rely on while it
does, and what the file holds.  Whatever the interleaving, the file holds what its writes add up
to, a file that is moved aside is a corrupt one, and a reader returns what the file held at some
moment of its call.
-/

namespace AuditSwarm

open Python

/-! ## What a thread holds and knows -/

def StoreCall.held (c : StoreCall) : Nat := if c.writes then 1 else 0

def StorePc.held : StorePc → Nat
  | idle => 0
  | enter _ => 0
  | read c => c.held
  | recheck c => c.held
  | reread c => c.held + 1
  | backup c => c.held + 1
  | loaded c _ => c.held
  | leave => 1

def StorePc.Known (file : SessionsFile) : StorePc → Prop
  | enter c => c.writes = true
  | backup _ => ∃ bytes, file = .corrupt bytes
  | loaded c data => c.writes = true → file.data = data ∧ ∀ bytes, file ≠ .corrupt bytes
  | _ => True

theorem StoreCall.held_of_writes {c : StoreCall} (h : c.writes = true) : c.held = 1 := if_pos h

/-- A map a thread has just loaded is the one in the file. -/
def StorePc.Fresh (file : SessionsFile) : StorePc → Prop
  | loaded _ data => file.data = data
  | _ => True

/-- What a thread without the lock relies on does not depend on the file. -/
theorem StorePc.Known.of_not_held {file file' : SessionsFile} {p : StorePc} (h : p.Known file)
    (hheld : p.held = 0) : p.Known file' := by
  cases p with
  | idle => trivial
  | enter c => exact h
  | read c => trivial
  | recheck c => trivial
  | reread c => trivial
  | backup c =>
      have hpos : c.held + 1 = 0 := hheld
      omega
  | loaded c data =>
      intro hc
      have hzero : c.held = 0 := hheld
      rw [StoreCall.held_of_writes hc] at hzero
      omega
  | leave => trivial

def StoreLabel.thread : StoreLabel → ThreadId
  | call t _ => t
  | run t _ _ => t

namespace SessionStore

variable {s s' : SessionStore} {t u : ThreadId} {p : StorePc} {r : StoreResult}

@[simp] theorem goto_pc_self (s : SessionStore) (t : ThreadId) (p : StorePc) :
    (s.goto t p).pc t = p := if_pos rfl

theorem goto_pc_of_ne (s : SessionStore) {t u : ThreadId} (p : StorePc) (h : u ≠ t) :
    (s.goto t p).pc u = s.pc u := if_neg h

/-! ## What one step can do -/

/-- The steps of a thread: nothing, a step of its own, one that takes or gives back the lock, a
write of the file and the backup of a corrupt one. -/
inductive Move (s : SessionStore) (t : ThreadId) : StoreResult → SessionStore → Prop
  | stay {r : StoreResult} (hr : r.write? = none) : Move s t r s
  | own {r : StoreResult} {p : StorePc} (hr : r.write? = none) (hheld : p.held = (s.pc t).held)
      (hknown : p.Known s.file) (hfresh : p.Fresh s.file) : Move s t r (s.goto t p)
  | acquire {p : StorePc} {lock : RLock ThreadId} (hlock : s.lock.acquire t = some lock)
      (hheld : p.held = (s.pc t).held + 1) (hknown : p.Known s.file) (hfresh : p.Fresh s.file) :
      Move s t .ran (({ s with lock := lock }).goto t p)
  | release {p : StorePc} (hheld : (s.pc t).held = p.held + 1) (hknown : p.Known s.file)
      (hfresh : p.Fresh s.file) :
      Move s t .ran (({ s with lock := s.lock.release }).goto t p)
  | save {c : StoreCall} {data : Sessions} {w : RecordWrite Str Str Json}
      (hpc : s.pc t = .loaded c data) (hc : c.writes = true) :
      Move s t (.write w) (({ s with file := .sessions (w.apply data) }).goto t .leave)
  | backup {c : StoreCall} {stamp : Str} (hpc : s.pc t = .backup c) :
      Move s t .ran (({ s with
        file := .absent, backups := s.backups.set stamp s.file,
        lock := s.lock.release }).goto t (.loaded c []))

theorem move_acquire (hheld : p.held = (s.pc t).held + 1) (hknown : p.Known s.file)
    (hfresh : p.Fresh s.file) :
    Move s t (s.acquire t p).1 (s.acquire t p).2 := by
  unfold acquire
  cases hlock : s.lock.acquire t with
  | none => exact .stay rfl
  | some lock => exact .acquire hlock hheld hknown hfresh

theorem move_read {c : StoreCall} (hpc : s.pc t = .read c) :
    Move s t (s.read t c).1 (s.read t c).2 := by
  unfold read
  cases hfile : s.file with
  | absent =>
      refine .own rfl (by rw [hpc]; rfl) (fun _ => ?_) (by rw [hfile]; rfl)
      rw [hfile]
      exact ⟨rfl, fun bytes h => by cases h⟩
  | sessions data =>
      refine .own rfl (by rw [hpc]; rfl) (fun _ => ?_) (by rw [hfile]; rfl)
      rw [hfile]
      exact ⟨rfl, fun bytes h => by cases h⟩
  | corrupt bytes => exact .own rfl (by rw [hpc]; rfl) trivial trivial

theorem move_reread {c : StoreCall} (hpc : s.pc t = .reread c) :
    Move s t (s.reread t c).1 (s.reread t c).2 := by
  unfold reread
  cases hfile : s.file with
  | absent =>
      refine .release (by rw [hpc]; rfl) (fun _ => ?_) (by rw [hfile]; rfl)
      rw [hfile]
      exact ⟨rfl, fun bytes h => by cases h⟩
  | sessions data =>
      refine .release (by rw [hpc]; rfl) (fun _ => ?_) (by rw [hfile]; rfl)
      rw [hfile]
      exact ⟨rfl, fun bytes h => by cases h⟩
  | corrupt bytes => exact .own rfl (by rw [hpc]; rfl) ⟨bytes, hfile⟩ trivial

theorem move_finish {c : StoreCall} {data : Sessions} (hpc : s.pc t = .loaded c data) (now : Str) :
    Move s t (s.finish t now data c).1 (s.finish t now data c).2 := by
  cases c with
  | saveSession id name scopeText chatHistory extraFields => exact .save hpc rfl
  | updateSession id fields =>
      show Move s t (s.update t data id fields).1 (s.update t data id fields).2
      unfold update
      by_cases hin : data.contains id = true
      · rw [if_pos hin]
        exact .save hpc rfl
      · rw [if_neg hin]
        exact .own rfl (by rw [hpc]; rfl) trivial trivial
  | deleteSession id => exact .save hpc rfl
  | getSession id => exact .own rfl (by rw [hpc]; rfl) trivial trivial
  | listSessions => exact .own rfl (by rw [hpc]; rfl) trivial trivial

theorem move_run (hpc : s.pc t = p) (hknown : p.Known s.file) (now stamp : Str) :
    Move s t (s.run t now stamp p).1 (s.run t now stamp p).2 := by
  cases p with
  | idle => exact .stay rfl
  | enter c =>
      refine move_acquire ?_ trivial trivial
      rw [hpc]
      exact StoreCall.held_of_writes hknown
  | read c => exact move_read hpc
  | recheck c => exact move_acquire (by rw [hpc]; rfl) trivial trivial
  | reread c => exact move_reread hpc
  | backup c => exact .backup hpc
  | loaded c data => exact move_finish hpc now
  | leave => exact .release (by rw [hpc]; rfl) trivial trivial

theorem move_start (hpc : s.pc t = p) (c : StoreCall) :
    Move s t (s.start t c p).1 (s.start t c p).2 := by
  cases p with
  | idle =>
      show Move s t .ran (s.goto t (if c.writes then .enter c else .read c))
      by_cases hc : c.writes = true
      · rw [if_pos hc]
        exact .own rfl (by rw [hpc]; rfl) hc trivial
      · rw [if_neg hc]
        exact .own rfl (by rw [hpc]; exact if_neg hc) trivial trivial
  | _ => exact .stay rfl

theorem move_step (hknown : ∀ t, (s.pc t).Known s.file) (l : StoreLabel) :
    Move s l.thread (s.step l).1 (s.step l).2 := by
  cases l with
  | call t c => exact move_start rfl c
  | run t now stamp => exact move_run rfl (hknown t) now stamp

/-! ## The lock -/

/-- Each thread holds the lock as often as its place says. -/
def Locked (s : SessionStore) : Prop := ∀ t, s.lock.depth t = (s.pc t).held

theorem Locked.others (h : Locked s) (ht : 0 < (s.pc t).held) (hne : u ≠ t) :
    (s.pc u).held = 0 := by
  by_contra hu
  refine hne (RLock.eq_of_depth_pos (l := s.lock) ?_ ?_)
  · rw [h u]
    omega
  · rw [h t]
    exact ht

theorem held_of_loaded {c : StoreCall} {data : Sessions} (hpc : s.pc t = .loaded c data)
    (hc : c.writes = true) : (s.pc t).held = 1 := by
  rw [hpc]
  exact StoreCall.held_of_writes hc

theorem locked_goto {lock : RLock ThreadId} {file : SessionsFile}
    {backups : Dict Str SessionsFile} (hself : lock.depth t = p.held)
    (hothers : ∀ u, u ≠ t → lock.depth u = (s.pc u).held) :
    Locked (({ s with lock := lock, file := file, backups := backups }).goto t p) := by
  intro u
  by_cases hu : u = t
  · rw [hu, goto_pc_self]
    exact hself
  · rw [goto_pc_of_ne _ _ hu]
    exact hothers u hu

theorem locked_release {file : SessionsFile} {backups : Dict Str SessionsFile} (h : Locked s)
    (hheld : (s.pc t).held = p.held + 1) :
    Locked (({ s with lock := s.lock.release, file := file, backups := backups }).goto t p) := by
  have hpos : 0 < s.lock.depth t := by
    rw [h t]
    omega
  apply locked_goto
  · rw [RLock.depth_release hpos, if_pos rfl, h t]
    omega
  · intro u hu
    rw [RLock.depth_release hpos, if_neg (Ne.symm hu), h u]

theorem Move.locked (hmove : Move s t r s') (h : Locked s) : Locked s' := by
  cases hmove with
  | stay hr => exact h
  | own hr hheld hknown hfresh => exact locked_goto (by rw [h t, hheld]) fun u _ => h u
  | acquire hlock hheld hknown hfresh =>
      apply locked_goto
      · rw [RLock.depth_acquire hlock, if_pos rfl, h t, hheld]
      · intro u hu
        rw [RLock.depth_acquire hlock, if_neg (Ne.symm hu), h u]
  | release hheld hknown hfresh => exact locked_release h hheld
  | save hpc hc =>
      refine locked_goto ?_ fun u _ => h u
      rw [h t, held_of_loaded hpc hc]
      rfl
  | backup hpc => exact locked_release h (by rw [hpc]; rfl)

/-! ## What the threads rely on -/

def Informed (s : SessionStore) : Prop := ∀ t, (s.pc t).Known s.file

theorem informed_of_held {lock : RLock ThreadId} {file : SessionsFile}
    {backups : Dict Str SessionsFile} (hlocked : Locked s) (h : Informed s)
    (ht : 0 < (s.pc t).held) (hself : p.Known file) :
    Informed (({ s with lock := lock, file := file, backups := backups }).goto t p) := by
  intro u
  by_cases hu : u = t
  · rw [hu, goto_pc_self]
    exact hself
  · rw [goto_pc_of_ne _ _ hu]
    exact (h u).of_not_held (hlocked.others ht hu)

theorem informed_goto {lock : RLock ThreadId} (h : Informed s) (hself : p.Known s.file) :
    Informed (({ s with lock := lock }).goto t p) := by
  intro u
  by_cases hu : u = t
  · rw [hu, goto_pc_self]
    exact hself
  · rw [goto_pc_of_ne _ _ hu]
    exact h u

theorem Move.informed (hmove : Move s t r s') (hlocked : Locked s) (h : Informed s) :
    Informed s' := by
  cases hmove with
  | stay hr => exact h
  | own hr hheld hknown hfresh => exact informed_goto h hknown
  | acquire hlock hheld hknown hfresh => exact informed_goto h hknown
  | release hheld hknown hfresh => exact informed_goto h hknown
  | save hpc hc =>
      refine informed_of_held hlocked h ?_ trivial
      rw [held_of_loaded hpc hc]
      omega
  | backup hpc =>
      refine informed_of_held hlocked h ?_ fun _ => ⟨rfl, fun bytes h => by cases h⟩
      rw [hpc]
      exact Nat.succ_pos _

/-! ## What the file holds -/

open RecordWrite

variable {file : SessionsFile} {backups : Dict Str SessionsFile}
  {history : List (RecordWrite Str Str Json)}

/-- The history after a step that did what its result says. -/
def historyAfter (r : StoreResult) (history : List (RecordWrite Str Str Json)) :
    List (RecordWrite Str Str Json) := r.write?.toList ++ history

/-- What the file and the backups hold, given the file and the backups at the start and what has
been written since, newest first. -/
structure Kept (file : SessionsFile) (backups : Dict Str SessionsFile)
    (history : List (RecordWrite Str Str Json)) (s : SessionStore) : Prop where
  content : s.file.data = replay file.data history
  valid : ∀ data, file = .sessions data → ∃ data', s.file = .sessions data'
  original : ∀ bytes, s.file = .corrupt bytes → file = .corrupt bytes
  rescued : ∀ bytes, file = .corrupt bytes →
    s.file = .corrupt bytes ∨ ∃ stamp, s.backups.get? stamp = some (.corrupt bytes)
  aside : ∀ stamp data, s.backups.get? stamp = some (.sessions data) →
    backups.get? stamp = some (.sessions data)

theorem Kept.after_save {data : Sessions} {lock : RLock ThreadId}
    {pc : ThreadId → StorePc} (h : Kept file backups history s) (hdata : s.file.data = data)
    (hcorrupt : ∀ bytes, s.file ≠ .corrupt bytes) (w : RecordWrite Str Str Json) :
    Kept file backups (w :: history) ⟨.sessions (w.apply data), s.backups, lock, pc⟩ where
  content := by
    show w.apply data = w.apply (replay file.data history)
    rw [← hdata, h.content]
  valid := fun _ _ => ⟨_, rfl⟩
  original := fun bytes hbytes => by cases hbytes
  rescued := fun bytes hbytes => .inr ((h.rescued bytes hbytes).resolve_left (hcorrupt bytes))
  aside := h.aside

theorem Kept.after_backup {bytes : Bytes} {lock : RLock ThreadId} {pc : ThreadId → StorePc}
    (h : Kept file backups history s) (hfile : s.file = .corrupt bytes) (stamp : Str) :
    Kept file backups history ⟨.absent, s.backups.set stamp s.file, lock, pc⟩ where
  content := by
    have hcontent := h.content
    rw [hfile] at hcontent
    exact hcontent
  valid := by
    intro data hdata
    rw [h.original bytes hfile] at hdata
    cases hdata
  original := fun bytes hbytes => by cases hbytes
  rescued := by
    intro bytes' hbytes'
    rw [h.original bytes hfile] at hbytes'
    cases hbytes'
    exact .inr ⟨stamp, by rw [hfile]; exact Dict.get?_set_self _ _ _⟩
  aside := by
    intro stamp' data hdata
    by_cases hstamp : stamp' = stamp
    · rw [hstamp, Dict.get?_set_self, hfile] at hdata
      cases hdata
    · rw [Dict.get?_set_of_ne _ _ hstamp] at hdata
      exact h.aside stamp' data hdata

theorem Kept.same {lock : RLock ThreadId} {pc : ThreadId → StorePc}
    (h : Kept file backups history s) :
    Kept file backups history ⟨s.file, s.backups, lock, pc⟩ :=
  ⟨h.content, h.valid, h.original, h.rescued, h.aside⟩

theorem historyAfter_none (hr : r.write? = none) : historyAfter r history = history := by
  unfold historyAfter
  rw [hr]
  rfl

theorem Move.kept (hmove : Move s t r s') (hknown : Informed s)
    (h : Kept file backups history s) : Kept file backups (historyAfter r history) s' := by
  cases hmove with
  | stay hr =>
      rw [historyAfter_none hr]
      exact h
  | own hr hheld hp hfresh =>
      rw [historyAfter_none hr]
      exact h.same
  | acquire hlock hheld hp hfresh => exact h.same
  | release hheld hp hfresh => exact h.same
  | save hpc hc =>
      have hdata := hknown t
      rw [hpc] at hdata
      exact h.after_save (hdata hc).1 (hdata hc).2 _
  | backup hpc =>
      have hcorrupt := hknown t
      rw [hpc] at hcorrupt
      rcases hcorrupt with ⟨bytes, hfile⟩
      exact h.after_backup hfile _

theorem Move.backups_kept {bytes : Bytes} (hmove : Move s t r s') (hknown : Informed s)
    (h : Kept (.corrupt bytes) backups history s) {stamp : Str}
    (hstamp : s.backups.get? stamp = some (.corrupt bytes)) :
    s'.backups.get? stamp = some (.corrupt bytes) := by
  cases hmove with
  | stay hr => exact hstamp
  | own hr hheld hp hfresh => exact hstamp
  | acquire hlock hheld hp hfresh => exact hstamp
  | release hheld hp hfresh => exact hstamp
  | save hpc hc => exact hstamp
  | @backup c stamp' hpc =>
      have hcorrupt := hknown t
      rw [hpc] at hcorrupt
      rcases hcorrupt with ⟨bytes', hfile⟩
      have hbytes := h.original bytes' hfile
      show (s.backups.set stamp' s.file).get? stamp = some (.corrupt bytes)
      rw [Dict.get?_set]
      split
      · rw [hfile, hbytes]
      · exact hstamp

/-! ## Runs -/

def writesOf (past : List (Transition SessionStore StoreLabel StoreResult)) :
    List (RecordWrite Str Str Json) :=
  (past.filterMap fun t => t.result.write?).reverse

theorem writesOf_concat (past : List (Transition SessionStore StoreLabel StoreResult))
    (tr : Transition SessionStore StoreLabel StoreResult) :
    writesOf (past ++ [tr]) = historyAfter tr.result (writesOf past) := by
  unfold writesOf historyAfter
  rw [List.filterMap_append, List.reverse_append]
  cases hw : tr.result.write? with
  | none =>
      simp only [List.filterMap_cons, hw, List.filterMap_nil]
      rfl
  | some w =>
      simp only [List.filterMap_cons, hw, List.filterMap_nil]
      rfl

/-- What holds at every point of a run. -/
structure Sound (file : SessionsFile) (backups : Dict Str SessionsFile)
    (past : List (Transition SessionStore StoreLabel StoreResult)) (s : SessionStore) : Prop where
  locked : Locked s
  informed : Informed s
  kept : Kept file backups (writesOf past) s

theorem sound_initial (file : SessionsFile) (backups : Dict Str SessionsFile) :
    Sound file backups [] (initial file backups) where
  locked := fun _ => rfl
  informed := fun _ => trivial
  kept := ⟨rfl, fun data h => ⟨data, h⟩, fun _ h => h, fun _ h => .inl h, fun _ _ h => h⟩

theorem Sound.step {past : List (Transition SessionStore StoreLabel StoreResult)}
    (h : Sound file backups past s) (l : StoreLabel) :
    Sound file backups (past ++ [LabelledRun.transition step s l]) (s.step l).2 := by
  have hmove := move_step h.informed l
  refine ⟨hmove.locked h.locked, hmove.informed h.locked h.informed, ?_⟩
  rw [writesOf_concat]
  exact hmove.kept h.informed h.kept

abbrev storeTrace (file : SessionsFile) (backups : Dict Str SessionsFile)
    (labels : List StoreLabel) : List (Transition SessionStore StoreLabel StoreResult) :=
  LabelledRun.trace step (initial file backups) labels

abbrev storeAfter (file : SessionsFile) (backups : Dict Str SessionsFile)
    (labels : List StoreLabel) : SessionStore :=
  LabelledRun.final step (initial file backups) labels

theorem sound_of_run (file : SessionsFile) (backups : Dict Str SessionsFile)
    (labels : List StoreLabel) :
    Sound file backups (storeTrace file backups labels) (storeAfter file backups labels) :=
  LabelledRun.history step (sound_initial file backups) (fun _ _ l h => h.step l) labels

/-- What every step from a sound state satisfies holds of every step of a run. -/
theorem every_step {P : Transition SessionStore StoreLabel StoreResult → Prop}
    (hP : ∀ past s l, Sound file backups past s → P (LabelledRun.transition step s l))
    (labels : List StoreLabel) : ∀ tr ∈ storeTrace file backups labels, P tr := by
  have h := LabelledRun.history step
    (H := fun past s => Sound file backups past s ∧ ∀ tr ∈ past, P tr)
    ⟨sound_initial file backups, fun tr htr => absurd htr List.not_mem_nil⟩
    (fun past s l hpast => ⟨hpast.1.step l, fun tr htr => by
      rcases List.mem_append.mp htr with htr | htr
      · exact hpast.2 tr htr
      · rw [List.mem_singleton.mp htr]
        exact hP past s l hpast.1⟩) labels
  exact h.2

/-- Whatever the interleaving of the calls of the store: every session that was in a valid file or
was saved, and was not deleted since, is in the file with the value last written to each of its
fields; a file that was moved aside was not a valid one; and the bytes of a corrupt file are still
there, or in a backup no later step overwrites. -/
theorem store_loses_nothing (file : SessionsFile) (backups : Dict Str SessionsFile)
    (labels : List StoreLabel) :
    (∀ id, Present file.data (writesOf (storeTrace file backups labels)) id →
      ∃ data entry, (storeAfter file backups labels).file = .sessions data ∧
        data.get? id = some entry ∧ ∀ field, entry.get? field =
          lastWritten file.data (writesOf (storeTrace file backups labels)) id field) ∧
    (∀ data, file = .sessions data →
      ∃ data', (storeAfter file backups labels).file = .sessions data') ∧
    (∀ stamp data, (storeAfter file backups labels).backups.get? stamp = some (.sessions data) →
      backups.get? stamp = some (.sessions data)) ∧
    (∀ bytes, file = .corrupt bytes →
      ((storeAfter file backups labels).file = .corrupt bytes ∨
        ∃ stamp, (storeAfter file backups labels).backups.get? stamp = some (.corrupt bytes)) ∧
      ∀ tr ∈ storeTrace file backups labels, ∀ stamp,
        tr.before.backups.get? stamp = some (.corrupt bytes) →
          tr.after.backups.get? stamp = some (.corrupt bytes)) := by
  have hsound := sound_of_run file backups labels
  refine ⟨fun id hid => ?_, hsound.kept.valid, hsound.kept.aside, fun bytes hbytes => ?_⟩
  · have hsome := (isSome_replay_iff _ _ _).mpr hid
    have hfield := field_replay file.data (writesOf (storeTrace file backups labels)) id
    rw [← hsound.kept.content] at hsome hfield
    rcases Option.isSome_iff_exists.mp hsome with ⟨entry, hentry⟩
    rw [hentry] at hfield
    cases hfile : (storeAfter file backups labels).file with
    | absent =>
        rw [hfile] at hentry
        cases hentry
    | sessions data =>
        rw [hfile] at hentry
        exact ⟨data, entry, rfl, hentry, hfield⟩
    | corrupt bytes =>
        rw [hfile] at hentry
        cases hentry
  · refine ⟨hsound.kept.rescued bytes hbytes, ?_⟩
    refine every_step (fun past s l hpast stamp hstamp => ?_) labels
    rw [hbytes] at hpast
    exact (move_step hpast.informed l).backups_kept hpast.informed hpast.kept hstamp

/-! ## Readers -/

/-- A thread that has loaded a map had done so before, or finds it in the file. -/
theorem Move.loaded (hmove : Move s t r s') {c : StoreCall} {data : Sessions}
    (h : s'.pc u = .loaded c data) : s.pc u = .loaded c data ∨ s'.file.data = data := by
  by_cases hu : u = t
  · rw [hu] at h ⊢
    cases hmove with
    | stay hr => exact .inl h
    | own hr hheld hp hfresh =>
        rw [goto_pc_self] at h
        rw [h] at hfresh
        exact .inr hfresh
    | acquire hlock hheld hp hfresh =>
        rw [goto_pc_self] at h
        rw [h] at hfresh
        exact .inr hfresh
    | release hheld hp hfresh =>
        rw [goto_pc_self] at h
        rw [h] at hfresh
        exact .inr hfresh
    | save hpc hc =>
        rw [goto_pc_self] at h
        cases h
    | backup hpc =>
        rw [goto_pc_self] at h
        cases h
        exact .inr rfl
  · left
    cases hmove with
    | stay hr => exact h
    | own hr hheld hp hfresh => exact (goto_pc_of_ne _ _ hu).symm.trans h
    | acquire hlock hheld hp hfresh => exact (goto_pc_of_ne _ _ hu).symm.trans h
    | release hheld hp hfresh => exact (goto_pc_of_ne _ _ hu).symm.trans h
    | save hpc hc => exact (goto_pc_of_ne _ _ hu).symm.trans h
    | backup hpc => exact (goto_pc_of_ne _ _ hu).symm.trans h

theorem storeAfter_concat (file : SessionsFile) (backups : Dict Str SessionsFile)
    (labels : List StoreLabel) (l : StoreLabel) :
    storeAfter file backups (labels ++ [l]) = ((storeAfter file backups labels).step l).2 :=
  LabelledRun.final_append step _ labels [l]

/-- What a thread has loaded was in the file at a moment since which it has not been idle. -/
theorem seen_of_loaded (file : SessionsFile) (backups : Dict Str SessionsFile)
    (labels : List StoreLabel) {c : StoreCall} {data : Sessions}
    (h : (storeAfter file backups labels).pc t = .loaded c data) :
    ∃ past call, labels = past ++ call ∧ (storeAfter file backups past).file.data = data ∧
      ∀ steps, steps <+: call → (storeAfter file backups (past ++ steps)).pc t ≠ .idle := by
  induction labels using List.reverseRecOn with
  | nil => cases h
  | append_singleton labels l ih =>
      rw [storeAfter_concat] at h
      have hmove := move_step (sound_of_run file backups labels).informed l
      rcases hmove.loaded h with hbefore | hnow
      · rcases ih hbefore with ⟨past, call, rfl, hdata, hbusy⟩
        refine ⟨past, call ++ [l], List.append_assoc past call [l], hdata, ?_⟩
        intro steps hsteps
        rcases List.prefix_concat_iff.mp hsteps with rfl | hsteps
        · rw [← List.append_assoc, storeAfter_concat, h]
          exact fun hidle => by cases hidle
        · exact hbusy steps hsteps
      · refine ⟨labels ++ [l], [], (List.append_nil _).symm, ?_, ?_⟩
        · rw [storeAfter_concat]
          exact hnow
        · intro steps hsteps
          rw [List.prefix_nil.mp hsteps, List.append_nil, storeAfter_concat, h]
          exact fun hidle => by cases hidle

theorem acquire_ne_returned (s : SessionStore) (t : ThreadId) (p : StorePc) (data : Sessions) :
    (s.acquire t p).1 ≠ .returned data := by
  unfold acquire
  cases s.lock.acquire t with
  | none => exact fun h => by cases h
  | some lock => exact fun h => by cases h

theorem read_ne_returned (s : SessionStore) (t : ThreadId) (c : StoreCall) (data : Sessions) :
    (s.read t c).1 ≠ .returned data := by
  unfold read
  cases s.file with
  | absent => exact fun h => by cases h
  | sessions data => exact fun h => by cases h
  | corrupt bytes => exact fun h => by cases h

theorem reread_ne_returned (s : SessionStore) (t : ThreadId) (c : StoreCall) (data : Sessions) :
    (s.reread t c).1 ≠ .returned data := by
  unfold reread
  cases s.file with
  | absent => exact fun h => by cases h
  | sessions data => exact fun h => by cases h
  | corrupt bytes => exact fun h => by cases h

/-- Only a reader that has loaded a map returns one, and it returns that one. -/
theorem loaded_of_finish {c : StoreCall} {loaded data : Sessions} {now : Str}
    (h : (s.finish t now loaded c).1 = .returned data) : loaded = data := by
  cases c with
  | saveSession id name scopeText chatHistory extraFields => cases h
  | updateSession id fields =>
      have hupdate : (s.update t loaded id fields).1 = .returned data := h
      unfold update at hupdate
      split at hupdate
      · cases hupdate
      · cases hupdate
  | deleteSession id => cases h
  | getSession id =>
      cases h
      rfl
  | listSessions =>
      cases h
      rfl

theorem loaded_of_returned {l : StoreLabel} {data : Sessions}
    (h : (s.step l).1 = .returned data) : ∃ c, s.pc l.thread = .loaded c data := by
  cases l with
  | call t c =>
      exfalso
      have hstart : (s.start t c (s.pc t)).1 = .returned data := h
      cases hpc : s.pc t <;> rw [hpc] at hstart <;> cases hstart
  | run t now stamp =>
      have hrun : (s.run t now stamp (s.pc t)).1 = .returned data := h
      show ∃ c, s.pc t = .loaded c data
      cases hpc : s.pc t with
      | idle =>
          rw [hpc] at hrun
          cases hrun
      | enter c =>
          rw [hpc] at hrun
          exact absurd hrun (acquire_ne_returned _ _ _ _)
      | read c =>
          rw [hpc] at hrun
          exact absurd hrun (read_ne_returned _ _ _ _)
      | recheck c =>
          rw [hpc] at hrun
          exact absurd hrun (acquire_ne_returned _ _ _ _)
      | reread c =>
          rw [hpc] at hrun
          exact absurd hrun (reread_ne_returned _ _ _ _)
      | backup c =>
          rw [hpc] at hrun
          cases hrun
      | loaded c loaded =>
          rw [hpc] at hrun
          have hsame : loaded = data := loaded_of_finish hrun
          exact ⟨c, by rw [hsame]⟩
      | leave =>
          rw [hpc] at hrun
          cases hrun

/-- The map a reader returns is what the writes until some moment of its call add up to. -/
theorem reader_returns_moment (file : SessionsFile) (backups : Dict Str SessionsFile)
    (labels : List StoreLabel) (l : StoreLabel) (data : Sessions)
    (h : ((storeAfter file backups labels).step l).1 = .returned data) :
    ∃ past call, labels = past ++ call ∧
      data = replay file.data (writesOf (storeTrace file backups past)) ∧
      ∀ steps, steps <+: call →
        (storeAfter file backups (past ++ steps)).pc l.thread ≠ .idle := by
  rcases loaded_of_returned h with ⟨c, hpc⟩
  rcases seen_of_loaded file backups labels hpc with ⟨past, call, hlabels, hdata, hbusy⟩
  refine ⟨past, call, hlabels, ?_, hbusy⟩
  rw [← hdata]
  exact (sound_of_run file backups past).kept.content

namespace Sample

def runs (t : ThreadId) (n : Nat) : List StoreLabel :=
  List.replicate n (.run t (lit "2026-03-01T10:00:00") (lit "20260301T100000000000"))

/-- A reader finds a corrupt file; before it has the lock a writer has moved the file aside and
written another one. -/
def overtaken : List StoreLabel :=
  .call 0 .listSessions :: runs 0 1 ++
    .call 1 (.saveSession (lit "s1") (lit "Access audit") (lit "Access") [] []) :: runs 1 7 ++
    runs 0 2

def overtakenFields : Dict Str Json :=
  savedFields (lit "2026-03-01T10:00:00") (lit "Access audit") (lit "Access") [] [] []

end Sample

theorem reader_returns_moment_overtaken :
    ∃ past call, Sample.overtaken = past ++ call ∧
      [(lit "s1", Sample.overtakenFields)] =
        replay [] (writesOf (storeTrace (.corrupt [123]) [] past)) ∧
      ∀ steps, steps <+: call → (storeAfter (.corrupt [123]) [] (past ++ steps)).pc 0 ≠ .idle :=
  reader_returns_moment (.corrupt [123]) [] Sample.overtaken (.run 0 [] [])
    [(lit "s1", Sample.overtakenFields)] rfl

/-! ## Progress -/

def stepsLeft : StorePc → Nat
  | .idle => 0
  | .leave => 1
  | .loaded _ _ => 2
  | .backup _ => 3
  | .reread _ => 4
  | .recheck _ => 5
  | .read _ => 6
  | .enter _ => 7

/-- A step that brings a thread closer to the end of its call and leaves the others where they
are. -/
def Advances (s : SessionStore) (t : ThreadId) (x : StoreResult × SessionStore) : Prop :=
  x.1 ≠ .blocked ∧ stepsLeft (x.2.pc t) < stepsLeft (s.pc t) ∧ ∀ u, u ≠ t → x.2.pc u = s.pc u

theorem advances_goto {lock : RLock ThreadId} {file : SessionsFile}
    {backups : Dict Str SessionsFile} (hr : r ≠ .blocked)
    (hp : stepsLeft p < stepsLeft (s.pc t)) :
    s.Advances t (r, ({ s with lock := lock, file := file, backups := backups }).goto t p) := by
  refine ⟨hr, ?_, fun u hu => goto_pc_of_ne _ _ hu⟩
  rw [goto_pc_self]
  exact hp

theorem advances_acquire (hfree : ∀ u, u ≠ t → s.lock.depth u = 0)
    (hp : stepsLeft p < stepsLeft (s.pc t)) : s.Advances t (s.acquire t p) := by
  rcases RLock.exists_acquire hfree with ⟨lock, hlock⟩
  unfold acquire
  rw [hlock]
  exact advances_goto (fun h => by cases h) hp

theorem advances_read {c : StoreCall} (hpc : s.pc t = .read c) : s.Advances t (s.read t c) := by
  have hloaded (data : Sessions) : stepsLeft (.loaded c data) < stepsLeft (s.pc t) := by
    rw [hpc]
    simp only [stepsLeft]
    omega
  unfold read
  cases s.file with
  | absent => exact advances_goto (fun h => by cases h) (hloaded [])
  | sessions data => exact advances_goto (fun h => by cases h) (hloaded data)
  | corrupt bytes =>
      refine advances_goto (fun h => by cases h) ?_
      rw [hpc]
      simp only [stepsLeft]
      omega

theorem advances_reread {c : StoreCall} (hpc : s.pc t = .reread c) :
    s.Advances t (s.reread t c) := by
  have hloaded (data : Sessions) : stepsLeft (.loaded c data) < stepsLeft (s.pc t) := by
    rw [hpc]
    simp only [stepsLeft]
    omega
  unfold reread
  cases s.file with
  | absent => exact advances_goto (fun h => by cases h) (hloaded [])
  | sessions data => exact advances_goto (fun h => by cases h) (hloaded data)
  | corrupt bytes =>
      refine advances_goto (fun h => by cases h) ?_
      rw [hpc]
      simp only [stepsLeft]
      omega

theorem advances_finish {c : StoreCall} {data : Sessions} (hpc : s.pc t = .loaded c data)
    (now : Str) : s.Advances t (s.finish t now data c) := by
  have hleave : stepsLeft .leave < stepsLeft (s.pc t) := by
    rw [hpc]
    exact Nat.lt_succ_self 1
  have hidle : stepsLeft .idle < stepsLeft (s.pc t) := by
    rw [hpc]
    exact Nat.zero_lt_two
  cases c with
  | saveSession id name scopeText chatHistory extraFields =>
      exact advances_goto (fun h => by cases h) hleave
  | updateSession id fields =>
      show s.Advances t (s.update t data id fields)
      unfold update
      split
      · exact advances_goto (fun h => by cases h) hleave
      · exact advances_goto (fun h => by cases h) hleave
  | deleteSession id => exact advances_goto (fun h => by cases h) hleave
  | getSession id => exact advances_goto (fun h => by cases h) hidle
  | listSessions => exact advances_goto (fun h => by cases h) hidle

/-- A thread that is not kept out of the lock comes closer to the end of its call. -/
theorem advances_run (hbusy : s.pc t ≠ .idle) (hfree : ∀ u, u ≠ t → s.lock.depth u = 0)
    (now stamp : Str) : s.Advances t (s.step (.run t now stamp)) := by
  show s.Advances t (s.run t now stamp (s.pc t))
  cases hpc : s.pc t with
  | idle => exact absurd hpc hbusy
  | enter c => exact advances_acquire hfree (by rw [hpc]; exact Nat.lt_succ_self 6)
  | read c => exact advances_read hpc
  | recheck c => exact advances_acquire hfree (by rw [hpc]; exact Nat.lt_succ_self 4)
  | reread c => exact advances_reread hpc
  | backup c => exact advances_goto (fun h => by cases h) (by rw [hpc]; exact Nat.lt_succ_self 2)
  | loaded c data => exact advances_finish hpc now
  | leave => exact advances_goto (fun h => by cases h) (by rw [hpc]; exact Nat.zero_lt_one)

/-- While a call is under way, some thread with a call under way can go on with it: the store
never comes to a halt before every call is done. -/
theorem store_never_stuck (file : SessionsFile) (backups : Dict Str SessionsFile)
    (labels : List StoreLabel) (t : ThreadId)
    (hbusy : (storeAfter file backups labels).pc t ≠ .idle) :
    ∃ u, (storeAfter file backups labels).pc u ≠ .idle ∧ ∀ now stamp,
      (storeAfter file backups labels).Advances u
        ((storeAfter file backups labels).step (.run u now stamp)) := by
  have hlocked := (sound_of_run file backups labels).locked
  by_cases hheld : ∃ u, 0 < (storeAfter file backups labels).lock.depth u
  · rcases hheld with ⟨u, hu⟩
    have hubusy : (storeAfter file backups labels).pc u ≠ .idle := by
      intro hidle
      rw [hlocked u, hidle] at hu
      exact absurd hu (Nat.lt_irrefl 0)
    refine ⟨u, hubusy, advances_run hubusy fun v hv => ?_⟩
    by_contra hpos
    exact hv (RLock.eq_of_depth_pos (by omega) hu)
  · refine ⟨t, hbusy, advances_run hbusy fun v _ => ?_⟩
    by_contra hpos
    exact hheld ⟨v, by omega⟩

theorem store_never_stuck_overtaken :
    ∃ u, (storeAfter (.corrupt [123]) [] Sample.overtaken).pc u ≠ .idle ∧ ∀ now stamp,
      (storeAfter (.corrupt [123]) [] Sample.overtaken).Advances u
        ((storeAfter (.corrupt [123]) [] Sample.overtaken).step (.run u now stamp)) :=
  store_never_stuck (.corrupt [123]) [] Sample.overtaken 0 fun h => by cases h

end SessionStore

end AuditSwarm
