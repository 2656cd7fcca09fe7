import AuditSwarm.Lib.Procedures
import AuditSwarm.Model.NativeCrew

/-!
# What a crew asks of its models

The calls of a kickoff, in their order, with the receipts of the gateway, and the outputs they lead
to.
-/

namespace AuditSwarm

open Python StrEnum

namespace NativeCrew

variable {ω : Type} {rt : Runtime} {out : Outside ω} {inputs : Inputs} {s s' : CrewState ω}
  {e : Raised}

/-! ## One call -/

/-- A receipt is that of an exchange: it has the hashes of what the model was sent and of the text
its answer was read from. -/
structure Receipted (rt : Runtime) (x : Exchange) (r : LLMCallReceipt) : Prop where
  role : r.role = x.role
  modelId : r.modelId = x.call.spec.modelId
  prompt : sha256Text rt (combinedPrompt x.call) = .ok r.promptSha256
  schema : sha256Text rt x.call.schemaJson = .ok r.schemaSha256
  response : ∃ (M : ResponseModel) (m : { m : PyModel // M.isInstance m = true })
    (completion : Completion) (raw : Str), M.schemaJson = x.call.schemaJson ∧
      x.answer = .ok completion ∧ parsed M completion = .ok (m, raw) ∧
      sha256Text rt raw = .ok r.responseSha256

/-- What a part of a kickoff adds to the history: exchanges, and their receipts. -/
structure Adds (s s' : CrewState ω) (xs : List Exchange) (rs : List LLMCallReceipt) : Prop where
  exchanges : s'.exchanges = s.exchanges ++ xs
  receipts : s'.receipts = s.receipts ++ rs

theorem Adds.nil (hx : s'.exchanges = s.exchanges) (hr : s'.receipts = s.receipts) :
    Adds s s' [] [] where
  exchanges := by rw [hx, List.append_nil]
  receipts := by rw [hr, List.append_nil]

theorem Adds.trans {t : CrewState ω} {xs ys : List Exchange} {rs qs : List LLMCallReceipt}
    (h : Adds s t xs rs) (h' : Adds t s' ys qs) : Adds s s' (xs ++ ys) (rs ++ qs) where
  exchanges := by rw [h'.exchanges, h.exchanges, List.append_assoc]
  receipts := by rw [h'.receipts, h.receipts, List.append_assoc]

theorem exec_complete (role : Str) (call : ModelCall) (s : CrewState ω) :
    (complete out role call).exec s = ((out.complete call s.world).1,
      { s with
        world := (out.complete call s.world).2
        exchanges := s.exchanges ++ [⟨role, call, (out.complete call s.world).1⟩] }) := by
  unfold complete
  rw [Proc.exec_get_bind, Proc.exec_set_bind, Proc.exec_ofExcept]

section
variable {phase : Nat} {role system user : Str} {spec : ModelSpec} {M : ResponseModel}

theorem invokeStructured_ok {m : { m : PyModel // M.isInstance m = true }}
    (h : (invokeStructured rt out phase role spec system user M).exec s = (.ok m, s')) :
    ∃ answer r, Adds s s' [⟨role, ⟨spec, system, user, M.schemaJson⟩, answer⟩] [r] ∧
      Receipted rt ⟨role, ⟨spec, system, user, M.schemaJson⟩, answer⟩ r := by
  unfold invokeStructured at h
  dsimp only at h
  rcases Proc.exec_bind_eq_ok_iff.mp h with ⟨promptHash, s₁, hrun, h⟩
  rcases Proc.exec_ofExcept_eq_ok_iff.mp hrun with ⟨hprompt, rfl⟩
  rcases Proc.exec_bind_eq_ok_iff.mp h with ⟨schemaHash, s₂, hrun, h⟩
  rcases Proc.exec_ofExcept_eq_ok_iff.mp hrun with ⟨hschema, rfl⟩
  rcases Proc.exec_bind_eq_ok_iff.mp h with ⟨completion, s₃, hcomplete, h⟩
  rw [exec_complete, Prod.mk.injEq] at hcomplete
  rcases Proc.exec_bind_eq_ok_iff.mp h with ⟨⟨model, raw⟩, s₄, hrun, h⟩
  rcases Proc.exec_ofExcept_eq_ok_iff.mp hrun with ⟨hparsed, rfl⟩
  dsimp only at h
  rcases Proc.exec_bind_eq_ok_iff.mp h with ⟨responseHash, s₅, hrun, h⟩
  rcases Proc.exec_ofExcept_eq_ok_iff.mp hrun with ⟨hresponse, rfl⟩
  rw [Proc.exec_get_bind, Proc.exec_set_bind, Proc.exec_pure, Prod.mk.injEq] at h
  rcases h with ⟨hm, rfl⟩
  rcases hcomplete with ⟨hanswer, rfl⟩
  refine ⟨.ok completion, _, ⟨?_, rfl⟩, ?_⟩
  · rw [← hanswer]
  · exact ⟨rfl, rfl, hprompt, hschema, M, model, completion, raw, rfl, rfl, hparsed, hresponse⟩

/-- What a structured call that raises adds: at most its exchange, and no receipt. -/
def Attempted (role : Str) (call : ModelCall) (s s' : CrewState ω) : Prop :=
  ∃ xs, Adds s s' xs [] ∧ (xs = [] ∨ ∃ answer, xs = [⟨role, call, answer⟩])

theorem attempted_self (role : Str) (call : ModelCall) (s : CrewState ω) :
    Attempted role call s s :=
  ⟨[], .nil rfl rfl, .inl rfl⟩

theorem attempted_complete {call : ModelCall} {r : Except Raised Completion}
    (h : (complete out role call).exec s = (r, s')) : Attempted role call s s' := by
  rw [exec_complete, Prod.mk.injEq] at h
  rw [← h.2]
  exact ⟨_, ⟨rfl, (List.append_nil _).symm⟩, .inr ⟨_, rfl⟩⟩

theorem invokeStructured_error
    (h : (invokeStructured rt out phase role spec system user M).exec s = (.error e, s')) :
    Attempted role ⟨spec, system, user, M.schemaJson⟩ s s' := by
  unfold invokeStructured at h
  dsimp only at h
  rcases Proc.exec_bind_eq_error_iff.mp h with h | ⟨promptHash, s₁, hprompt, h⟩
  · rw [← (Proc.exec_ofExcept_eq_error_iff.mp h).2]
    exact attempted_self ..
  rcases Proc.exec_ofExcept_eq_ok_iff.mp hprompt with ⟨-, rfl⟩
  rcases Proc.exec_bind_eq_error_iff.mp h with h | ⟨schemaHash, s₂, hschema, h⟩
  · rw [← (Proc.exec_ofExcept_eq_error_iff.mp h).2]
    exact attempted_self ..
  rcases Proc.exec_ofExcept_eq_ok_iff.mp hschema with ⟨-, rfl⟩
  -- from here on the model has been called
  rcases Proc.exec_bind_eq_error_iff.mp h with h | ⟨completion, s₃, hcomplete, h⟩
  · exact attempted_complete h
  have hcalled := attempted_complete hcomplete
  rcases Proc.exec_bind_eq_error_iff.mp h with h | ⟨⟨model, raw⟩, s₄, hparsed, h⟩
  · rw [← (Proc.exec_ofExcept_eq_error_iff.mp h).2]
    exact hcalled
  rcases Proc.exec_ofExcept_eq_ok_iff.mp hparsed with ⟨-, rfl⟩
  dsimp only at h
  rcases Proc.exec_bind_eq_error_iff.mp h with h | ⟨responseHash, s₅, hresponse, h⟩
  · rw [← (Proc.exec_ofExcept_eq_error_iff.mp h).2]
    exact hcalled
  · rw [Proc.exec_get_bind, Proc.exec_set_bind, Proc.exec_pure] at h
    cases h

end

/-! ## One task -/

theorem exec_runTool (tool : NativeTool ω) (s : CrewState ω) :
    ∃ text world, (runTool tool).exec s = (.ok text, { s with world := world }) := by
  unfold runTool
  rw [Proc.exec_get_bind, Proc.exec_set_bind]
  cases (tool.run s.world).1 with
  | ok res => exact ⟨_, _, rfl⟩
  | error exc => exact ⟨_, _, rfl⟩

/-- The tools run through, whatever they raise, and no model is called. -/
theorem exec_runTools (tools : List (NativeTool ω)) (s : CrewState ω) :
    ∃ texts world, (runTools tools).exec s = (.ok texts, { s with world := world }) := by
  induction tools generalizing s with
  | nil => exact ⟨[], s.world, rfl⟩
  | cons tool rest ih =>
      rcases exec_runTool tool s with ⟨text, world, htool⟩
      rcases ih { s with world := world } with ⟨texts, world', hrest⟩
      refine ⟨text :: texts, world', ?_⟩
      unfold runTools
      rw [Proc.exec_bind_ok htool, Proc.exec_bind_ok hrest]
      rfl

theorem exec_stepCallback {o : NativeTaskOutput} {r : Except Raised Unit}
    (h : (stepCallback out o).exec s = (r, s')) : Adds s s' [] [] := by
  unfold stepCallback at h
  split at h
  · cases h
    exact .nil rfl rfl
  · rw [Proc.exec_get_bind, Proc.exec_set_bind, Proc.exec_ofExcept, Prod.mk.injEq] at h
    rw [← h.2]
    exact .nil rfl rfl

section
variable {name description user : Str} {t : NativeTask ω} {o : NativeTaskOutput}

def Exchange.named (x : Exchange) : Str × ModelCall := (x.role, x.call)

/-- The call of a model a task makes, given its name and its prompt. -/
def taskCall (rt : Runtime) (out : Outside ω) (name user : Str) (t : NativeTask ω) :
    Option (Str × ModelCall) :=
  match t.outputPydantic, (t.agent.map (·.tools)).getD [] with
  | none, _ :: _ => none
  | some M, _ => some (name, ⟨specOf rt 0 t.agent, systemPrompt t.agent, user, M.schemaJson⟩)
  | none, [] => some (name, ⟨specOf rt (1 / 10) t.agent, systemPrompt t.agent, user,
      out.textEnvelope.schemaJson⟩)

/-- An output of a task has its name, and an instance of the class the task asks for. -/
structure Fulfils (t : NativeTask ω) (name : Str) (o : NativeTaskOutput) : Prop where
  name : o.name = name
  classed : ∀ M, t.outputPydantic = some M → ∃ m, o.pydantic = some m ∧ M.isInstance m = true

theorem perform_ok (h : (perform rt out name description user t).exec s = (.ok o, s')) :
    Fulfils t name o ∧ ∃ xs rs, Adds s s' xs rs ∧
      xs.map Exchange.named = (taskCall rt out name user t).toList ∧
      List.Forall₂ (Receipted rt) xs rs := by
  unfold perform at h
  unfold taskCall
  cases hM : t.outputPydantic with
  | some M =>
      rw [hM] at h
      dsimp only at h ⊢
      rcases Proc.exec_bind_eq_ok_iff.mp h with ⟨m, s₁, hcall, h⟩
      rcases Proc.exec_bind_eq_ok_iff.mp h with ⟨raw, s₂, hraw, h⟩
      rcases Proc.exec_ofExcept_eq_ok_iff.mp hraw with ⟨-, rfl⟩
      rcases Proc.exec_pure_eq_ok_iff.mp h with ⟨rfl, rfl⟩
      rcases invokeStructured_ok hcall with ⟨answer, r, hadds, hreceipt⟩
      refine ⟨⟨rfl, ?_⟩, _, _, hadds, rfl, .cons hreceipt .nil⟩
      intro M' hM'
      rw [hM] at hM'
      cases hM'
      exact ⟨m.val, rfl, m.property⟩
  | none =>
      rw [hM] at h
      have hclass : ∀ o : NativeTaskOutput, o.name = name → Fulfils t name o := by
        intro o ho
        refine ⟨ho, fun M hM' => ?_⟩
        rw [hM] at hM'
        cases hM'
      cases htools : (t.agent.map (·.tools)).getD [] with
      | cons tool rest =>
          rw [htools] at h
          dsimp only at h ⊢
          rcases exec_runTools (tool :: rest) s with ⟨texts, world, htexts⟩
          rw [Proc.exec_bind_ok htexts] at h
          rcases Proc.exec_pure_eq_ok_iff.mp h with ⟨rfl, rfl⟩
          exact ⟨hclass _ rfl, [], [], .nil rfl rfl, rfl, .nil⟩
      | nil =>
          rw [htools] at h
          dsimp only at h ⊢
          rcases Proc.exec_bind_eq_ok_iff.mp h with ⟨m, s₁, hcall, h⟩
          rcases Proc.exec_pure_eq_ok_iff.mp h with ⟨rfl, rfl⟩
          rcases invokeStructured_ok hcall with ⟨answer, r, hadds, hreceipt⟩
          exact ⟨hclass _ rfl, _, _, hadds, rfl, .cons hreceipt .nil⟩

/-- What a task that raises adds: at most its call, with or without a receipt. -/
def AddsAtMost (rt : Runtime) (call : Option (Str × ModelCall)) (s s' : CrewState ω) : Prop :=
  ∃ xs rs, Adds s s' xs rs ∧ (xs = [] ∨ xs.map Exchange.named = call.toList) ∧
    (rs = [] ∨ List.Forall₂ (Receipted rt) xs rs)

theorem perform_error (h : (perform rt out name description user t).exec s = (.error e, s')) :
    AddsAtMost rt (taskCall rt out name user t) s s' := by
  unfold perform at h
  unfold taskCall
  have hcalled : ∀ {phase : Nat} {system : Str} {spec : ModelSpec} {M : ResponseModel},
      (invokeStructured rt out phase name spec system user M).exec s = (.error e, s') →
        AddsAtMost rt (some (name, ⟨spec, system, user, M.schemaJson⟩)) s s' := by
    intro phase system spec M hcall
    rcases invokeStructured_error hcall with ⟨xs, hadds, hxs⟩
    refine ⟨xs, [], hadds, ?_, .inl rfl⟩
    rcases hxs with rfl | ⟨answer, rfl⟩
    · exact .inl rfl
    · exact .inr rfl
  cases hM : t.outputPydantic with
  | some M =>
      rw [hM] at h
      dsimp only at h ⊢
      rcases Proc.exec_bind_eq_error_iff.mp h with h | ⟨m, s₁, hcall, h⟩
      · exact hcalled h
      · rcases Proc.exec_bind_eq_error_iff.mp h with h | ⟨raw, s₂, -, h⟩
        · rcases Proc.exec_ofExcept_eq_error_iff.mp h with ⟨-, rfl⟩
          rcases invokeStructured_ok hcall with ⟨answer, r, hadds, hreceipt⟩
          exact ⟨_, _, hadds, .inr rfl, .inr (.cons hreceipt .nil)⟩
        · cases h
  | none =>
      rw [hM] at h
      cases htools : (t.agent.map (·.tools)).getD [] with
      | cons tool rest =>
          rw [htools] at h
          dsimp only at h
          rcases exec_runTools (tool :: rest) s with ⟨texts, world, htexts⟩
          rw [Proc.exec_bind_ok htexts] at h
          cases h
      | nil =>
          rw [htools] at h
          dsimp only at h ⊢
          rcases Proc.exec_bind_eq_error_iff.mp h with h | ⟨m, s₁, -, h⟩
          · exact hcalled h
          · cases h

/-- The call of a model a task makes, given the outputs before it. -/
def callOf (rt : Runtime) (out : Outside ω) (inputs : Inputs) (idx : Nat)
    (outputs : List NativeTaskOutput) (t : NativeTask ω) :
    Except Raised (Option (Str × ModelCall)) := do
  let description ← interpolateOnly rt (some t.description) inputs
  let expected ← interpolateOnly rt (some t.expectedOutput) inputs
  return taskCall rt out (taskName idx t)
    (userPrompt description expected (contextString outputs t.context)) t

variable {idx : Nat} {outputs : List NativeTaskOutput}

theorem runTask_ok (h : (runTask rt out inputs idx outputs t).exec s = (.ok o, s')) :
    Fulfils t (taskName idx t) o ∧ ∃ call xs rs, callOf rt out inputs idx outputs t = .ok call ∧
      Adds s s' xs rs ∧ xs.map Exchange.named = call.toList ∧
      List.Forall₂ (Receipted rt) xs rs := by
  unfold runTask at h
  rcases Proc.exec_bind_eq_ok_iff.mp h with ⟨description, s₁, hrun, h⟩
  rcases Proc.exec_ofExcept_eq_ok_iff.mp hrun with ⟨hdescription, rfl⟩
  rcases Proc.exec_bind_eq_ok_iff.mp h with ⟨expected, s₂, hrun, h⟩
  rcases Proc.exec_ofExcept_eq_ok_iff.mp hrun with ⟨hexpected, rfl⟩
  rcases Proc.exec_bind_eq_ok_iff.mp h with ⟨o', s₃, hperform, h⟩
  rcases Proc.exec_bind_eq_ok_iff.mp h with ⟨_, s₄, hcallback, h⟩
  rcases Proc.exec_pure_eq_ok_iff.mp h with ⟨rfl, rfl⟩
  rcases perform_ok hperform with ⟨hfulfils, xs, rs, hadds, hcall, hreceipts⟩
  have hall := hadds.trans (exec_stepCallback hcallback)
  rw [List.append_nil, List.append_nil] at hall
  refine ⟨hfulfils, _, xs, rs, ?_, hall, hcall, hreceipts⟩
  unfold callOf
  rw [hdescription, Except.ok_bind, hexpected, Except.ok_bind]
  rfl

/-- A task that raises: its prompt could not be made, or it adds at most its call. -/
theorem runTask_error (h : (runTask rt out inputs idx outputs t).exec s = (.error e, s')) :
    (callOf rt out inputs idx outputs t = .error e ∧ s' = s) ∨
      ∃ call, callOf rt out inputs idx outputs t = .ok call ∧ AddsAtMost rt call s s' := by
  unfold runTask at h
  unfold callOf
  rcases Proc.exec_bind_eq_error_iff.mp h with h | ⟨description, s₁, hrun, h⟩
  · rcases Proc.exec_ofExcept_eq_error_iff.mp h with ⟨hdescription, rfl⟩
    rw [hdescription]
    exact .inl ⟨rfl, rfl⟩
  rcases Proc.exec_ofExcept_eq_ok_iff.mp hrun with ⟨hdescription, rfl⟩
  rw [hdescription, Except.ok_bind]
  rcases Proc.exec_bind_eq_error_iff.mp h with h | ⟨expected, s₂, hrun, h⟩
  · rcases Proc.exec_ofExcept_eq_error_iff.mp h with ⟨hexpected, rfl⟩
    rw [hexpected]
    exact .inl ⟨rfl, rfl⟩
  rcases Proc.exec_ofExcept_eq_ok_iff.mp hrun with ⟨hexpected, rfl⟩
  rw [hexpected, Except.ok_bind]
  refine .inr ⟨_, rfl, ?_⟩
  rcases Proc.exec_bind_eq_error_iff.mp h with h | ⟨o', s₃, hperform, h⟩
  · exact perform_error h
  · rcases perform_ok hperform with ⟨-, xs, rs, hadds, hcall, hreceipts⟩
    rcases Proc.exec_bind_eq_error_iff.mp h with h | ⟨_, s₄, -, h⟩
    · have hall := hadds.trans (exec_stepCallback h)
      rw [List.append_nil, List.append_nil] at hall
      exact ⟨xs, rs, hall, .inr hcall, .inr hreceipts⟩
    · cases h

end

/-! ## All tasks -/

/-- The calls of tasks in their order, given the outputs before them and their own. -/
def plannedCalls (rt : Runtime) (out : Outside ω) (inputs : Inputs) :
    Nat → List NativeTaskOutput → List (NativeTask ω) → List NativeTaskOutput →
      Except Raised (List (Str × ModelCall))
  | idx, before, t :: rest, o :: results => do
      let call ← callOf rt out inputs idx before t
      let later ← plannedCalls rt out inputs (idx + 1) (before ++ [o]) rest results
      return call.toList ++ later
  | _, _, _, _ => .ok []

/-- Tasks that were run, from a position on and after some outputs: their outputs, their calls in
their order, and the receipts of these. -/
structure Performed (rt : Runtime) (out : Outside ω) (inputs : Inputs) (idx : Nat)
    (before : List NativeTaskOutput) (tasks : List (NativeTask ω))
    (results : List NativeTaskOutput) (s s' : CrewState ω) : Prop where
  fulfilled : ∀ i t, tasks[i]? = some t →
    ∃ o, results[i]? = some o ∧ Fulfils t (taskName (idx + i) t) o
  length : results.length = tasks.length
  calls : ∃ calls xs rs, plannedCalls rt out inputs idx before tasks results = .ok calls ∧
    Adds s s' xs rs ∧ xs.map Exchange.named = calls ∧ List.Forall₂ (Receipted rt) xs rs

/-- What a run of tasks that raised has done: it has run some of them, and failed at the next. -/
structure StoppedAt (rt : Runtime) (out : Outside ω) (inputs : Inputs) (idx : Nat)
    (before : List NativeTaskOutput) (done : List (NativeTask ω)) (t : NativeTask ω)
    (results : List NativeTaskOutput) (e : Raised) (s s' : CrewState ω) : Prop where
  between : ∃ u, Performed rt out inputs idx before done results s u ∧
    ((callOf rt out inputs (idx + done.length) (before ++ results) t = .error e ∧ s' = u) ∨
      ∃ call, callOf rt out inputs (idx + done.length) (before ++ results) t = .ok call ∧
        AddsAtMost rt call u s')

section
variable {idx : Nat} {before : List NativeTaskOutput} {tasks : List (NativeTask ω)}
  {t : NativeTask ω} {o : NativeTaskOutput} {results : List NativeTaskOutput}

theorem performed_nil : Performed rt out inputs idx before [] [] s s where
  fulfilled := by
    intro i t h
    cases h
  length := rfl
  calls := ⟨[], [], [], rfl, .nil rfl rfl, rfl, .nil⟩

theorem Performed.cons {u : CrewState ω}
    (hrun : (runTask rt out inputs idx before t).exec s = (.ok o, u))
    (h : Performed rt out inputs (idx + 1) (before ++ [o]) tasks results u s') :
    Performed rt out inputs idx before (t :: tasks) (o :: results) s s' := by
  rcases runTask_ok hrun with ⟨hfulfils, call, xs, rs, hcall, hadds, hnamed, hreceipts⟩
  rcases h.calls with ⟨calls, ys, qs, hplanned, hadds', hnamed', hreceipts'⟩
  constructor
  · intro i t' ht'
    cases i with
    | zero =>
        cases ht'
        exact ⟨o, rfl, hfulfils⟩
    | succ i =>
        rcases h.fulfilled i t' ht' with ⟨o', ho', hfulfils'⟩
        refine ⟨o', ho', ?_⟩
        rw [show idx + (i + 1) = idx + 1 + i by omega]
        exact hfulfils'
  · rw [List.length_cons, List.length_cons, h.length]
  · refine ⟨call.toList ++ calls, xs ++ ys, rs ++ qs, ?_, hadds.trans hadds', ?_, ?_⟩
    · unfold plannedCalls
      rw [hcall, Except.ok_bind, hplanned, Except.ok_bind]
      rfl
    · rw [List.map_append, hnamed, hnamed']
    · exact List.rel_append hreceipts hreceipts'

/-- The loop over the tasks: it runs them all, or stops at one of them. -/
theorem runTasks_cases {r : Except Raised (List NativeTaskOutput)}
    (h : (runTasks rt out inputs idx before tasks).exec s = (r, s')) :
    (∃ results, r = .ok (before ++ results) ∧
      Performed rt out inputs idx before tasks results s s') ∨
    ∃ e done t rest results, r = .error e ∧ tasks = done ++ t :: rest ∧
      StoppedAt rt out inputs idx before done t results e s s' := by
  induction tasks generalizing idx before s with
  | nil =>
      unfold runTasks at h
      cases h
      exact .inl ⟨[], by rw [List.append_nil], performed_nil⟩
  | cons t tasks ih =>
      unfold runTasks at h
      rw [Proc.exec_bind] at h
      rcases hrun : (runTask rt out inputs idx before t).exec s with ⟨_ | o, u⟩
      · rw [hrun] at h
        cases h
        refine .inr ⟨_, [], t, tasks, [], rfl, rfl, ⟨s, performed_nil, ?_⟩⟩
        rw [List.append_nil]
        exact runTask_error hrun
      · rw [hrun] at h
        rcases ih h with ⟨results, rfl, hperformed⟩ | ⟨e, done, t', rest, results, rfl, rfl, hstop⟩
        · exact .inl ⟨o :: results, by simp, .cons hrun hperformed⟩
        · rcases hstop.between with ⟨v, hperformed, hend⟩
          refine .inr ⟨e, t :: done, t', rest, o :: results, rfl, rfl,
            ⟨v, .cons hrun hperformed, ?_⟩⟩
          rw [List.length_cons, show idx + (done.length + 1) = idx + 1 + done.length by omega,
            show before ++ o :: results = before ++ [o] ++ results by simp]
          exact hend

end

end NativeCrew

end AuditSwarm
