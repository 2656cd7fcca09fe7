import AuditSwarm.Lib.Indexed
import AuditSwarm.Model.Crews
import AuditSwarm.Model.System
import AuditSwarm.Run.CrewCalls

/-!
# What the agents of a crew are told

Every call of a model in a kickoff is one task's, with its own texts and the outputs of the tasks it
reads.
-/

namespace AuditSwarm

open Python StrEnum

namespace NativeCrew

variable {ω : Type} {rt : Runtime} {out : Outside ω} {inputs : Inputs} {s s' : CrewState ω}

/-! ## A kickoff accounts for its calls -/

/-- A kickoff runs its tasks in their order, or stops at one of them.  Every task that ran has its
output, of its class, and every call is one task's, made in the order of the tasks, with the receipt
of what was sent and of what was read; of the task it stopped at there is at most the one call, and
of the later ones nothing. -/
theorem kickoff_accounted (rt : Runtime) (out : Outside ω) (inputs : Inputs)
    (tasks : List (NativeTask ω)) (s : CrewState ω) :
    (∃ o s', (kickoff rt out inputs tasks).exec s = (.ok o, s') ∧
      Performed rt out inputs 1 [] tasks o.tasksOutput s s' ∧
      o.raw = (o.tasksOutput.getLast?.map (·.raw)).getD [] ∧
      o.pydantic = o.tasksOutput.getLast?.bind (·.pydantic)) ∨
    ∃ e s' done t rest results, (kickoff rt out inputs tasks).exec s = (.error e, s') ∧
      tasks = done ++ t :: rest ∧ StoppedAt rt out inputs 1 [] done t results e s s' := by
  rcases hrun : (runTasks rt out inputs 1 [] tasks).exec s with ⟨r, s'⟩
  unfold kickoff
  rcases runTasks_cases hrun with ⟨results, rfl, h⟩ | ⟨e, done, t, rest, results, rfl, htasks, h⟩
  · rw [List.nil_append] at hrun
    refine .inl ⟨_, s', Proc.exec_bind_ok hrun, h, ?_, ?_⟩
    · cases results.getLast? with
      | none => rfl
      | some last => rfl
    · cases results.getLast? with
      | none => rfl
      | some last => rfl
  · exact .inr ⟨e, s', done, t, rest, results, Proc.exec_bind_error hrun, htasks, h⟩

/-! ## What a task is told -/

/-- Tasks have names of their own, and read tasks before them. -/
structure Ordered (tasks : List (NativeTask ω)) : Prop where
  named : ∀ t ∈ tasks, t.name ≠ []
  nodup : (tasks.map (·.name)).Nodup
  earlier : ∀ before t after, tasks = before ++ t :: after →
    ∀ name ∈ t.context, name ∈ before.map (·.name)

def asksModel (t : NativeTask ω) : Bool :=
  t.outputPydantic.isSome || ((t.agent.map (·.tools)).getD []).isEmpty

/-- The exchange of a task: its own texts, filled in, and the outputs of its context, each in full
and in the order of the context. -/
structure Asked (rt : Runtime) (inputs : Inputs) (outputs : List NativeTaskOutput)
    (t : NativeTask ω) (x : Exchange) : Prop where
  role : x.role = t.name
  system : x.call.systemPrompt = systemPrompt t.agent
  spec : ∃ temperature, x.call.spec = specOf rt temperature t.agent
  user : ∃ description expected told,
    interpolateOnly rt (some t.description) inputs = .ok description ∧
    interpolateOnly rt (some t.expectedOutput) inputs = .ok expected ∧
    List.Forall₂ (fun name o => o ∈ outputs ∧ o.name = name) t.context told ∧
    x.call.userPrompt = userPrompt description expected
      (join (lit "\n\n") (told.map fun o => contextBlob o.name o))

theorem get?_completedByName {outputs : List NativeTaskOutput}
    (hnodup : (outputs.map (·.name)).Nodup) {o : NativeTaskOutput} (ho : o ∈ outputs) :
    (completedByName outputs).get? o.name = some o :=
  Dict.get?_foldl_set_of_nodup hnodup ho []

theorem contextBlobs_told {outputs : List NativeTaskOutput} {context : List Str}
    (hnodup : (outputs.map (·.name)).Nodup)
    (hcontext : ∀ name ∈ context, name ∈ outputs.map (·.name)) :
    ∃ told, List.Forall₂ (fun name o => o ∈ outputs ∧ o.name = name) context told ∧
      (context.filterMap fun name =>
        ((completedByName outputs).get? name).map (contextBlob name)) =
          told.map fun o => contextBlob o.name o := by
  induction context with
  | nil => exact ⟨[], .nil, rfl⟩
  | cons name context ih =>
      rcases ih (fun n hn => hcontext n (List.mem_cons_of_mem name hn)) with ⟨told, htold, hblobs⟩
      rcases List.mem_map.mp (hcontext name List.mem_cons_self) with ⟨o, ho, rfl⟩
      refine ⟨o :: told, .cons ⟨ho, rfl⟩ htold, ?_⟩
      rw [List.filterMap_cons, get?_completedByName hnodup ho, hblobs]
      rfl

theorem contextString_told {outputs : List NativeTaskOutput} {context : List Str}
    (hnodup : (outputs.map (·.name)).Nodup)
    (hcontext : ∀ name ∈ context, name ∈ outputs.map (·.name)) :
    ∃ told, List.Forall₂ (fun name o => o ∈ outputs ∧ o.name = name) context told ∧
      contextString outputs context =
        join (lit "\n\n") (told.map fun o => contextBlob o.name o) := by
  rcases contextBlobs_told hnodup hcontext with ⟨told, htold, hblobs⟩
  refine ⟨told, htold, ?_⟩
  unfold contextString
  rw [hblobs]

theorem callOf_asked {idx : Nat} {before outputs : List NativeTaskOutput} {t : NativeTask ω}
    {call : Option (Str × ModelCall)} (hcall : callOf rt out inputs idx before t = .ok call)
    (hnamed : t.name ≠ []) (hnodup : (before.map (·.name)).Nodup)
    (hearlier : ∀ name ∈ t.context, name ∈ before.map (·.name)) :
    (asksModel t = false → call = none) ∧
      (asksModel t = true → ∃ c, call = some c ∧
        ∀ x : Exchange, x.named = c → Asked rt inputs (before ++ outputs) t x) := by
  unfold callOf at hcall
  rcases Except.bind_eq_ok_iff.mp hcall with ⟨description, hdescription, hcall⟩
  rcases Except.bind_eq_ok_iff.mp hcall with ⟨expected, hexpected, hcall⟩
  rw [Except.pure_eq_ok_iff] at hcall
  rcases contextString_told hnodup hearlier with ⟨told, htold, hcontext⟩
  have htold' : List.Forall₂ (fun name o => o ∈ before ++ outputs ∧ o.name = name)
      t.context told :=
    htold.imp fun name o h => ⟨List.mem_append_left outputs h.1, h.2⟩
  have hasked : ∀ (temperature : Rat) (schema : Str) (x : Exchange),
      x.named = (taskName idx t, ⟨specOf rt temperature t.agent, systemPrompt t.agent,
        userPrompt description expected (contextString before t.context), schema⟩) →
      Asked rt inputs (before ++ outputs) t x := by
    intro temperature schema x hx
    rcases Prod.mk.inj hx with ⟨hrole, hx⟩
    refine ⟨?_, ?_, ⟨temperature, ?_⟩, description, expected, told, hdescription, hexpected,
      htold', ?_⟩
    · rw [hrole]
      exact if_neg hnamed
    · rw [hx]
    · rw [hx]
    · rw [hx, hcontext]
  unfold taskCall at hcall
  unfold asksModel
  cases hM : t.outputPydantic with
  | some M =>
      rw [hM] at hcall
      refine ⟨fun h => (by cases h), fun _ => ?_⟩
      exact ⟨_, hcall.symm, fun x hx => hasked 0 M.schemaJson x hx⟩
  | none =>
      rw [hM] at hcall
      cases htools : (t.agent.map (·.tools)).getD [] with
      | cons tool rest =>
          rw [htools] at hcall
          exact ⟨fun _ => hcall.symm, fun h => (by cases h)⟩
      | nil =>
          rw [htools] at hcall
          refine ⟨fun h => (by cases h), fun _ => ?_⟩
          exact ⟨_, hcall.symm, fun x hx => hasked (1 / 10) out.textEnvelope.schemaJson x hx⟩

/-- Exchanges that are the planned calls of tasks which read earlier tasks: one for each task that a
model does. -/
theorem asked_of_planned {idx : Nat} {done tasks : List (NativeTask ω)}
    {before results : List NativeTaskOutput} {calls : List (Str × ModelCall)} {xs : List Exchange}
    (hordered : Ordered (done ++ tasks)) (hbefore : before.map (·.name) = done.map (·.name))
    (hresults : results.map (·.name) = tasks.map (·.name))
    (hplanned : plannedCalls rt out inputs idx before tasks results = .ok calls)
    (hxs : xs.map Exchange.named = calls) :
    List.Forall₂ (Asked rt inputs (before ++ results)) (tasks.filter asksModel) xs := by
  induction tasks generalizing idx done before results calls xs with
  | nil =>
      unfold plannedCalls at hplanned
      cases hplanned
      rw [List.map_eq_nil_iff.mp hxs]
      exact .nil
  | cons t tasks ih =>
      cases results with
      | nil => cases hresults
      | cons o results =>
          rw [List.map_cons, List.map_cons, List.cons.injEq] at hresults
          unfold plannedCalls at hplanned
          rcases Except.bind_eq_ok_iff.mp hplanned with ⟨call, hcall, hplanned⟩
          rcases Except.bind_eq_ok_iff.mp hplanned with ⟨later, hlater, hplanned⟩
          rw [Except.pure_eq_ok_iff] at hplanned
          rw [← hplanned] at hxs
          rcases List.map_eq_append_iff.mp hxs with ⟨ys, zs, rfl, hys, hzs⟩
          have hnodup : (before.map (·.name)).Nodup := by
            have hall := hordered.nodup
            rw [List.map_append] at hall
            rw [hbefore]
            exact hall.of_append_left
          have hearlier : ∀ name ∈ t.context, name ∈ before.map (·.name) := by
            rw [hbefore]
            exact hordered.earlier done t tasks rfl
          have hrest : List.Forall₂ (Asked rt inputs (before ++ o :: results))
              (tasks.filter asksModel) zs := by
            have happend : before ++ o :: results = before ++ [o] ++ results := by
              rw [List.append_assoc, List.singleton_append]
            rw [happend]
            refine @ih (idx + 1) (done ++ [t]) (before ++ [o]) results later zs ?_ ?_ hresults.2
              hlater hzs
            · rw [List.append_assoc, List.singleton_append]
              exact hordered
            · rw [List.map_append, List.map_append, hbefore, List.map_singleton,
                List.map_singleton, hresults.1]
          rcases @callOf_asked ω rt out inputs idx before (o :: results) t call hcall
            (hordered.named t (List.mem_append_right done List.mem_cons_self)) hnodup hearlier
            with ⟨hnone, hsome⟩
          cases hasks : asksModel t with
          | false =>
              rw [hnone hasks] at hys
              rw [List.map_eq_nil_iff.mp hys, List.nil_append,
                List.filter_cons_of_neg (by rw [hasks]; exact Bool.false_ne_true)]
              exact hrest
          | true =>
              rcases hsome hasks with ⟨c, rfl, hasked⟩
              rcases List.map_eq_singleton_iff.mp hys with ⟨x, rfl, hx⟩
              rw [List.filter_cons_of_pos hasks]
              exact .cons (hasked x hx) hrest

theorem Performed.names {idx : Nat} {before results : List NativeTaskOutput}
    {tasks : List (NativeTask ω)} (h : Performed rt out inputs idx before tasks results s s')
    (hnamed : ∀ t ∈ tasks, t.name ≠ []) :
    results.map (·.name) = tasks.map (·.name) := by
  apply List.ext_getElem?
  intro i
  rw [List.getElem?_map, List.getElem?_map]
  cases ht : tasks[i]? with
  | none =>
      have hi : tasks.length ≤ i := List.getElem?_eq_none_iff.mp ht
      rw [List.getElem?_eq_none_iff.mpr (by rw [h.length]; exact hi)]
      rfl
  | some t =>
      rcases h.fulfilled i t ht with ⟨o, ho, hfulfils⟩
      rw [ho, Option.map_some, Option.map_some, hfulfils.name]
      exact congrArg some (if_neg (hnamed t (List.mem_of_getElem? ht)))

theorem performed_of_kickoff {tasks : List (NativeTask ω)} {o : NativeCrewOutput}
    (hrun : (kickoff rt out inputs tasks).exec s = (.ok o, s')) :
    Performed rt out inputs 1 [] tasks o.tasksOutput s s' := by
  unfold kickoff at hrun
  rcases Proc.exec_bind_eq_ok_iff.mp hrun with ⟨outputs, u, htasks, hlast⟩
  rcases Proc.exec_pure_eq_ok_iff.mp hlast with ⟨rfl, rfl⟩
  rcases runTasks_cases htasks with ⟨results, hresults, h⟩ | ⟨e, _, _, _, _, herror, -⟩
  · rw [List.nil_append, Except.ok.injEq] at hresults
    rw [hresults]
    exact h
  · cases herror

/-- What is asked in a kickoff of tasks that read earlier tasks. -/
theorem kickoff_asked {tasks : List (NativeTask ω)} {o : NativeCrewOutput}
    (hordered : Ordered tasks) (hrun : (kickoff rt out inputs tasks).exec s = (.ok o, s')) :
    o.tasksOutput.map (·.name) = tasks.map (·.name) ∧
    ∃ xs rs, Adds s s' xs rs ∧ List.Forall₂ (Receipted rt) xs rs ∧
      List.Forall₂ (Asked rt inputs o.tasksOutput) (tasks.filter asksModel) xs := by
  have hperformed := performed_of_kickoff hrun
  have hnames := hperformed.names hordered.named
  rcases hperformed.calls with ⟨calls, xs, rs, hplanned, hadds, hxs, hreceipts⟩
  exact ⟨hnames, xs, rs, hadds, hreceipts,
    @asked_of_planned ω rt out inputs 1 [] tasks [] o.tasksOutput calls xs hordered rfl hnames
      hplanned hxs⟩

end NativeCrew

end AuditSwarm
