import AuditSwarm.Properties.Restart

/-!
# The life of a flow

A flow lives through calls and restarts: at any point it may be saved, and the process goes on
with the flow that is loaded.
-/

namespace AuditSwarm

open Python StrEnum

namespace AuditFlow

/-- What happens to a flow: a call, or a restart after a save into these sessions. -/
inductive LifeEvent where
  | call (c : Call)
  | restart (env : Env) (sessions : Sessions) (id : Str)

section
variable (rt : Runtime) (co : Coercions)

/-- The flow after a restart: the one that is loaded from where it was saved.  Where the save or
the load comes to nothing there is no restart. -/
def restarted (env : Env) (sessions : Sessions) (id : Str) (f : AuditFlow) : AuditFlow :=
  match (FlowRepository.save co sessions id f).map
      fun saved => FlowRepository.load rt co env saved id with
  | some (.ok (some loaded)) => loaded.flow
  | _ => f

def lifeStep (f : AuditFlow) : LifeEvent → Except Exn Unit × AuditFlow
  | .call c => step rt f c
  | .restart env sessions id => (.ok (), restarted rt co env sessions id f)

/-- The events of a life, with the flow before and after each. -/
abbrev lifeTrace (f : AuditFlow) (events : List LifeEvent) :
    List (Transition AuditFlow LifeEvent (Except Exn Unit)) :=
  LabelledRun.trace (lifeStep rt co) f events

abbrev afterLife (f : AuditFlow) (events : List LifeEvent) : AuditFlow :=
  LabelledRun.final (lifeStep rt co) f events

end

variable {rt : Runtime} {co : Coercions} {env : Env} {f : AuditFlow}

theorem restarted_cases (hrt : LowersAscii rt) (hf : f.Storable) (sessions : Sessions) (id : Str) :
    restarted rt co env sessions id f = f ∨
      restarted rt co env sessions id f = f.reloaded env id := by
  unfold restarted
  cases hsave : FlowRepository.save co sessions id f with
  | none => exact .inl rfl
  | some saved =>
      rw [Option.map_some, load_save hrt hf hsave]
      exact .inr rfl

structure RestartFrame (f g : AuditFlow) : Prop where
  machine : g.machine = f.machine
  trail : g.state.approvalTrail = f.state.approvalTrail
  reason : g.state.qaRejectionReason = f.state.qaRejectionReason

theorem restartFrame_restarted (hrt : LowersAscii rt) (hf : f.Storable) (sessions : Sessions)
    (id : Str) : RestartFrame f (restarted rt co env sessions id f) := by
  rcases @restarted_cases rt co env _ hrt hf sessions id with h | h
  · rw [h]
    exact ⟨rfl, rfl, rfl⟩
  · rw [h]
    refine ⟨reloaded_machine env id f, ?_, ?_⟩
    · rw [reloaded_state]
    · rw [reloaded_state]

theorem storable_lifeStep (hrt : LowersAscii rt) (e : LifeEvent) (hf : f.Storable) :
    (lifeStep rt co f e).2.Storable := by
  cases e with
  | call c => exact storable_step f c hf
  | restart env sessions id =>
      rcases @restarted_cases rt co env _ hrt hf sessions id with h | h
      · show (restarted rt co env sessions id f).Storable
        rw [h]
        exact hf
      · show (restarted rt co env sessions id f).Storable
        rw [h]
        exact hf.reloaded env id

end AuditFlow

end AuditSwarm
