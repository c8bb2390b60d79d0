import Torlane.Pool.System

/-!
# Uninterrupted operations

The system splits every operation of the manager at its lock sections. `Works` is a run of the
manager alone. Along it the sections of an operation compose to the whole operation, as the source
writes it down: `receive_works` says so for each command, and `tick_works` for the timer.
-/

namespace Torlane

open Transition

/-- A run in which nobody but the manager takes a step, and the outside world answers `env`. -/
abbrev Works (env : Env) : State → State → Prop := Reaches step fun _ a => a = .work env

/-- The state after a whole command, as `run_manager` processes it. -/
def process (s : State) (env : Env) : ManagerCommand → State
  | .assign lane epoch => { s with mgr := s.mgr.assign env lane epoch, pc := .idle }
  | .rotate lane response =>
    let (mgr, result) := s.mgr.rotate env lane
    { { s with mgr }.deliver response result with pc := .idle }
  | .restart call =>
    let (mgr, result) := s.mgr.restart env
    { { s with mgr }.deliver (some call) result with pc := .idle }
  | .shutdown call =>
    let (mgr, result) := s.mgr.shutdownInstance env
    { { s with mgr }.deliver (some call) result with queue := [], pc := .finished }

variable {s t u : State} {env : Env}

/-- One section of the manager's, and then the rest of a run. -/
theorem Works.head (h : work s env = some t) (hrest : Works env t u) : Works env s u :=
  have hnext : Works env s t := Reaches.single rfl h
  hnext.trans hrest

/-- A response does not depend on where the manager stands. -/
theorem deliver_pc (s : State) (pc : ManagerPc) (call : Option CallId)
    (result : Except Error Unit) :
    { s with pc }.deliver call result = { s.deliver call result with pc } := by
  cases call with
  | none => rfl
  | some c => cases hpc : s.calls c <;> simp only [State.deliver, hpc] <;> rfl

/-- The response is the last section of an operation. -/
theorem works_respond (s : State) (env : Env) (job : Job) (result : Except Error Unit) :
    Works env { s with pc := .respond job result }
      { s.deliver job.response result with pc := .idle } := by
  refine Works.head (by rw [work]) ?_
  rw [deliver_pc]
  exact .refl

/-- The sections of `publish_ready`, and the response. -/
theorem works_publish (s : State) (env : Env) (job : Job) (result : Except Error Unit) :
    Works env { s with pc := .compute job result }
      { { s with mgr := s.mgr.publishReady }.deliver job.response result with pc := .idle } :=
  Works.head rfl <| Works.head rfl <|
    works_respond { s with mgr := s.mgr.publishReady } env job result

/-- The loop of `restart`. -/
theorem works_renew (s : State) (env : Env) (call : CallId) (ids : List LaneId) :
    Works env { s with pc := .renew call ids }
      { s with mgr := s.mgr.renewLanes env ids, pc := .compute (.restart call) (.ok ()) } := by
  induction ids generalizing s with
  | nil => exact Works.head rfl .refl
  | cons id ids ih =>
    cases hlane : s.mgr.renewLane env id with
    | mk mgr renewed =>
      -- The mark of the lane is taken back only where its rotation has succeeded.
      cases renewed with
      | true =>
        simp only [ManagerState.renewLanes, hlane]
        refine Works.head (by simp only [work, hlane]; rfl) (Works.head rfl ?_)
        exact ih { s with mgr := mgr.unmark id }
      | false =>
        simp only [ManagerState.renewLanes, hlane]
        refine Works.head (by simp only [work, hlane]; rfl) ?_
        exact ih { s with mgr }

/-- What is left of `restart` once the old instance is gone: the manager's state at the end, and the
result. -/
def restarted (s : ManagerState) (env : Env) (config : InstanceConfig) :
    ManagerState × Except Error Unit :=
  match env.start with
  | .error error => ((s.setStates .failed).publishReady, .error (.tor error))
  | .ok socksAddr =>
    let s := s.adopt ⟨config.id, socksAddr⟩
    ((s.renewLanes env (s.lanes.map (·.id))).publishReady, .ok ())

/-- The sections of `restart` once the old instance is gone. -/
theorem works_start (s : State) (env : Env) (config : InstanceConfig) (call : CallId) :
    Works env { s with pc := .start config call }
      { { s with mgr := (restarted s.mgr env config).1 }.deliver (some call)
          (restarted s.mgr env config).2 with pc := .idle } := by
  unfold restarted
  cases hstart : env.start with
  | error error =>
    refine Works.head (by simp only [work, hstart]; rfl) ?_
    exact works_publish { s with mgr := s.mgr.setStates .failed } env (.restart call) _
  | ok socksAddr =>
    refine Works.head (by simp only [work, hstart]; rfl) ?_
    have hloop := works_renew { s with mgr := s.mgr.adopt ⟨config.id, socksAddr⟩ } env call
      (s.mgr.lanes.map (·.id))
    exact hloop.trans (works_publish { s with mgr := _ } env (.restart call) (.ok ()))

/-- The last sections of `shutdown_instance`, and the end of the loop of `run_manager`. -/
theorem works_halt (s : State) (env : Env) (call : CallId) (result : Except Error Unit) :
    Works env { s with pc := .haltRespond call result }
      { s.deliver (some call) result with queue := [], pc := .finished } := by
  refine Works.head rfl (Works.head rfl ?_)
  rw [deliver_pc]
  exact .refl

/-- The sections of `restart`. -/
theorem works_restart (s : State) (env : Env) (call : CallId) :
    Works env (receive s env (.restart call)) (process s env (.restart call)) := by
  cases hconfig : s.mgr.instanceConfig with
  | none =>
    simp only [receive, process, ManagerState.restart, hconfig]
    exact works_respond s env (.restart call) _
  | some config =>
    -- The ready list is cleared, the lanes are marked and retired, and the instance is taken.
    let mgr := s.mgr.clearReady.markAll.setStates .retiring
    have hheld : (s.mgr.clearReady.markAll.setStates .retiring).inst = s.mgr.inst := rfl
    have hretire (held : Option TorInstance) (hinst : s.mgr.inst = held) :
        work { s with mgr := s.mgr.clearReady.markAll, pc := .retire config call } env =
          some { s with
            mgr := mgr.takeInstance
            pc := if held.isSome then .stop config call else .start config call } := by
      subst hinst
      rfl
    have hstart := works_start { s with mgr := mgr.takeInstance } env config call
    simp only [receive, process, hconfig]
    refine Works.head rfl (Works.head rfl ?_)
    -- Whether there is an instance to stop, and whether it stops, decides how `restart` goes on.
    cases hinst : s.mgr.inst with
    | none =>
      have hrestart : s.mgr.restart env = restarted mgr.takeInstance env config := by
        simp only [ManagerState.restart, hconfig, hheld, hinst]
        rfl
      rw [hrestart]
      exact Works.head (t := { s with mgr := mgr.takeInstance, pc := .start config call })
        (hretire none hinst) hstart
    | some inst =>
      cases hstop : env.stop with
      | error error =>
        have hrestart : s.mgr.restart env = (mgr.takeInstance, .error (.tor error)) := by
          simp only [ManagerState.restart, hconfig, hheld, hinst, hstop]
          rfl
        rw [hrestart]
        refine Works.head (t := { s with mgr := mgr.takeInstance, pc := .stop config call }) ?_
          (Works.head (by simp only [work, hstop]; rfl) ?_)
        · exact hretire (some inst) hinst
        · exact works_respond { s with mgr := mgr.takeInstance } env (.restart call) _
      | ok =>
        have hrestart : s.mgr.restart env = restarted mgr.takeInstance env config := by
          simp only [ManagerState.restart, hconfig, hheld, hinst, hstop]
          rfl
        rw [hrestart]
        refine Works.head (t := { s with mgr := mgr.takeInstance, pc := .stop config call }) ?_
          (Works.head (by simp only [work, hstop]) hstart)
        exact hretire (some inst) hinst

/-- The sections of `shutdown_instance`. -/
theorem works_shutdown (s : State) (env : Env) (call : CallId) :
    Works env (receive s env (.shutdown call)) (process s env (.shutdown call)) := by
  let mgr := s.mgr.clearReady
  have hmgr : s.mgr.clearReady.inst = s.mgr.inst := rfl
  have hhalt := works_halt { s with mgr := mgr.takeInstance } env call
  simp only [receive, process, ManagerState.shutdownInstance, hmgr]
  refine Works.head (t := { s with mgr, pc := .haltTake call }) rfl ?_
  -- Without an instance, there is nothing to stop.
  cases hinst : s.mgr.inst with
  | none =>
    refine Works.head ?_ (hhalt (.ok ()))
    simp only [work, mgr, hmgr, hinst]
    rfl
  | some inst =>
    refine Works.head (t := { s with mgr := mgr.takeInstance, pc := .haltStop call }) ?_ ?_
    · simp only [work, mgr, hmgr, hinst]
      rfl
    · cases hstop : env.stop with
      | error error =>
        exact Works.head (by simp only [work, hstop]; rfl) (hhalt (.error (.tor error)))
      | ok => exact Works.head (by simp only [work, hstop]; rfl) (hhalt (.ok ()))

/-- A command that is taken off the queue and processed without interference has the effect of the
whole operation. -/
theorem receive_works (s : State) (env : Env) (command : ManagerCommand) :
    Works env (receive s env command) (process s env command) := by
  cases command with
  | assign lane epoch =>
    cases hassign : s.mgr.assignLanes env lane epoch with
    | mk mgr publish =>
      cases publish with
      -- `assign` publishes if it has rotated the lane.
      | true =>
        simp only [receive, process, ManagerState.assign, hassign]
        exact works_publish { s with mgr } env .assign (.ok ())
      | false =>
        simp only [receive, process, ManagerState.assign, hassign]
        exact .refl
  | rotate lane response =>
    cases hrotate : s.mgr.rotateLanes env lane with
    | none =>
      simp only [receive, process, ManagerState.rotate, hrotate]
      exact works_respond s env (.rotate lane response) _
    | some rotated =>
      obtain ⟨mgr, result⟩ := rotated
      cases result with
      | ok =>
        simp only [receive, process, ManagerState.rotate, hrotate]
        exact Works.head rfl
          (works_publish { s with mgr := mgr.unmark lane } env (.rotate lane response) (.ok ()))
      | error error =>
        simp only [receive, process, ManagerState.rotate, hrotate]
        exact works_publish { s with mgr } env (.rotate lane response) _
  | restart call => exact works_restart s env call
  | shutdown call => exact works_shutdown s env call

/-- The manager takes the first command off the queue, and then processes it as a whole if it is
left alone. -/
theorem step_process {command : ManagerCommand} {rest : List ManagerCommand} (hpc : s.pc = .idle)
    (hqueue : s.queue = command :: rest) (env : Env) :
    ∃ t, step s (.receive env) = some t ∧
      Works env t (process { s with queue := rest } env command) :=
  ⟨_, by simp only [step, hpc, hqueue], receive_works _ env command⟩

/-- The timer's operation, without interference. -/
theorem tick_works (s : State) (env : Env) :
    Works env (tick s env) { s with mgr := s.mgr.rotateExpired env, pc := .idle } := by
  cases hexpire : s.mgr.expireLanes env with
  | mk mgr publish =>
    cases publish with
    | true =>
      simp only [tick, ManagerState.rotateExpired, hexpire]
      exact works_publish { s with mgr } env .expire (.ok ())
    | false =>
      simp only [tick, ManagerState.rotateExpired, hexpire]
      exact .refl

end Torlane
