import Torlane.Pool.Convergence
import Torlane.Pool.Responses
import Torlane.Pool.Restart
import Torlane.Potential

/-!
# Outcomes

What each operation of a pool can return, whatever the other tasks do in the meantime. An error
names the lane that the call is about, and `Error::Closed` is returned by a closed pool only.
`Op.Allows` is the list, and `Op.Permits` follows a call along its steps towards it. The results
that the manager responds with belong to the calls that wait for them (`Responsive`), so that they
are followed through the manager's steps in the same way (`Reported`).
-/

namespace Torlane

open Transition

variable {s t : State} {a : Action}

/-! ## What is allowed -/

/-- The lane that a key is mapped to. -/
def State.keyLane (s : State) (key : List UInt8) : LaneId :=
  ⟨stableLaneIndex key s.mgr.config.lanes % 2^32⟩

/-- The lane could not be rotated: its epochs are used up, or there were no random bytes. -/
def RotationError (lane : LaneId) (error : Error) : Prop :=
  ∃ cause, error = .internal cause ∧ (cause = .epochOverflow lane ∨ ∃ sys, cause = .random sys)

/-- The errors that the manager responds to a restart with. -/
def RestartError (managed : Bool) (error : Error) : Prop :=
  (error = .restartUnavailable ∧ managed = false) ∨ ((∃ cause, error = .tor cause) ∧ managed = true)

/-- The errors of a call of `rotate` on a lane, in a pool of `lanes` lanes. -/
inductive RotateError (lanes : ℕ) (closed wait : Bool) (lane : LaneId) : Error → Prop
  | closed (hclosed : closed = true) : RotateError lanes closed wait lane .closed
  | unknown (hlane : lanes ≤ lane.val) : RotateError lanes closed wait lane (.unknownLane lane)
  | unavailable (hlane : lane.val < lanes) :
      RotateError lanes closed wait lane (.laneUnavailable lane)
  | failed {error : Error} (hlane : lane.val < lanes) (hwait : wait = true)
      (h : RotationError lane error) : RotateError lanes closed wait lane error

/-- What an operation can return. -/
def Op.Allows (s : State) : Op → Outcome → Prop
  | .next, .selected (.ok _) => True
  | .next, .selected (.error error) =>
    error = .noReadyLanes ∨ (error = .closed ∧ s.closed = true)
  | .forKey key, .selected (.ok proxy) => proxy.inner.lane = s.keyLane key
  | .forKey key, .selected (.error error) =>
    error = .laneUnavailable (s.keyLane key) ∨ (error = .closed ∧ s.closed = true)
  | .rotate lane _, .rotated lane' (.ok ()) => lane' = lane ∧ lane.val < s.mgr.config.lanes
  | .rotate lane wait, .rotated lane' (.error error) =>
    lane' = lane ∧ RotateError s.mgr.config.lanes s.closed wait lane error
  | .restart, .restarted (.ok ()) => s.mgr.instanceConfig.isSome = true
  | .restart, .restarted (.error error) =>
    RestartError s.mgr.instanceConfig.isSome error ∨ (error = .closed ∧ s.closed = true)
  | .shutdown, .shutdown (.ok ()) => True
  | .shutdown, .shutdown (.error error) => ∃ cause, error = .tor cause
  | _, _ => False

/-- A call of `rotate` stands at a step of its own lane. -/
def CallPc.Rotates (lane : LaneId) (wait : Bool) : CallPc → Prop
  | .rotateRead lane' wait' => lane' = lane ∧ wait' = wait
  | .rotateMark lane' _ wait' => lane' = lane ∧ wait' = wait
  | .rotateWrite lane' _ wait' => lane' = lane ∧ wait' = wait
  | .rotateSend lane' wait' => lane' = lane ∧ wait' = wait
  | .rotateWait lane' => lane' = lane ∧ wait = true
  | _ => False

/-- Where a call of an operation can stand. -/
def Op.Permits (s : State) (op : Op) : CallPc → Prop
  | .fresh => False
  | .nextRead => op = .next
  | .nextCount _ => op = .next
  | .forKeyRead lane => ∃ key, op = .forKey key ∧ lane = s.keyLane key
  | .pick endpoint => op = .next ∨ ∃ key, op = .forKey key ∧ endpoint.lane = s.keyLane key
  | .restartSend => op = .restart
  | .restartWait => op = .restart
  | .shutdownSend => op = .shutdown
  | .shutdownWait => op = .shutdown
  | .shutdownJoin result => op = .shutdown ∧ op.Allows s (.shutdown result)
  | .shutdownAwait result => op = .shutdown ∧ op.Allows s (.shutdown result)
  | .returning outcome => op.Allows s outcome
  | .done outcome => op.Allows s outcome
  -- The command could not be sent, as the manager has ended.
  | .rotateUndo lane => (∃ wait, op = .rotate lane wait) ∧ s.closed = true
  | pc => ∃ lane wait, op = .rotate lane wait ∧ pc.Rotates lane wait ∧
      lane.val < s.mgr.config.lanes

/-- A closed pool may return the errors of an open one. -/
theorem RotateError.mono {lanes : ℕ} {closed closed' wait : Bool} {lane : LaneId} {error : Error}
    (h : RotateError lanes closed wait lane error) (hclosed : closed = true → closed' = true) :
    RotateError lanes closed' wait lane error := by
  cases h with
  | closed h => exact .closed (hclosed h)
  | unknown hlane => exact .unknown hlane
  | unavailable hlane => exact .unavailable hlane
  | failed hlane hwait h => exact .failed hlane hwait h

/-- What can be returned depends on what the steps leave as it is, but for the closing of the
pool. -/
theorem Op.Allows.mono {op : Op} {outcome : Outcome} (h : op.Allows s outcome)
    (hconfig : t.mgr.config = s.mgr.config) (hinst : t.mgr.instanceConfig = s.mgr.instanceConfig)
    (hclosed : s.closed = true → t.closed = true) : op.Allows t outcome := by
  have hkey (key : List UInt8) : t.keyLane key = s.keyLane key := by
    rw [State.keyLane, State.keyLane, hconfig]
  cases op with
  | next =>
    cases outcome with
    | selected result =>
      cases result with
      | ok => trivial
      | error => exact h.imp_right fun h => ⟨h.1, hclosed h.2⟩
    | _ => exact h
  | forKey key =>
    cases outcome with
    | selected result =>
      cases result with
      | ok => exact h.trans (hkey key).symm
      | error =>
        refine h.imp (fun h => ?_) fun h => ⟨h.1, hclosed h.2⟩
        rw [hkey, h]
    | _ => exact h
  | rotate lane wait =>
    cases outcome with
    | rotated lane' result =>
      cases result with
      | ok => exact ⟨h.1, hconfig ▸ h.2⟩
      | error => exact ⟨h.1, hconfig ▸ h.2.mono hclosed⟩
    | _ => exact h
  | restart =>
    cases outcome with
    | restarted result =>
      cases result with
      | ok => exact (congrArg Option.isSome hinst).trans h
      | error =>
        refine h.imp (fun h => ?_) fun h => ⟨h.1, hclosed h.2⟩
        rw [hinst]
        exact h
    | _ => exact h
  | shutdown =>
    cases outcome with
    | shutdown result => cases result <;> exact h
    | _ => exact h

/-- The same for where a call can stand. -/
theorem Op.Permits.mono {op : Op} {pc : CallPc} (h : op.Permits s pc)
    (hconfig : t.mgr.config = s.mgr.config) (hinst : t.mgr.instanceConfig = s.mgr.instanceConfig)
    (hclosed : s.closed = true → t.closed = true) : op.Permits t pc := by
  have hkey (key : List UInt8) : t.keyLane key = s.keyLane key := by
    rw [State.keyLane, State.keyLane, hconfig]
  cases pc with
  | fresh => exact h
  | nextRead => exact h
  | nextCount => exact h
  | restartSend => exact h
  | restartWait => exact h
  | shutdownSend => exact h
  | shutdownWait => exact h
  | shutdownJoin => exact ⟨h.1, h.2.mono hconfig hinst hclosed⟩
  | shutdownAwait => exact ⟨h.1, h.2.mono hconfig hinst hclosed⟩
  | returning => exact Op.Allows.mono h hconfig hinst hclosed
  | done => exact Op.Allows.mono h hconfig hinst hclosed
  | forKeyRead =>
    obtain ⟨key, hop, hlane⟩ := h
    exact ⟨key, hop, hlane.trans (hkey key).symm⟩
  | pick =>
    refine h.imp_right fun ⟨key, hop, hlane⟩ => ?_
    exact ⟨key, hop, hlane.trans (hkey key).symm⟩
  | rotateUndo => exact ⟨h.1, hclosed h.2⟩
  | _ =>
    obtain ⟨lane, wait, hop, hrotates, hlane⟩ := h
    exact ⟨lane, wait, hop, hrotates, hconfig ▸ hlane⟩

/-! ## The steps of a call -/

/-- The first step of a call leads to where its operation permits it to be. -/
theorem permits_startCall (s : State) (op : Op) : op.Permits s (startCall s op).2 := by
  cases op with
  | next =>
    simp only [startCall]
    split_ifs with hclosed
    · exact .inr ⟨rfl, hclosed⟩
    · rfl
  | forKey key =>
    simp only [startCall]
    split_ifs with hclosed
    · exact .inr ⟨rfl, hclosed⟩
    · exact ⟨key, rfl, rfl⟩
  | rotate lane wait =>
    simp only [startCall]
    split_ifs with hclosed hlane
    · exact ⟨rfl, .closed hclosed⟩
    · exact ⟨rfl, .unknown hlane⟩
    · exact ⟨lane, wait, rfl, ⟨rfl, rfl⟩, Nat.lt_of_not_le hlane⟩
  | restart =>
    simp only [startCall]
    split_ifs with hclosed
    · exact .inr ⟨rfl, hclosed⟩
    · rfl
  | shutdown =>
    simp only [startCall]
    split_ifs
    · exact ⟨rfl, trivial⟩
    · rfl

/-- Every later step of a call leads to where its operation permits it to be. -/
theorem Op.Permits.callStep {op : Op} {c : CallId} {pc pc' : CallPc} {effect : Effect}
    (h : op.Permits s pc) (hdropped : s.receiverDropped = true → s.closed = true)
    (hstep : callStep s c pc = some (effect, pc')) : op.Permits s pc' := by
  cases pc with
  | fresh => cases hstep
  | done => cases hstep
  | nextRead =>
    obtain rfl : op = .next := h
    simp only [Torlane.callStep] at hstep
    split_ifs at hstep <;> cases hstep
    · exact .inl rfl
    · rfl
  | nextCount ready =>
    obtain ⟨endpoint, -, heq⟩ := Option.map_eq_some_iff.mp hstep
    cases heq
    exact .inl h
  | forKeyRead lane =>
    obtain ⟨key, rfl, rfl⟩ := h
    simp only [Torlane.callStep] at hstep
    split at hstep
    · cases hstep
      exact .inl rfl
    · next endpoint hfind =>
      cases hstep
      have hlane : endpoint.lane = s.keyLane key := by simpa using List.find?_some hfind
      exact .inr ⟨key, rfl, hlane⟩
  | pick endpoint =>
    simp only [Torlane.callStep] at hstep
    rcases h with rfl | ⟨key, rfl, hlane⟩ <;> split_ifs at hstep with hgone <;> cases hstep
    · exact .inr ⟨rfl, hdropped hgone⟩
    · trivial
    · exact .inr ⟨rfl, hdropped hgone⟩
    · exact hlane
  | rotateRead lane wait =>
    obtain ⟨lane, wait, rfl, ⟨rfl, rfl⟩, hlane⟩ := h
    simp only [Torlane.callStep] at hstep
    split_ifs at hstep <;> cases hstep
    · exact ⟨_, _, rfl, ⟨rfl, rfl⟩, hlane⟩
    · exact ⟨rfl, .unavailable hlane⟩
  | rotateMark lane snapshot wait =>
    cases hstep
    exact h
  | rotateWrite lane snapshot wait =>
    cases hstep
    exact h
  | rotateSend lane wait =>
    obtain ⟨lane, wait, rfl, ⟨rfl, rfl⟩, hlane⟩ := h
    simp only [Torlane.callStep] at hstep
    split_ifs at hstep with hgone hwait <;> cases hstep
    · exact ⟨⟨_, rfl⟩, hdropped hgone⟩
    · exact ⟨_, _, rfl, ⟨rfl, hwait⟩, hlane⟩
    · exact ⟨rfl, hlane⟩
  | rotateUndo lane =>
    obtain ⟨⟨wait, rfl⟩, hclosed⟩ := h
    cases hstep
    exact ⟨rfl, .closed hclosed⟩
  | rotateWait lane =>
    obtain ⟨lane, wait, rfl, ⟨rfl, -⟩, -⟩ := h
    simp only [Torlane.callStep] at hstep
    split_ifs at hstep with hgone
    cases hstep
    exact ⟨rfl, .closed (hdropped hgone)⟩
  | restartSend =>
    obtain rfl : op = .restart := h
    simp only [Torlane.callStep] at hstep
    split_ifs at hstep with hgone <;> cases hstep
    · exact .inr ⟨rfl, hdropped hgone⟩
    · rfl
  | restartWait =>
    obtain rfl : op = .restart := h
    simp only [Torlane.callStep] at hstep
    split_ifs at hstep with hgone
    cases hstep
    exact .inr ⟨rfl, hdropped hgone⟩
  | shutdownSend =>
    obtain rfl : op = .shutdown := h
    simp only [Torlane.callStep] at hstep
    split_ifs at hstep <;> cases hstep
    · exact ⟨rfl, trivial⟩
    · rfl
  | shutdownWait =>
    obtain rfl : op = .shutdown := h
    simp only [Torlane.callStep] at hstep
    split_ifs at hstep
    cases hstep
    exact ⟨rfl, trivial⟩
  | shutdownJoin result =>
    simp only [Torlane.callStep] at hstep
    split_ifs at hstep <;> cases hstep
    · exact h
    · exact h.2
  | shutdownAwait result =>
    simp only [Torlane.callStep] at hstep
    split_ifs at hstep
    cases hstep
    exact h.2
  | returning outcome =>
    cases hstep
    exact h

/-! ## The manager's results -/

/-- What the manager can respond to an operation. -/
def Job.Permits (managed : Bool) : Job → Except Error Unit → Prop
  | .rotate _ _, .ok () => True
  | .rotate lane _, .error error => RotationError lane error
  | .restart _, .ok () => managed = true
  | .restart _, .error error => RestartError managed error
  | _, _ => True

/-- The operation that the manager publishes or answers for, with its result. -/
def ManagerPc.reports : ManagerPc → Option (Job × Except Error Unit)
  | .compute job result => some (job, result)
  | .write _ job result => some (job, result)
  | .respond job result => some (job, result)
  | _ => none

/-- The manager is restarting its instance, or renews the lanes after that. -/
def ManagerPc.restarts : ManagerPc → Bool
  | .clear _ _ => true
  | .mark _ _ => true
  | .retire _ _ => true
  | .stop _ _ => true
  | .start _ _ => true
  | .renew _ _ => true
  | .renewUnmark _ _ _ => true
  | _ => false

/-- The manager has nothing to report, and restarts nothing. -/
def ManagerPc.silent : ManagerPc → Bool
  | .idle => true
  | .unmark _ _ => true
  | .haltClear _ => true
  | .haltTake _ => true
  | .haltStop _ => true
  | .exiting => true
  | .finished => true
  | _ => false

/-- What the manager is about to respond is permitted, and it restarts only what it has a
configuration for. -/
structure Reported (s : State) : Prop where
  job : ∀ job result, s.pc.reports = some (job, result) →
    job.Permits s.mgr.instanceConfig.isSome result
  halt : ∀ call error, s.pc = .haltRespond call (.error error) → ∃ cause, error = .tor cause
  restarts : s.pc.restarts = true → s.mgr.instanceConfig.isSome = true

/-- An error of `rotate_lane` is about its lane. -/
theorem rotateLane_error {lane lane' : Lane} {socksAddr : SocketAddr} {instanceId : InstanceId}
    {now : ℕ} {random : Except SysError RandomBytes} {error : LaneError}
    (h : rotateLane lane socksAddr instanceId now random = (lane', .error error)) :
    error = .epochOverflow lane.id ∨ ∃ sys, error = .random sys := by
  unfold rotateLane generateLaneAuth at h
  cases hadd : checkedAdd lane.epoch 1 with
  | none =>
    simp only [hadd, Prod.mk.injEq, Except.error.injEq] at h
    exact .inl h.2.symm
  | some epoch =>
    cases random with
    | ok bytes => simp [hadd] at h
    | error sys =>
      simp only [hadd, Prod.mk.injEq, Except.error.injEq] at h
      exact .inr ⟨sys, h.2.symm⟩

/-- An error of a rotation is about the lane that is rotated. -/
theorem rotateLanes_error {m m' : ManagerState} {env : Env} {id : LaneId} {error : LaneError}
    (h : m.rotateLanes env id = some (m', .error error)) :
    error = .epochOverflow id ∨ ∃ sys, error = .random sys := by
  obtain ⟨lane, hfind, heq⟩ := Option.map_eq_some_iff.mp h
  have hid : lane.id = id := by simpa using List.find?_some hfind
  have hrenew : (m.renew env lane).2 = .error error := congrArg Prod.snd heq
  unfold ManagerState.renew at hrenew
  cases hrotate : rotateLane lane m.runtime.socksAddr m.runtime.id env.now (env.random lane.id) with
  | mk lane' result =>
    cases result with
    | ok => simp [hrotate] at hrenew
    | error error' =>
      simp only [hrotate, Except.error.injEq] at hrenew
      subst hrenew
      exact hid ▸ rotateLane_error hrotate

/-- A state in which the manager has nothing to report is fine. -/
theorem reported_of_silent (hsilent : s.pc.silent = true) : Reported s where
  job job result h := by cases hpc : s.pc <;> simp_all [ManagerPc.silent, ManagerPc.reports]
  halt call error hpc := by simp [hpc, ManagerPc.silent] at hsilent
  restarts h := by cases hpc : s.pc <;> simp_all [ManagerPc.silent, ManagerPc.restarts]

/-- A state in which the manager restarts a managed pool is fine. -/
theorem reported_of_restarts (hrestarts : s.pc.restarts = true)
    (hmanaged : s.mgr.instanceConfig.isSome = true) : Reported s where
  job job result h := by cases hpc : s.pc <;> simp_all [ManagerPc.restarts, ManagerPc.reports]
  halt call error hpc := by simp [hpc, ManagerPc.restarts] at hrestarts
  restarts _ := hmanaged

/-- A state in which the manager reports what it may is fine. -/
theorem reported_of_some {job : Job} {result : Except Error Unit}
    (hreports : s.pc.reports = some (job, result))
    (hpermits : job.Permits s.mgr.instanceConfig.isSome result) : Reported s where
  job job' result' h := by
    obtain ⟨rfl, rfl⟩ : job = job' ∧ result = result' := by simpa [hreports] using h
    exact hpermits
  halt call error hpc := by simp [hpc, ManagerPc.reports] at hreports
  restarts h := by cases hpc : s.pc <;> simp_all [ManagerPc.reports, ManagerPc.restarts]

/-- A state in which the manager has shut down its instance is fine if it reports what it may. -/
theorem reported_of_halt {call : CallId} {result : Except Error Unit}
    (hpc : s.pc = .haltRespond call result)
    (herror : ∀ error, result = .error error → ∃ cause, error = .tor cause) : Reported s where
  job job result h := by simp [hpc, ManagerPc.reports] at h
  halt call' error hpc' := by
    rw [hpc] at hpc'
    cases hpc'
    exact herror error rfl
  restarts h := by simp [hpc, ManagerPc.restarts] at h

/-- Every move of the manager reports what it may. -/
theorem Reported.manager (hs : Reported s) (hmove : ManagerMove s a t)
    (h : step s a = some t) : Reported t := by
  cases hmove with
  | receiveAssign =>
    split_ifs
    · exact reported_of_some rfl trivial
    · exact reported_of_silent rfl
  | receiveRotate => exact reported_of_silent rfl
  | @receiveRotateError env lane response rest lanes error hpc hqueue =>
    -- The error is the one of the rotation.
    refine reported_of_some rfl ?_
    simp only [step, hpc, hqueue, receive] at h
    split at h
    · simp at h
    · simp at h
    · next m cause hrotate =>
      have herror : Error.internal cause = error := by
        have hpc' := congrArg State.pc (Option.some.inj h)
        simpa using hpc'
      exact ⟨cause, herror.symm, rotateLanes_error hrotate⟩
  | receiveRestart hpc hqueue hconfig =>
    exact reported_of_restarts rfl (congrArg Option.isSome hconfig)
  | refuseRestart hpc hqueue hconfig =>
    exact reported_of_some rfl (.inl ⟨rfl, by rw [hconfig]; rfl⟩)
  | receiveShutdown => exact reported_of_silent rfl
  | tick =>
    split_ifs
    · exact reported_of_some rfl trivial
    · exact reported_of_silent rfl
  | unmark => exact reported_of_some rfl trivial
  | compute hpc => exact reported_of_some rfl (hs.job _ _ (by rw [hpc]; rfl))
  | write hpc => exact reported_of_some rfl (hs.job _ _ (by rw [hpc]; rfl))
  | respond => exact reported_of_silent rfl
  | clear hpc => exact reported_of_restarts rfl (hs.restarts (by rw [hpc]; rfl))
  | mark hpc => exact reported_of_restarts rfl (hs.restarts (by rw [hpc]; rfl))
  | retire hpc _ _ hpc' =>
    have hmanaged := hs.restarts (by rw [hpc]; rfl)
    rcases hpc' with rfl | rfl <;> exact reported_of_restarts rfl hmanaged
  | stop hpc => exact reported_of_restarts rfl (hs.restarts (by rw [hpc]; rfl))
  | @stopError env config call error hpc =>
    have hmanaged := hs.restarts (by rw [hpc]; rfl)
    refine reported_of_some rfl (.inr ⟨?_, hmanaged⟩)
    simp only [step, work, hpc] at h
    split at h
    · next cause _ =>
      have hpc' := congrArg State.pc (Option.some.inj h)
      exact ⟨cause, by simpa [eq_comm] using hpc'⟩
    · simp at h
  | start hpc => exact reported_of_restarts rfl (hs.restarts (by rw [hpc]; rfl))
  | @startError env config call lanes error hpc =>
    have hmanaged := hs.restarts (by rw [hpc]; rfl)
    refine reported_of_some rfl (.inr ⟨?_, hmanaged⟩)
    simp only [step, work, hpc] at h
    split at h
    · next cause _ =>
      have hpc' := congrArg State.pc (Option.some.inj h)
      exact ⟨cause, by simpa [eq_comm] using hpc'⟩
    · simp at h
  | renew hpc => exact reported_of_restarts rfl (hs.restarts (by rw [hpc]; rfl))
  | renewError hpc => exact reported_of_restarts rfl (hs.restarts (by rw [hpc]; rfl))
  | renewUnmark hpc => exact reported_of_restarts rfl (hs.restarts (by rw [hpc]; rfl))
  | renewed hpc => exact reported_of_some rfl (hs.restarts (by rw [hpc]; rfl))
  | haltClear => exact reported_of_silent rfl
  | haltTake _ hpc' =>
    rcases hpc' with rfl | rfl
    · exact reported_of_silent rfl
    · exact reported_of_halt rfl fun error herror => by cases herror
  | @haltStop env call result hpc =>
    refine reported_of_halt rfl fun error herror => ?_
    have hresult : env.stop.mapError .tor = result := by
      simp only [step, work, hpc] at h
      have hpc' := congrArg State.pc (Option.some.inj h)
      simpa using hpc'
    subst herror
    cases hstop : env.stop with
    | ok => simp [hstop, Except.mapError] at hresult
    | error cause => exact ⟨cause, by simpa [hstop, Except.mapError, eq_comm] using hresult⟩
  | haltRespond => exact reported_of_silent rfl
  | exiting => exact reported_of_silent rfl

/-- Every step reports what it may. -/
theorem Reported.step (hw : WellFormed s) (hs : Reported s) (h : step s a = some t) :
    Reported t := by
  rcases step_cases hw h with ⟨c, pc, effect, pc', -, -, rfl, -⟩ | hmove
  · have hinst : (s.apply effect).mgr.instanceConfig = s.mgr.instanceConfig := by
      cases effect <;> rfl
    refine ⟨fun job result hreports => ?_, fun call error hpc => ?_, fun hrestarts => ?_⟩
    · rw [State.setCall_mgr, hinst]
      exact hs.job job result (by simpa using hreports)
    · exact hs.halt call error (by simpa using hpc)
    · rw [State.setCall_mgr, hinst]
      exact hs.restarts (by simpa using hrestarts)
  · exact hs.manager hmove h

/-! ## Runs -/

/-- The manager answers a call with the result that it reports. -/
theorem ManagerMove.responds (hmove : ManagerMove s a t) (c : CallId) :
    t.calls c = s.calls c ∨ ∃ result, Answered result (s.calls c) (t.calls c) ∧
      ((∃ job, s.pc = .respond job result ∧ job.response = some c) ∨
        s.pc = .haltRespond c result) := by
  cases hmove with
  | respond hpc hcalls =>
    exact (hcalls c).imp_right fun ⟨hresponse, hanswered⟩ =>
      ⟨_, hanswered, .inl ⟨_, hpc, hresponse⟩⟩
  | haltRespond hpc hcalls =>
    refine (hcalls c).imp_right fun ⟨hcall, hanswered⟩ => ?_
    obtain rfl := Option.some.inj hcall
    exact ⟨_, hanswered, .inr hpc⟩
  | _ => exact .inl rfl

/-- An answer leads the call to where its operation permits it to be. -/
theorem Op.Permits.answered {op : Op} {c : CallId} {pc : CallPc} {result : Except Error Unit}
    (h : op.Permits s (s.calls c)) (hr : Responsive s) (hs : Reported s)
    (hanswered : Answered result (s.calls c) pc)
    (hpc : (∃ job, s.pc = .respond job result ∧ job.response = some c) ∨
      s.pc = .haltRespond c result) : op.Permits s pc := by
  rcases hpc with ⟨job, hpc, hresponse⟩ | hpc
  · have hpermits := hs.job job result (by rw [hpc]; rfl)
    rw [job.response_eq] at hresponse
    obtain ⟨⟨c', waiting⟩, howed, rfl⟩ := Option.map_eq_some_iff.mp hresponse
    have hmem : (c', waiting) ∈ s.owed := by
      rw [State.owed, hpc]
      exact List.mem_append_left _ (Option.mem_toList.mpr howed)
    have hcall := hr.waits _ hmem
    -- The call waits for the response to this operation, and to no other one.
    cases job with
    | assign => cases howed
    | expire => cases howed
    | restart call =>
      cases howed
      rw [hcall] at h hanswered
      obtain rfl : op = .restart := h
      cases hanswered
      cases result with
      | ok => exact hpermits
      | error => exact .inl hpermits
    | rotate lane response =>
      obtain ⟨call, -, heq⟩ := Option.map_eq_some_iff.mp howed
      cases heq
      rw [hcall] at h hanswered
      obtain ⟨lane', wait, rfl, ⟨rfl, hwait⟩, hlane⟩ := h
      cases hanswered
      cases result with
      | ok => exact ⟨rfl, hlane⟩
      | error => exact ⟨rfl, .failed hlane hwait hpermits⟩
  · have hmem : (c, CallPc.shutdownWait) ∈ s.owed := by
      rw [State.owed, hpc]
      exact List.mem_append_left _ (Option.mem_toList.mpr rfl)
    have hcall := hr.waits _ hmem
    rw [hcall] at h hanswered
    obtain rfl : op = .shutdown := h
    cases hanswered
    cases result with
    | ok => exact ⟨rfl, trivial⟩
    | error error => exact ⟨rfl, hs.halt c error hpc⟩

/-- What holds in every state of every run. -/
structure Accountable (s : State) : Prop where
  wellFormed : WellFormed s
  responsive : Responsive s
  closedFirst : ClosedFirst s
  reported : Reported s

/-- Every step keeps it. -/
theorem Accountable.step (hs : Accountable s) (h : step s a = some t) : Accountable t := by
  obtain ⟨hw, hr, hc, hp⟩ := hs
  exact ⟨hw.step h, hr.step hw h, hc.step hw h, hp.step hw h⟩

/-- A pool that has just been spawned has nothing to report. -/
theorem Init.accountable (hs : Init s) : Accountable s := by
  refine ⟨hs.wellFormed, hs.responsive, hs.converging.closedFirst, ?_⟩
  obtain ⟨config, lanes, runtime, inst, instanceConfig, env, hconfig, hlanes, rfl⟩ := hs
  exact reported_of_silent rfl

/-- Every step keeps a call where its operation permits it to be. -/
theorem Op.Permits.step {op : Op} {c : CallId} (hs : Accountable s) (hp : op.Permits s (s.calls c))
    (h : step s a = some t) : op.Permits t (t.calls c) := by
  have hconfig := config_eq hs.wellFormed h
  have hinst := instanceConfig_eq hs.wellFormed h
  have hclosed := closed_of_closed hs.wellFormed h
  suffices hpermits : op.Permits s (t.calls c) from hpermits.mono hconfig hinst hclosed
  rcases step_cases hs.wellFormed h with ⟨c', pc, effect, pc', rfl, hmove, rfl, ha⟩ | hmove
  · rw [State.setCall_calls, State.apply_calls]
    split_ifs with hc
    · subst hc
      rcases ha with ⟨-, hstep⟩ | ⟨hfresh, -⟩
      · exact hp.callStep (fun hdropped => by
          by_contra hopen
          simp [hs.closedFirst.alive (by simpa using hopen)] at hdropped) hstep
      · rw [hfresh] at hp
        exact hp.elim
    · exact hp
  · rcases hmove.responds c with heq | ⟨result, hanswered, hpc⟩
    · exact heq ▸ hp
    · exact hp.answered hs.responsive hs.reported hanswered hpc

/-- In every run, whatever the other calls, the manager, and the outside world do, a call of an
operation returns nothing but what the operation allows. -/
theorem outcomes_run (hs : Init s) {as bs : List Action} {c : CallId} {op : Op} {outcome : Outcome}
    (h : run step s (as ++ .start c op :: bs) = some t) (hdone : t.calls c = .done outcome) :
    op.Allows t outcome := by
  obtain ⟨u, hu, hrest⟩ := Option.bind_eq_some_iff.mp ((run_append s as _).symm.trans h)
  obtain ⟨v, hv, hbs⟩ := Option.bind_eq_some_iff.mp hrest
  have hu : Accountable u :=
    (reaches_of_run hu).invariant (fun _ _ _ _ hstep hs => hs.step hstep) hs.accountable
  have hstarted : op.Permits v (v.calls c) := by
    have hconfig := config_eq hu.wellFormed hv
    have hinst := instanceConfig_eq hu.wellFormed hv
    have hclosed := closed_of_closed hu.wellFormed hv
    refine Op.Permits.mono ?_ hconfig hinst hclosed
    simp only [step] at hv
    split at hv
    · cases hv
      rw [State.setCall_calls, if_pos rfl]
      exact permits_startCall u op
    · cases hv
  have hpermits : op.Permits t (t.calls c) :=
    ((reaches_of_run hbs).invariant (I := fun s => Accountable s ∧ op.Permits s (s.calls c))
      (fun _ _ _ _ hstep hs => ⟨hs.1.step hstep, hs.2.step hs.1 hstep⟩)
      ⟨hu.step hv, hstarted⟩).2
  rw [hdone] at hpermits
  exact hpermits

/-- An awaited rotation for which there are no random bytes. -/
def drainedRotation : List Action :=
  [.advance 0, .advance 0, .advance 0, .advance 0, .receive drainedEnv, .work drainedEnv,
    .work drainedEnv, .work drainedEnv, .advance 0]

/-- The error of that rotation is one that a call of `rotate` allows. -/
theorem outcomes_run_drained :
    ∃ t, run step twoLanePool ([] ++ .start 0 (.rotate ⟨0⟩ true) :: drainedRotation) = some t ∧
      t.calls 0 = .done (.rotated ⟨0⟩ (.error (.internal (.random .unavailable)))) ∧
      (Op.rotate ⟨0⟩ true).Allows t
        (.rotated ⟨0⟩ (.error (.internal (.random .unavailable)))) := by
  have hrun : ∃ t, run step twoLanePool ([] ++ .start 0 (.rotate ⟨0⟩ true) :: drainedRotation) =
      some t ∧ t.calls 0 = .done (.rotated ⟨0⟩ (.error (.internal (.random .unavailable)))) :=
    ⟨_, rfl, rfl⟩
  obtain ⟨t, ht, hdone⟩ := hrun
  exact ⟨t, ht, hdone, outcomes_run twoLanePool_init ht hdone⟩

end Torlane
