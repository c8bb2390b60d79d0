import Mathlib.Logic.Function.Basic
import Torlane.Pool.Manager
import Torlane.Transition

/-!
# The pool as an interleaved system

Any number of calls on clones of one `Pool`, interleaved with the manager task. A task that makes
several calls is several calls, each of which starts after the one before it has returned.

Every lock section, channel operation, and atomic access of the source is one step, and the
task-local work up to the next one belongs to it. A step of a call is `callStep`: it reads the
shared state, makes at most one access to it (`Effect`), and moves the call's program counter
(`CallPc`). A step of the manager is `receive` (it takes a command off the queue, or `tick` where
the timer fires), or `work`, the next section of the command that it is processing (`ManagerPc`).
The lanes, the runtime, and the held instance are the manager's own, so that no call reads them.

The channel's `None` does not occur while a call can still be made, and is left out.
-/

namespace Torlane

/-- One call of an operation, by one task. -/
abbrev CallId := ℕ

/-- `ManagerCommand`. A response sender is the call that waits for the response. -/
inductive ManagerCommand where
  | assign (lane : LaneId) (epoch : ℕ)
  | rotate (lane : LaneId) (response : Option CallId)
  | restart (response : CallId)
  | shutdown (response : CallId)
  deriving DecidableEq, Repr

/-- The operations of a pool. `queue_rotation` alone is a `rotate` that does not wait. -/
inductive Op where
  | next
  | forKey (key : List UInt8)
  | rotate (lane : LaneId) (wait : Bool)
  | restart
  | shutdown

/-- What a call has returned. -/
inductive Outcome where
  | selected (result : Except Error Proxy)
  | rotated (lane : LaneId) (result : Except Error Unit)
  | restarted (result : Except Error Unit)
  | shutdown (result : Except Error Unit)

/-- Where a call stands: its next step, with the local values that it still needs. -/
inductive CallPc where
  | fresh
  | nextRead
  | nextCount (ready : ReadyLanes)
  | forKeyRead (lane : LaneId)
  | pick (endpoint : LaneEndpoint)
  | rotateRead (lane : LaneId) (wait : Bool)
  | rotateMark (lane : LaneId) (snapshot : ReadyLanes) (wait : Bool)
  | rotateWrite (lane : LaneId) (snapshot : ReadyLanes) (wait : Bool)
  | rotateSend (lane : LaneId) (wait : Bool)
  | rotateUndo (lane : LaneId)
  | rotateWait (lane : LaneId)
  | restartSend
  | restartWait
  | shutdownSend
  | shutdownWait
  | shutdownJoin (result : Except Error Unit)
  | shutdownAwait (result : Except Error Unit)
  | returning (outcome : Outcome)
  | done (outcome : Outcome)

/-- The operation that the manager publishes or answers for. -/
inductive Job where
  | assign
  | rotate (lane : LaneId) (response : Option CallId)
  | expire
  | restart (response : CallId)

/-- The call that waits for the operation's response. -/
def Job.response : Job → Option CallId
  | .assign => none
  | .rotate _ response => response
  | .expire => none
  | .restart response => some response

/-- Where the manager stands: its next step, with the local values that it still needs. -/
inductive ManagerPc where
  | idle
  | unmark (lane : LaneId) (response : Option CallId)
  | compute (job : Job) (result : Except Error Unit)
  | write (ready : ReadyLanes) (job : Job) (result : Except Error Unit)
  | respond (job : Job) (result : Except Error Unit)
  | clear (config : InstanceConfig) (call : CallId)
  | mark (config : InstanceConfig) (call : CallId)
  | retire (config : InstanceConfig) (call : CallId)
  | stop (config : InstanceConfig) (call : CallId)
  | start (config : InstanceConfig) (call : CallId)
  | renew (call : CallId) (ids : List LaneId)
  | renewUnmark (call : CallId) (id : LaneId) (ids : List LaneId)
  | haltClear (call : CallId)
  | haltTake (call : CallId)
  | haltStop (call : CallId)
  | haltRespond (call : CallId) (result : Except Error Unit)
  | exiting
  | finished

/-- The whole system: what the tasks share, the manager's own state, and where everyone stands. -/
structure State where
  mgr : ManagerState
  cursor : ℕ
  closed : Bool
  queue : List ManagerCommand
  /-- The join handle of the manager task is still in its mutex. -/
  handle : Bool
  pc : ManagerPc
  calls : CallId → CallPc

/-- One access of a call to what it shares with the other tasks. -/
inductive Effect where
  | none
  | count
  | close
  | mark (lane : LaneId)
  | unmark (lane : LaneId)
  | write (ready : ReadyLanes)
  | send (command : ManagerCommand)
  | takeHandle

namespace State

/-- The manager task has ended, and the command channel's receiver is gone. -/
def receiverDropped (s : State) : Bool :=
  match s.pc with
  | .finished => true
  | _ => false

/-- The call moves to another program counter. -/
def setCall (s : State) (c : CallId) (pc : CallPc) : State :=
  { s with calls := Function.update s.calls c pc }

/-- The shared state after one access. -/
def apply (s : State) : Effect → State
  | .none => s
  | .count => { s with cursor := fetchAdd 64 s.cursor }
  | .close => { s with closed := true }
  | .mark lane => { s with mgr := { s.mgr with unavailable := insert lane s.mgr.unavailable } }
  | .unmark lane => { s with mgr := s.mgr.unmark lane }
  | .write ready => { s with mgr := { s.mgr with ready } }
  | .send command => { s with queue := s.queue ++ [command] }
  | .takeHandle => { s with handle := false }

/-- The response reaches the call that waits for it; where none waits, it is dropped. -/
def deliver (s : State) (call : Option CallId) (result : Except Error Unit) : State :=
  match call with
  | none => s
  | some c =>
    match s.calls c with
    | .rotateWait lane => s.setCall c (.returning (.rotated lane result))
    | .restartWait => s.setCall c (.returning (.restarted result))
    | .shutdownWait => s.setCall c (.shutdownJoin result)
    | _ => s

variable {s : State} {c c' : CallId} {pc : CallPc} {effect : Effect} {call : Option CallId}
  {result : Except Error Unit}

@[simp] theorem setCall_mgr : (s.setCall c pc).mgr = s.mgr := rfl
@[simp] theorem setCall_closed : (s.setCall c pc).closed = s.closed := rfl
@[simp] theorem setCall_queue : (s.setCall c pc).queue = s.queue := rfl
@[simp] theorem setCall_handle : (s.setCall c pc).handle = s.handle := rfl
@[simp] theorem setCall_pc : (s.setCall c pc).pc = s.pc := rfl
@[simp] theorem setCall_dropped : (s.setCall c pc).receiverDropped = s.receiverDropped := rfl

/-- Where the calls stand after one of them has moved. -/
theorem setCall_calls : (s.setCall c pc).calls c' = if c' = c then pc else s.calls c' :=
  Function.update_apply ..

@[simp] theorem apply_lanes : (s.apply effect).mgr.lanes = s.mgr.lanes := by cases effect <;> rfl
@[simp] theorem apply_runtime : (s.apply effect).mgr.runtime = s.mgr.runtime := by
  cases effect <;> rfl
@[simp] theorem apply_inst : (s.apply effect).mgr.inst = s.mgr.inst := by cases effect <;> rfl
@[simp] theorem apply_config : (s.apply effect).mgr.config = s.mgr.config := by
  cases effect <;> rfl
@[simp] theorem apply_pc : (s.apply effect).pc = s.pc := by cases effect <;> rfl
@[simp] theorem apply_dropped : (s.apply effect).receiverDropped = s.receiverDropped := by
  cases effect <;> rfl
@[simp] theorem apply_calls : (s.apply effect).calls = s.calls := by cases effect <;> rfl

/-- The queue after an access: a command is appended to it if one is sent. -/
theorem mem_apply_queue {command : ManagerCommand} :
    command ∈ (s.apply effect).queue ↔ command ∈ s.queue ∨ effect = .send command := by
  cases effect <;> simp [apply, eq_comm]

end State

/-- How a response moves the call that waits for it. -/
inductive Answered (result : Except Error Unit) : CallPc → CallPc → Prop
  | rotate {lane : LaneId} :
      Answered result (.rotateWait lane) (.returning (.rotated lane result))
  | restart : Answered result .restartWait (.returning (.restarted result))
  | shutdown : Answered result .shutdownWait (.shutdownJoin result)

/-- A response leaves everything as it is but the call that waits for it. -/
theorem State.deliver_eq (s : State) (call : Option CallId) (result : Except Error Unit) :
    ∃ calls, s.deliver call result = { s with calls } ∧
      ∀ c, calls c = s.calls c ∨ (call = some c ∧ Answered result (s.calls c) (calls c)) := by
  cases call with
  | none => exact ⟨s.calls, rfl, fun _ => .inl rfl⟩
  | some c =>
    -- Whichever way the waiting call moves, the other ones stay where they are.
    have hset {pc pc' : CallPc} (hpc : s.calls c = pc) (h : Answered result pc pc') :
        ∀ c', Function.update s.calls c pc' c' = s.calls c' ∨
          (some c = some c' ∧ Answered result (s.calls c') (Function.update s.calls c pc' c')) := by
      intro c'
      by_cases hc : c' = c
      · subst hc
        exact .inr ⟨rfl, by simpa [hpc] using h⟩
      · exact .inl (Function.update_of_ne hc ..)
    cases hpc : s.calls c with
    | rotateWait lane =>
      refine ⟨_, ?_, hset hpc .rotate⟩
      simp only [deliver, hpc, setCall]
    | restartWait =>
      refine ⟨_, ?_, hset hpc .restart⟩
      simp only [deliver, hpc, setCall]
    | shutdownWait =>
      refine ⟨_, ?_, hset hpc .shutdown⟩
      simp only [deliver, hpc, setCall]
    | _ => exact ⟨s.calls, by simp only [deliver, hpc], fun _ => .inl rfl⟩

/-- The first step of a call: `ensure_open` or, for `shutdown`, the swap of `closed`. -/
def startCall (s : State) : Op → Effect × CallPc
  | .next =>
    if s.closed then (.none, .done (.selected (.error .closed))) else (.none, .nextRead)
  | .forKey key =>
    if s.closed then (.none, .done (.selected (.error .closed)))
    else (.none, .forKeyRead ⟨stableLaneIndex key s.mgr.config.lanes % 2^32⟩)
  | .rotate lane wait =>
    if s.closed then (.none, .done (.rotated lane (.error .closed)))
    else if s.mgr.config.lanes ≤ lane.val then
      (.none, .done (.rotated lane (.error (.unknownLane lane))))
    else (.none, .rotateRead lane wait)
  | .restart =>
    if s.closed then (.none, .done (.restarted (.error .closed))) else (.none, .restartSend)
  -- The first call to set the flag sends the command; every later one only joins the manager.
  | .shutdown =>
    (.close, if s.closed then .shutdownJoin (.ok ()) else .shutdownSend)

/-- The next step of a call, or `none` where it has returned or has to wait. -/
def callStep (s : State) (c : CallId) : CallPc → Option (Effect × CallPc)
  | .fresh => none
  | .nextRead =>
    if s.mgr.ready = [] then some (.none, .done (.selected (.error .noReadyLanes)))
    else some (.none, .nextCount s.mgr.ready)
  -- The counter wraps around, and the snapshot that indexes it is not empty.
  | .nextCount ready => (ready.next s.cursor).map fun endpoint => (.count, .pick endpoint)
  | .forKeyRead lane =>
    match s.mgr.ready.forLane lane with
    | none => some (.none, .done (.selected (.error (.laneUnavailable lane))))
    | some endpoint => some (.none, .pick endpoint)
  -- `proxy_from_endpoint`: a send fails only where the receiver is gone.
  | .pick endpoint =>
    if s.receiverDropped then some (.none, .done (.selected (.error .closed)))
    else some (.send (.assign endpoint.lane endpoint.epoch), .done (.selected (.ok ⟨endpoint⟩)))
  -- `queue_rotation`: the snapshot that is filtered and written back is read here, before the lane
  -- is marked.
  | .rotateRead lane wait =>
    if s.mgr.ready.offers lane then some (.none, .rotateMark lane s.mgr.ready wait)
    else some (.none, .done (.rotated lane (.error (.laneUnavailable lane))))
  | .rotateMark lane snapshot wait => some (.mark lane, .rotateWrite lane snapshot wait)
  | .rotateWrite lane snapshot wait =>
    some (.write (snapshot.without lane), .rotateSend lane wait)
  | .rotateSend lane wait =>
    if s.receiverDropped then some (.none, .rotateUndo lane)
    else if wait then some (.send (.rotate lane (some c)), .rotateWait lane)
    else some (.send (.rotate lane none), .done (.rotated lane (.ok ())))
  | .rotateUndo lane => some (.unmark lane, .done (.rotated lane (.error .closed)))
  -- A response is delivered by the manager; on its own, the call only learns that the response
  -- sender has been dropped with the receiver.
  | .rotateWait lane =>
    if s.receiverDropped then some (.none, .done (.rotated lane (.error .closed))) else none
  | .restartSend =>
    if s.receiverDropped then some (.none, .done (.restarted (.error .closed)))
    else some (.send (.restart c), .restartWait)
  | .restartWait =>
    if s.receiverDropped then some (.none, .done (.restarted (.error .closed))) else none
  | .shutdownSend =>
    if s.receiverDropped then some (.none, .shutdownJoin (.ok ()))
    else some (.send (.shutdown c), .shutdownWait)
  | .shutdownWait =>
    if s.receiverDropped then some (.none, .shutdownJoin (.ok ())) else none
  -- `join_manager_task`: only the call that takes the handle awaits the task.
  | .shutdownJoin result =>
    if s.handle then some (.takeHandle, .shutdownAwait result)
    else some (.none, .done (.shutdown result))
  | .shutdownAwait result =>
    if s.receiverDropped then some (.none, .done (.shutdown result)) else none
  | .returning outcome => some (.none, .done outcome)
  | .done _ => none

/-- The manager takes a command off the queue, and does the work before the first lock section. -/
def receive (s : State) (env : Env) : ManagerCommand → State
  | .assign lane epoch =>
    let (mgr, publish) := s.mgr.assignLanes env lane epoch
    { s with mgr, pc := if publish then .compute .assign (.ok ()) else .idle }
  | .rotate lane response =>
    match s.mgr.rotateLanes env lane with
    | none => { s with pc := .respond (.rotate lane response) (.error (.unknownLane lane)) }
    -- The mark is taken back before the new endpoint is published.
    | some (mgr, .ok ()) => { s with mgr, pc := .unmark lane response }
    | some (mgr, .error error) =>
      { s with mgr, pc := .compute (.rotate lane response) (.error (.internal error)) }
  | .restart call =>
    match s.mgr.instanceConfig with
    | none => { s with pc := .respond (.restart call) (.error .restartUnavailable) }
    | some config => { s with pc := .clear config call }
  | .shutdown call => { s with pc := .haltClear call }

/-- The timer fires while the manager waits for a command. -/
def tick (s : State) (env : Env) : State :=
  let (mgr, publish) := s.mgr.expireLanes env
  { s with mgr, pc := if publish then .compute .expire (.ok ()) else .idle }

/-- The manager's next step in the command that it is processing, or `none` where it waits for one
or has ended. -/
def work (s : State) (env : Env) : Option State :=
  match s.pc with
  | .idle => none
  | .unmark lane response =>
    some { s with mgr := s.mgr.unmark lane, pc := .compute (.rotate lane response) (.ok ()) }
  | .compute job result =>
    some { s with pc := .write (readyLanes s.mgr.lanes s.mgr.unavailable) job result }
  | .write ready job result =>
    some { s with mgr := { s.mgr with ready }, pc := .respond job result }
  | .respond job result => some { s.deliver job.response result with pc := .idle }
  -- `restart`, section by section; the mark of a lane is taken back in the loop over the lanes.
  | .clear config call => some { s with mgr := s.mgr.clearReady, pc := .mark config call }
  | .mark config call => some { s with mgr := s.mgr.markAll, pc := .retire config call }
  | .retire config call =>
    some { s with
      mgr := (s.mgr.setStates .retiring).takeInstance
      pc := if s.mgr.inst.isSome then .stop config call else .start config call }
  | .stop config call =>
    match env.stop with
    -- This early return of `restart` publishes nothing, and leaves every lane retiring.
    | .error error => some { s with pc := .respond (.restart call) (.error (.tor error)) }
    | .ok () => some { s with pc := .start config call }
  | .start config call =>
    match env.start with
    | .error error =>
      some { s with
        mgr := s.mgr.setStates .failed
        pc := .compute (.restart call) (.error (.tor error)) }
    | .ok socksAddr =>
      some { s with
        mgr := s.mgr.adopt ⟨config.id, socksAddr⟩
        pc := .renew call (s.mgr.lanes.map (·.id)) }
  | .renew call [] => some { s with pc := .compute (.restart call) (.ok ()) }
  | .renew call (id :: ids) =>
    let (mgr, renewed) := s.mgr.renewLane env id
    some { s with mgr, pc := if renewed then .renewUnmark call id ids else .renew call ids }
  | .renewUnmark call id ids =>
    some { s with mgr := s.mgr.unmark id, pc := .renew call ids }
  -- `shutdown_instance`, after which the loop of `run_manager` ends.
  | .haltClear call => some { s with mgr := s.mgr.clearReady, pc := .haltTake call }
  | .haltTake call =>
    some { s with
      mgr := s.mgr.takeInstance
      pc := if s.mgr.inst.isSome then .haltStop call else .haltRespond call (.ok ()) }
  | .haltStop call => some { s with pc := .haltRespond call (env.stop.mapError .tor) }
  | .haltRespond call result => some { s.deliver (some call) result with pc := .exiting }
  -- The task ends, and the receiver is dropped with the commands that are left.
  | .exiting => some { s with queue := [], pc := .finished }
  | .finished => none

/-- The steps of the system. -/
inductive Action where
  | start (c : CallId) (op : Op)
  | advance (c : CallId)
  | receive (env : Env)
  | tick (env : Env)
  | work (env : Env)

/-- The system's step function. -/
def step (s : State) : Action → Option State
  -- A call is made once.
  | .start c op =>
    match s.calls c with
    | .fresh => let (effect, pc) := startCall s op; some ((s.apply effect).setCall c pc)
    | _ => none
  | .advance c =>
    (callStep s c (s.calls c)).map fun (effect, pc) => (s.apply effect).setCall c pc
  | .receive env =>
    match s.pc, s.queue with
    -- `select!` takes a command or the tick, whichever is there; a run may choose either.
    | .idle, command :: rest => some (receive { s with queue := rest } env command)
    | _, _ => none
  | .tick env =>
    match s.pc with
    | .idle => some (tick s env)
    | _ => none
  | .work env => work s env

/-- `Pool::spawn`: every lane is published, the queue is empty, and no call has started. -/
def spawn (config : PoolConfig) (lanes : List Lane) (runtime : RuntimeState)
    (inst : Option TorInstance) (instanceConfig : Option InstanceConfig) : State where
  mgr := { config, lanes, ready := readyLanes lanes ∅, unavailable := ∅, runtime, inst,
           instanceConfig }
  cursor := 0
  closed := false
  queue := []
  handle := true
  pc := .idle
  calls := fun _ => .fresh

/-- A pool has just been spawned: its configuration is valid, and all its lanes were created. -/
def Init (s : State) : Prop :=
  ∃ config lanes runtime inst instanceConfig env,
    config.validate = .ok () ∧ createLanes config runtime.socksAddr runtime.id env = .ok lanes ∧
      s = spawn config lanes runtime inst instanceConfig

/-! ## A pool of two lanes -/

/-- The SOCKS address of the pool's Tor instance. -/
def twoLaneAddr : SocketAddr := .v4 .localhost 19050

/-- Every draw of random bytes succeeds, and so does every stop and start of Tor. -/
def twoLaneEnv : Env where
  now := 0
  random _ := .ok (Vector.replicate 32 0)
  stop := .ok ()
  start := .ok twoLaneAddr

/-- Two lanes, without a rotation policy. -/
def twoLaneConfig : PoolConfig := ⟨2, ⟨none, none⟩, 1⟩

/-- The lanes that are created for the configuration. -/
def twoLanes : List Lane :=
  match createLanes twoLaneConfig twoLaneAddr ⟨0⟩ twoLaneEnv with
  | .ok lanes => lanes
  | .error _ => []

/-- A managed pool of two lanes that has just been spawned. -/
def twoLanePool : State :=
  spawn twoLaneConfig twoLanes ⟨⟨0⟩, twoLaneAddr⟩ (some ⟨⟨0⟩, twoLaneAddr⟩) (some ⟨⟨1⟩⟩)

/-- The pool has just been spawned. -/
theorem twoLanePool_init : Init twoLanePool := ⟨_, _, _, _, _, twoLaneEnv, rfl, rfl, rfl⟩

end Torlane
