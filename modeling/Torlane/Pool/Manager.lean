import Mathlib.Data.Finset.Lattice.Fold
import Torlane.Pool.Select

/-!
# The pool manager

`ManagerState` of `src/pool/manager.rs` and the operations that its task performs. Each operation
is given twice over the same parts: the parts are the lock sections and the task-local updates
between them (`assignLanes`, `renew`, `publishReady`, and so on), from which `Torlane.Pool.System`
builds the interleaved system, and `assign`, `rotate`, `rotateExpired`, `restart`, and
`shutdownInstance` compose them as the source does, for a command that no other task interferes
with.

What the outside world answers during an operation (the clock, the random source, and the Tor
process) is an argument, `Env`.
-/

namespace Torlane

/-- A running Tor instance, as far as the pool reads it. -/
structure TorInstance where
  id : InstanceId
  socksAddr : SocketAddr
  deriving DecidableEq, Repr

/-- What a Tor instance is started from, as far as the pool reads it. -/
structure InstanceConfig where
  id : InstanceId
  deriving DecidableEq, Repr

/-- The instance data that new endpoints are made from. -/
structure RuntimeState where
  id : InstanceId
  socksAddr : SocketAddr
  deriving DecidableEq, Repr

/-- What the outside world answers during one operation of the manager. -/
structure Env where
  /-- The clock. -/
  now : ℕ
  /-- The random bytes drawn for each lane's credentials. -/
  random : LaneId → Except SysError RandomBytes
  /-- `TorInstance::shutdown`. -/
  stop : Except TorInstanceError Unit
  /-- `TorInstance::start`: the SOCKS address of the new instance. -/
  start : Except TorInstanceError SocketAddr

/-- The manager task's state. `ready` and `unavailable` are shared with the pool's clients. -/
structure ManagerState where
  config : PoolConfig
  lanes : List Lane
  ready : ReadyLanes
  unavailable : Finset LaneId
  runtime : RuntimeState
  inst : Option TorInstance
  instanceConfig : Option InstanceConfig

/-- `ready_lanes`: the endpoints of the lanes that are ready and not marked unavailable. -/
def readyLanes (lanes : List Lane) (unavailable : Finset LaneId) : ReadyLanes :=
  (lanes.filter fun lane => lane.state = .ready ∧ lane.id ∉ unavailable).map (·.endpoint)

/-- `create_lanes`. -/
def createLanes (config : PoolConfig) (socksAddr : SocketAddr) (instanceId : InstanceId)
    (env : Env) : Except LaneError (List Lane) :=
  (List.range config.lanes).mapM fun id =>
    Lane.new ⟨id % 2^32⟩ socksAddr instanceId env.now (env.random ⟨id % 2^32⟩)

namespace ManagerState

/-- `publish_ready`. -/
def publishReady (s : ManagerState) : ManagerState :=
  { s with ready := readyLanes s.lanes s.unavailable }

/-- The lane with an id is replaced. -/
def setLane (s : ManagerState) (lane : Lane) : ManagerState :=
  { s with lanes := s.lanes.map fun other => if other.id = lane.id then lane else other }

/-- `rotate_lane` with the manager's runtime; each of its callers marks the lane failed on an
error. -/
def renew (s : ManagerState) (env : Env) (lane : Lane) : Lane × Except LaneError Unit :=
  let (lane, result) :=
    rotateLane lane s.runtime.socksAddr s.runtime.id env.now (env.random lane.id)
  match result with
  | .ok () => (lane, .ok ())
  | .error error => ({ lane with state := .failed }, .error error)

/-! ## The parts of the operations -/

/-- `assign` up to its `publish_ready`: whether it goes on to publish. -/
def assignLanes (s : ManagerState) (env : Env) (id : LaneId) (epoch : ℕ) : ManagerState × Bool :=
  match s.config.rotation.assignmentLimit with
  | none => (s, false)
  | some maximum =>
    match s.lanes.find? fun lane => lane.id = id ∧ lane.epoch = epoch ∧ lane.state = .ready with
    | none => (s, false)
    | some lane =>
      -- The count is kept even where the rotation that it leads to fails.
      let lane := { lane with assignments := saturatingAdd lane.assignments 1 }
      if lane.assignments < maximum.toNat then (s.setLane lane, false)
      else (s.setLane (s.renew env lane).1, true)

/-- `rotate` up to the edit of `unavailable`, or `none` if there is no such lane. -/
def rotateLanes (s : ManagerState) (env : Env) (id : LaneId) :
    Option (ManagerState × Except LaneError Unit) :=
  (s.lanes.find? (·.id = id)).map fun lane =>
    let (lane, result) := s.renew env lane
    (s.setLane lane, result)

/-- `unavailable.remove(&id)`. -/
def unmark (s : ManagerState) (id : LaneId) : ManagerState :=
  { s with unavailable := s.unavailable.erase id }

/-- The lane is ready and as old as the configured duration, at least. -/
def expired (ttl : ℕ) (env : Env) (lane : Lane) : Prop :=
  lane.state = .ready ∧ ttl ≤ env.now - lane.createdAt

instance (ttl : ℕ) (env : Env) (lane : Lane) : Decidable (expired ttl env lane) :=
  inferInstanceAs (Decidable (_ ∧ _))

/-- `rotate_expired` up to its `publish_ready`: whether it goes on to publish. -/
def expireLanes (s : ManagerState) (env : Env) : ManagerState × Bool :=
  match s.config.rotation.duration with
  | none => (s, false)
  | some ttl =>
    ({ s with
        lanes := s.lanes.map fun lane =>
          if expired ttl env lane then (s.renew env lane).1 else lane },
     s.lanes.any fun lane => expired ttl env lane)

/-- `*ready = ReadyLanes::empty()`. -/
def clearReady (s : ManagerState) : ManagerState := { s with ready := [] }

/-- `unavailable` is extended by every lane. -/
def markAll (s : ManagerState) : ManagerState :=
  { s with unavailable := s.unavailable ∪ (s.lanes.map (·.id)).toFinset }

/-- Every lane is put into one state. -/
def setStates (s : ManagerState) (state : LaneState) : ManagerState :=
  { s with lanes := s.lanes.map fun lane => { lane with state } }

/-- `instance.take()`. -/
def takeInstance (s : ManagerState) : ManagerState := { s with inst := none }

/-- The runtime and the held instance after a successful start. -/
def adopt (s : ManagerState) (inst : TorInstance) : ManagerState :=
  { s with runtime := ⟨inst.id, inst.socksAddr⟩, inst := some inst }

/-- One lane of the loop of `restart`, up to the edit of `unavailable`: whether the lane was
rotated. -/
def renewLane (s : ManagerState) (env : Env) (id : LaneId) : ManagerState × Bool :=
  match s.rotateLanes env id with
  | some (s, .ok ()) => (s, true)
  | some (s, .error _) => (s, false)
  | none => (s, false)

/-- The loop of `restart` over the lanes that are left. -/
def renewLanes (s : ManagerState) (env : Env) : List LaneId → ManagerState
  | [] => s
  | id :: ids =>
    let (s, renewed) := s.renewLane env id
    (if renewed then s.unmark id else s).renewLanes env ids

/-! ## The operations -/

/-- `assign`. -/
def assign (s : ManagerState) (env : Env) (id : LaneId) (epoch : ℕ) : ManagerState :=
  match s.assignLanes env id epoch with
  | (s, true) => s.publishReady
  | (s, false) => s

/-- `rotate`. -/
def rotate (s : ManagerState) (env : Env) (id : LaneId) : ManagerState × Except Error Unit :=
  match s.rotateLanes env id with
  | none => (s, .error (.unknownLane id))
  | some (s, .ok ()) => ((s.unmark id).publishReady, .ok ())
  | some (s, .error error) => (s.publishReady, .error (.internal error))

/-- `rotate_expired`. -/
def rotateExpired (s : ManagerState) (env : Env) : ManagerState :=
  match s.expireLanes env with
  | (s, true) => s.publishReady
  | (s, false) => s

/-- `restart`. -/
def restart (s : ManagerState) (env : Env) : ManagerState × Except Error Unit :=
  match s.instanceConfig with
  | none => (s, .error .restartUnavailable)
  | some config =>
    let s := s.clearReady.markAll.setStates .retiring
    match (if s.inst.isSome then env.stop else .ok ()) with
    -- Nothing is published: the ready list stays empty.
    | .error error => (s.takeInstance, .error (.tor error))
    | .ok () =>
      match env.start with
      | .error error =>
        ((s.takeInstance.setStates .failed).publishReady, .error (.tor error))
      | .ok socksAddr =>
        let s := s.adopt ⟨config.id, socksAddr⟩
        ((s.renewLanes env (s.lanes.map (·.id))).publishReady, .ok ())

/-- `shutdown_instance`. -/
def shutdownInstance (s : ManagerState) (env : Env) : ManagerState × Except Error Unit :=
  let s := s.clearReady
  match (if s.inst.isSome then env.stop else .ok ()) with
  | .error error => (s.takeInstance, .error (.tor error))
  | .ok () => (s.takeInstance, .ok ())

end ManagerState

end Torlane
