import Torlane.Net

/-!
# Lanes

A lane is one isolated SOCKS identity of the pool, `Lane` of `src/pool/lane.rs`. Its id is stable.
Its epoch, endpoint, and credentials are replaced together when it is rotated, by `rotateLane`, and
`rotateLane_cases` says all that a rotation can do. A lane carries the proof that its endpoint is
the one of its id and epoch.
-/

namespace Torlane

open Text

/-- A lane's canonical identifier, a `u32`. -/
structure LaneId where
  val : ℕ
  deriving DecidableEq, Repr

/-- The identifier of one Tor instance. -/
structure InstanceId where
  val : ℕ
  deriving DecidableEq, Repr

/-- The operating system's random source failed. -/
inductive SysError where
  | unavailable
  deriving DecidableEq, Repr

/-- A lane could not be created or rotated. -/
inductive LaneError where
  | epochOverflow (lane : LaneId)
  | random (error : SysError)
  deriving DecidableEq, Repr

/-- The bytes drawn for one password. -/
abbrev RandomBytes := Vector UInt8 32

/-- SOCKS5 username and password of one lane epoch. -/
structure SocksAuth where
  username : Text
  password : Text
  deriving DecidableEq, Repr

/-- The lower-case `hex_encode` of `src/pool/lane.rs`. -/
def hexEncode (bytes : List UInt8) : Text := hexEncodeWith "0123456789abcdef".toList bytes

/-- `generate_lane_auth`, with the outcome of the draw of random bytes. -/
def generateLaneAuth (id : LaneId) (epoch : ℕ) (random : Except SysError RandomBytes) :
    Except LaneError SocksAuth :=
  let username := "lane-".toList ++ zeroPadded 6 id.val ++ ['-'] ++ zeroPadded 8 epoch
  match random with
  | .error error => .error (.random error)
  | .ok bytes => .ok ⟨username, hexEncode bytes.toList⟩

/-- What a lane hands out: the shared SOCKS address with the credentials of one epoch. -/
structure LaneEndpoint where
  lane : LaneId
  epoch : ℕ
  instanceId : InstanceId
  addr : SocketAddr
  auth : SocksAuth
  deriving DecidableEq, Repr

/-- A lane's readiness state inside the pool manager. -/
inductive LaneState where
  | ready
  | retiring
  | failed
  deriving DecidableEq, Repr

/-- A lane: its identity, its current endpoint, and the manager's bookkeeping. -/
structure Lane where
  id : LaneId
  epoch : ℕ
  endpoint : LaneEndpoint
  createdAt : ℕ
  assignments : ℕ
  state : LaneState
  /-- The endpoint is the lane's own. -/
  endpoint_lane : endpoint.lane = id
  /-- The endpoint is the one of the lane's epoch. -/
  endpoint_epoch : endpoint.epoch = epoch
  deriving DecidableEq, Repr

attribute [simp] Lane.endpoint_lane Lane.endpoint_epoch

/-- `u64::checked_add`. -/
def checkedAdd (a b : ℕ) : Option ℕ := if a + b < 2^64 then some (a + b) else none

/-- `u64::saturating_add`. -/
def saturatingAdd (a b : ℕ) : ℕ := min (a + b) (2^64 - 1)

/-- `Lane::new`: a ready lane at epoch one. -/
def Lane.new (id : LaneId) (socksAddr : SocketAddr) (instanceId : InstanceId) (now : ℕ)
    (random : Except SysError RandomBytes) : Except LaneError Lane :=
  let epoch := 1
  match generateLaneAuth id epoch random with
  | .error error => .error error
  | .ok auth =>
    .ok { id, epoch, endpoint := ⟨id, epoch, instanceId, socksAddr, auth⟩, createdAt := now,
          assignments := 0, state := .ready, endpoint_lane := rfl, endpoint_epoch := rfl }

/-- `rotate_lane`: the lane after the call, and its result. The lane is marked retiring before
either of the two ways to fail. -/
def rotateLane (lane : Lane) (socksAddr : SocketAddr) (instanceId : InstanceId) (now : ℕ)
    (random : Except SysError RandomBytes) : Lane × Except LaneError Unit :=
  let lane := { lane with state := .retiring }
  match checkedAdd lane.epoch 1 with
  | none => (lane, .error (.epochOverflow lane.id))
  | some epoch =>
    match generateLaneAuth lane.id epoch random with
    | .error error => (lane, .error error)
    | .ok auth =>
      ({ lane with
          epoch, endpoint := ⟨lane.id, epoch, instanceId, socksAddr, auth⟩, assignments := 0,
          createdAt := now, state := .ready, endpoint_lane := rfl, endpoint_epoch := rfl }, .ok ())

/-- What `rotateLane` can do. It succeeds exactly when the epoch can be incremented and the random
bytes are drawn; the lane is then ready at the next epoch, with a new endpoint at the given address.
Otherwise only the lane's state has changed, to retiring. -/
theorem rotateLane_cases (lane : Lane) (socksAddr : SocketAddr) (instanceId : InstanceId) (now : ℕ)
    (random : Except SysError RandomBytes) :
    (∃ bytes auth, random = .ok bytes ∧ lane.epoch + 1 < 2^64 ∧
      generateLaneAuth lane.id (lane.epoch + 1) random = .ok auth ∧
      rotateLane lane socksAddr instanceId now random =
        ({ lane with
            epoch := lane.epoch + 1
            endpoint := ⟨lane.id, lane.epoch + 1, instanceId, socksAddr, auth⟩
            assignments := 0, createdAt := now, state := .ready
            endpoint_lane := rfl, endpoint_epoch := rfl }, .ok ())) ∨
    (∃ error, ¬ ((∃ bytes, random = .ok bytes) ∧ lane.epoch + 1 < 2^64) ∧
      rotateLane lane socksAddr instanceId now random =
        ({ lane with state := .retiring }, .error error)) := by
  by_cases hepoch : lane.epoch + 1 < 2^64
  · have hadd : checkedAdd lane.epoch 1 = some (lane.epoch + 1) := if_pos hepoch
    cases random with
    | ok bytes => exact .inl ⟨bytes, _, rfl, hepoch, rfl, by
        simp [rotateLane, hadd, generateLaneAuth]⟩
    | error error => exact .inr ⟨.random error, by simp, by
        simp [rotateLane, hadd, generateLaneAuth]⟩
  · have hadd : checkedAdd lane.epoch 1 = none := if_neg hepoch
    exact .inr ⟨.epochOverflow lane.id, fun h => hepoch h.2, by simp [rotateLane, hadd]⟩

end Torlane
