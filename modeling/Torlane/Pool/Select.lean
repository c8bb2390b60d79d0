import Torlane.Pool.Config
import Torlane.Pool.Lane

/-!
# Selection

The published ready list and the two ways to pick from it, of `src/pool/select.rs` and of
`Pool::next` and `Pool::for_key`, and the errors of the pool's operations.
-/

namespace Torlane

/-- A managed Tor instance failed to start or to stop. -/
inductive TorInstanceError where
  | layout
  | config
  | version
  | verify
  | verificationTask
  | process
  | control
  deriving DecidableEq, Repr

/-- The errors of the pool's operations. -/
inductive Error where
  | config (error : ConfigError)
  | tor (error : TorInstanceError)
  | noReadyLanes
  | laneUnavailable (lane : LaneId)
  | unknownLane (lane : LaneId)
  | closed
  | restartUnavailable
  | managerTask
  | internal (error : LaneError)
  deriving DecidableEq, Repr

/-- The published endpoints, in the order in which they are handed out. -/
abbrev ReadyLanes := List LaneEndpoint

/-- A selected lane, bound to one epoch of it. -/
structure Proxy where
  inner : LaneEndpoint
  deriving DecidableEq, Repr

/-- Some endpoint of the list belongs to the lane. -/
def ReadyLanes.offers (ready : ReadyLanes) (lane : LaneId) : Prop :=
  ∃ endpoint ∈ ready, endpoint.lane = lane

instance (ready : ReadyLanes) (lane : LaneId) : Decidable (ready.offers lane) :=
  inferInstanceAs (Decidable (∃ endpoint ∈ ready, endpoint.lane = lane))

/-- The list without the lane's endpoints, as `queue_rotation` writes it back. -/
def ReadyLanes.without (ready : ReadyLanes) (lane : LaneId) : ReadyLanes :=
  ready.filter (·.lane ≠ lane)

@[simp] theorem ReadyLanes.mem_without {ready : ReadyLanes} {lane : LaneId}
    {endpoint : LaneEndpoint} :
    endpoint ∈ ready.without lane ↔ endpoint ∈ ready ∧ endpoint.lane ≠ lane := by
  simp [ReadyLanes.without]

/-- A filtered list offers the same lanes, without the one it was filtered by. -/
@[simp] theorem ReadyLanes.offers_without {ready : ReadyLanes} {lane other : LaneId} :
    (ready.without lane).offers other ↔ ready.offers other ∧ other ≠ lane := by
  unfold ReadyLanes.offers
  constructor
  · rintro ⟨endpoint, hmem, rfl⟩
    rw [mem_without] at hmem
    exact ⟨⟨endpoint, hmem.1, rfl⟩, hmem.2⟩
  · rintro ⟨⟨endpoint, hmem, rfl⟩, hne⟩
    exact ⟨endpoint, mem_without.mpr ⟨hmem, hne⟩, rfl⟩

/-- The empty list offers no lane. -/
@[simp] theorem ReadyLanes.not_offers_nil {lane : LaneId} : ¬ ReadyLanes.offers [] lane := by
  simp [ReadyLanes.offers]

/-- `AtomicUsize::fetch_add(1)` on a word of `bits` bits: the cursor after it. -/
def fetchAdd (bits cursor : ℕ) : ℕ := (cursor + 1) % 2 ^ bits

/-- The endpoint that `next` takes from a ready list at a cursor value, or `none` from an empty
list. -/
def ReadyLanes.next (ready : ReadyLanes) (cursor : ℕ) : Option LaneEndpoint :=
  ready[cursor % ready.length]?

/-- The endpoint that `for_key` takes from a ready list for the lane that the key is mapped to. -/
def ReadyLanes.forLane (ready : ReadyLanes) (lane : LaneId) : Option LaneEndpoint :=
  ready.find? (·.lane = lane)

/-- `next` returns no endpoint of a lane that is not offered, and `for_key` returns none for a key
that is mapped to it. -/
theorem ReadyLanes.not_selected {ready : ReadyLanes} {lane : LaneId} (h : ¬ ready.offers lane) :
    (∀ cursor endpoint, ready.next cursor = some endpoint → endpoint.lane ≠ lane) ∧
      ready.forLane lane = none := by
  constructor
  · intro cursor endpoint hnext hlane
    exact h ⟨endpoint, List.mem_of_getElem? hnext, hlane⟩
  · simp only [ReadyLanes.forLane, List.find?_eq_none, decide_eq_true_eq]
    intro endpoint hmem hlane
    exact h ⟨endpoint, hmem, hlane⟩

/-- `stable_lane_index`: the FNV-1a hash of the key, modulo the lane count. -/
def stableLaneIndex (key : List UInt8) (laneCount : ℕ) : ℕ :=
  let hash := key.foldl (fun hash byte => (hash ^^^ byte.toUInt64) * 0x00000100000001b3)
    (0xcbf29ce484222325 : UInt64)
  hash.toNat % laneCount

end Torlane
