import Mathlib.Data.Nat.Notation
import Mathlib.Tactic.SplitIfs

/-!
# Pool configuration

`PoolConfig` of `src/pool/config.rs` and `RotationPolicy` of `src/rotation.rs`, with their
validation. Durations are in nanoseconds.
-/

namespace Torlane

/-- A `PoolConfig` or `RotationPolicy` value failed validation. -/
inductive ConfigError where
  | emptyLanes
  | tooManyLanes (actual max : ℕ)
  | zeroRotationDuration
  | zeroRotationAssignments
  | zeroBootstrapTimeout
  deriving DecidableEq, Repr

/-- The rotation limits of a lane; without any, a lane is rotated only on request. -/
structure RotationPolicy where
  /-- The age at which a ready lane is rotated. -/
  duration : Option ℕ
  /-- The number of assignments at which a lane is rotated. -/
  assignmentLimit : Option UInt64
  deriving DecidableEq, Repr

/-- `RotationPolicy::validate`: a configured limit is not zero. -/
def RotationPolicy.validate (policy : RotationPolicy) : Except ConfigError Unit :=
  if policy.duration = some 0 then .error .zeroRotationDuration
  else if policy.assignmentLimit = some 0 then .error .zeroRotationAssignments
  else .ok ()

/-- A validated rotation policy has no limit of zero. -/
theorem RotationPolicy.validate_ok {policy : RotationPolicy} (h : policy.validate = .ok ()) :
    policy.duration ≠ some 0 ∧ policy.assignmentLimit ≠ some 0 := by
  unfold RotationPolicy.validate at h
  split_ifs at h with hduration hlimit
  exact ⟨hduration, hlimit⟩

/-- The largest number of lanes of a pool. -/
def maxLanes : ℕ := 65536

/-- Managed pool topology: lane count, rotation policy, and bootstrap timeout. -/
structure PoolConfig where
  lanes : ℕ
  rotation : RotationPolicy
  bootstrapTimeout : ℕ
  deriving DecidableEq, Repr

/-- `PoolConfig::validate`. -/
def PoolConfig.validate (config : PoolConfig) : Except ConfigError Unit :=
  if config.lanes = 0 then .error .emptyLanes
  else if maxLanes < config.lanes then .error (.tooManyLanes config.lanes maxLanes)
  else
    match config.rotation.validate with
    | .error error => .error error
    | .ok () => if config.bootstrapTimeout = 0 then .error .zeroBootstrapTimeout else .ok ()

/-- A validated pool has at least one lane and at most `maxLanes`, and no limit of its rotation
policy is zero. -/
theorem PoolConfig.validate_ok {config : PoolConfig} (h : config.validate = .ok ()) :
    0 < config.lanes ∧ config.lanes ≤ maxLanes ∧ config.rotation.duration ≠ some 0 ∧
      config.rotation.assignmentLimit ≠ some 0 := by
  unfold PoolConfig.validate at h
  cases hrotation : config.rotation.validate with
  | error error =>
    rw [hrotation] at h
    split_ifs at h
  | ok =>
    rw [hrotation] at h
    split_ifs at h with hempty hmax htimeout
    exact ⟨Nat.pos_of_ne_zero hempty, Nat.le_of_not_lt hmax, RotationPolicy.validate_ok hrotation⟩

end Torlane
