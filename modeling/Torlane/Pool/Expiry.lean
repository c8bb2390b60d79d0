import Torlane.Pool.Epochs
import Torlane.Potential

/-!
# Expiry

A pool with a rotation duration replaces its lanes by their age. The timer of `run_manager` fires
at least once in each `ttlTickPeriod`, and a firing leaves no ready lane that has reached the
duration: such a lane is rotated, or fails. In between, a lane can only become younger. So no ready
lane is ever older than the duration and one period, whatever else happens to it (`expiry_run`).
-/

namespace Torlane

open Transition

variable {s t : State} {a : Action} {ttl time : ℕ}

/-- `ttl_tick_period`, in nanoseconds: a quarter of the duration, between five milliseconds and one
second. -/
def ttlTickPeriod : Option ℕ → ℕ
  | some ttl => max 5000000 (min (ttl / 4) 1000000000)
  | none => 24 * 60 * 60 * 1000000000

/-! ## Young lanes -/

/-- At the given time, the lane has not reached the duration, if it is ready. -/
def Lane.Young (ttl time : ℕ) (lane : Lane) : Prop :=
  lane.state = .ready → time < lane.createdAt + ttl

namespace ManagerState

variable {m m' : ManagerState} {env : Env} {lane : Lane}

/-- No ready lane has reached the duration at the given time. -/
def Young (ttl time : ℕ) (m : ManagerState) : Prop := ∀ lane ∈ m.lanes, lane.Young ttl time

/-- A lane that has just been rotated is young, and one that could not be rotated is not ready. -/
theorem renew_young (hpos : 0 < ttl) (hnow : time ≤ env.now) (m : ManagerState) (lane : Lane) :
    (m.renew env lane).1.Young ttl time := by
  intro hready
  by_cases hrenew : CanRenew env lane
  · obtain ⟨lane', heq, -, -, -, -, hcreated, -⟩ := m.renew_ok hrenew
    have hage : (m.renew env lane).1.createdAt = env.now := by rw [heq, ← hcreated]
    omega
  · obtain ⟨error, heq⟩ := m.renew_error hrenew
    simp [heq] at hready

/-- Young lanes stay so when one of them is replaced by a young one. -/
theorem Young.setLane (hm : m.Young ttl time) (hlane : lane.Young ttl time) :
    (m.setLane lane).Young ttl time := by
  intro lane' hmem
  obtain ⟨other, hother, rfl⟩ := List.mem_map.mp hmem
  split_ifs
  · exact hlane
  · exact hm other hother

/-- An assignment makes no lane older. -/
theorem Young.assignLanes (hpos : 0 < ttl) (hnow : time ≤ env.now) (hm : m.Young ttl time)
    (id : LaneId) (epoch : ℕ) : (m.assignLanes env id epoch).1.Young ttl time := by
  rcases m.assignLanes_cases env id epoch with
    ⟨heq, -⟩ | ⟨maximum, -, lane, hmem, -, ⟨-, heq⟩ | ⟨-, heq⟩⟩
  · rw [heq]
    exact hm
  -- The count does not belong to the generation.
  · have hlane : (counted lane).Young ttl time := hm lane hmem
    rw [heq]
    exact hm.setLane hlane
  · rw [heq]
    exact hm.setLane (m.renew_young hpos hnow _)

/-- A rotation makes no lane older. -/
theorem Young.rotateLanes (hpos : 0 < ttl) (hnow : time ≤ env.now) (hm : m.Young ttl time)
    {id : LaneId} {result : Except LaneError Unit}
    (h : m.rotateLanes env id = some (m', result)) : m'.Young ttl time := by
  obtain ⟨lane, -, heq⟩ := Option.map_eq_some_iff.mp h
  obtain rfl : m.setLane (m.renew env lane).1 = m' := congrArg Prod.fst heq
  exact hm.setLane (m.renew_young hpos hnow lane)

/-- The loop of a restart makes no lane older. -/
theorem Young.renewLane (hpos : 0 < ttl) (hnow : time ≤ env.now) (hm : m.Young ttl time)
    (id : LaneId) : (m.renewLane env id).1.Young ttl time := by
  unfold ManagerState.renewLane
  split
  · next heq => exact hm.rotateLanes hpos hnow heq
  · next heq => exact hm.rotateLanes hpos hnow heq
  · exact hm

/-- The timer makes no lane older. -/
theorem Young.expireLanes (hpos : 0 < ttl) (hnow : time ≤ env.now) (hm : m.Young ttl time) :
    (m.expireLanes env).1.Young ttl time := by
  unfold ManagerState.expireLanes
  split
  · exact hm
  · intro lane' hmem
    obtain ⟨lane, hlane, rfl⟩ := List.mem_map.mp hmem
    split_ifs
    · exact m.renew_young hpos hnow lane
    · exact hm lane hlane

/-- When the timer has fired, all lanes are young, however old they were. -/
theorem expireLanes_young (hpos : 0 < ttl) (hduration : m.config.rotation.duration = some ttl)
    (env : Env) : (m.expireLanes env).1.Young ttl env.now := by
  intro lane' hmem hready
  simp only [expireLanes, hduration] at hmem
  obtain ⟨lane, hlane, rfl⟩ := List.mem_map.mp hmem
  split_ifs at hready ⊢ with hexpired
  · exact m.renew_young hpos le_rfl lane hready
  · have hage : ¬ ttl ≤ env.now - lane.createdAt := fun hage => hexpired ⟨hready, hage⟩
    omega

/-- Lanes that are not ready are young. -/
theorem setStates_young {state : LaneState} (hstate : state ≠ .ready) (m : ManagerState) :
    (m.setStates state).Young ttl time := by
  intro lane' hmem hready
  obtain ⟨lane, -, rfl⟩ := List.mem_map.mp hmem
  exact absurd hready hstate

end ManagerState

/-! ## Runs -/

/-- The clock has not been turned back before the given time. -/
def Action.notBefore (time : ℕ) : Action → Prop
  | .receive env => time ≤ env.now
  | .tick env => time ≤ env.now
  | .work env => time ≤ env.now
  | _ => True

/-- A command that is taken off the queue makes no lane older. -/
theorem young_receive {env : Env} (hpos : 0 < ttl) (hnow : time ≤ env.now)
    (hs : s.mgr.Young ttl time) (command : ManagerCommand) :
    (receive s env command).mgr.Young ttl time := by
  cases command with
  | assign id epoch => exact hs.assignLanes hpos hnow id epoch
  | rotate id response =>
    simp only [receive]
    split
    · exact hs
    · next heq => exact hs.rotateLanes hpos hnow heq
    · next heq => exact hs.rotateLanes hpos hnow heq
  | restart call =>
    simp only [receive]
    split <;> exact hs
  | shutdown call => exact hs

/-- A section of a command makes no lane older. -/
theorem young_work {env : Env} (hpos : 0 < ttl) (hnow : time ≤ env.now)
    (hs : s.mgr.Young ttl time) (h : work s env = some t) : t.mgr.Young ttl time := by
  unfold work at h
  cases hpc : s.pc with
  | idle => simp [hpc] at h
  | finished => simp [hpc] at h
  | respond job result =>
    obtain ⟨calls, heq, -⟩ := s.deliver_eq job.response result
    simp only [hpc, heq, Option.some.injEq] at h
    subst h
    exact hs
  | haltRespond call result =>
    obtain ⟨calls, heq, -⟩ := s.deliver_eq (some call) result
    simp only [hpc, heq, Option.some.injEq] at h
    subst h
    exact hs
  | retire config call =>
    simp only [hpc, Option.some.injEq] at h
    subst h
    exact s.mgr.setStates_young (by simp)
  | stop config call =>
    simp only [hpc] at h
    split at h <;> cases h <;> exact hs
  | start config call =>
    simp only [hpc] at h
    split at h <;> cases h
    · exact s.mgr.setStates_young (by simp)
    · exact hs
  | renew call ids =>
    cases ids with
    | nil =>
      simp only [hpc, Option.some.injEq] at h
      subst h
      exact hs
    | cons id ids =>
      simp only [hpc, Option.some.injEq] at h
      subst h
      exact hs.renewLane hpos hnow id
  | _ =>
    simp only [hpc, Option.some.injEq] at h
    subst h
    exact hs

/-- No step makes a lane older. -/
theorem young_step (hpos : 0 < ttl) (ha : a.notBefore time) (hs : s.mgr.Young ttl time)
    (h : step s a = some t) : t.mgr.Young ttl time := by
  cases a with
  | start c op =>
    simp only [step] at h
    split at h
    · cases h
      simpa [ManagerState.Young] using hs
    · cases h
  | advance c =>
    obtain ⟨⟨effect, pc⟩, -, rfl⟩ := Option.map_eq_some_iff.mp h
    simpa [ManagerState.Young] using hs
  | receive env =>
    simp only [step] at h
    split at h
    · next command rest hpc hqueue =>
      cases h
      exact young_receive (s := { s with queue := rest }) hpos ha hs command
    · cases h
  | tick env =>
    simp only [step] at h
    split at h
    · cases h
      exact hs.expireLanes hpos ha
    · cases h
  | work env => exact young_work hpos ha hs h

/-- In every run, after the timer has fired and for one period of it: no ready lane is older than
the duration and one period, and every list that the manager writes offers current endpoints of such
lanes only. Whatever happens between, by any number of calls, the manager, and the timer, does not
matter. -/
theorem expiry_run (hs : Init s) (hduration : s.mgr.config.rotation.duration = some ttl)
    {as bs : List Action} {env : Env} (h : run step s (as ++ .tick env :: bs) = some t)
    (hclock : ∀ a ∈ bs, a.notBefore env.now) {now : ℕ}
    (hnow : now ≤ env.now + ttlTickPeriod (some ttl)) :
    (∀ lane ∈ t.mgr.lanes, lane.state = .ready →
      now < lane.createdAt + ttl + ttlTickPeriod (some ttl)) ∧
    ∀ ready job result, t.pc = .write ready job result → ∀ endpoint ∈ ready,
      ∃ lane ∈ t.mgr.lanes, lane.state = .ready ∧ endpoint = lane.endpoint ∧
        now < lane.createdAt + ttl + ttlTickPeriod (some ttl) := by
  obtain ⟨u, hu, hrest⟩ := Option.bind_eq_some_iff.mp ((run_append s as _).symm.trans h)
  obtain ⟨v, hv, hbs⟩ := Option.bind_eq_some_iff.mp hrest
  have hpos : 0 < ttl := by
    obtain ⟨config, lanes, runtime, inst, instanceConfig, env, hconfig, hlanes, rfl⟩ := hs
    obtain ⟨-, -, hne, -⟩ := PoolConfig.validate_ok hconfig
    exact Nat.pos_of_ne_zero fun hzero => hne (hzero ▸ hduration)
  have hreached {as : List Action} {t : State} (h : run step s as = some t) :
      WellFormed t ∧ EndpointsKnown t ∧ t.mgr.config = s.mgr.config :=
    (reaches_of_run h).invariant
      (I := fun u => WellFormed u ∧ EndpointsKnown u ∧ u.mgr.config = s.mgr.config)
      (fun _ _ _ _ hstep ⟨hw, hk, hc⟩ =>
        ⟨hw.step hstep, hk.step hw hstep, (config_eq hw hstep).trans hc⟩)
      ⟨hs.wellFormed, hs.endpointsKnown, rfl⟩
  -- The firing leaves young lanes, and they stay young.
  have hfired : v.mgr.Young ttl env.now := by
    obtain ⟨-, -, hconfig⟩ := hreached hu
    simp only [step] at hv
    split at hv
    · cases hv
      exact ManagerState.expireLanes_young hpos (hconfig ▸ hduration) env
    · cases hv
  have hyoung : t.mgr.Young ttl env.now :=
    run_invariant (I := fun s => s.mgr.Young ttl env.now)
      (fun _ _ _ ha hstep hs => young_step hpos ha hs hstep) hclock hfired hbs
  have hage : ∀ lane ∈ t.mgr.lanes, lane.state = .ready →
      now < lane.createdAt + ttl + ttlTickPeriod (some ttl) := by
    intro lane hmem hready
    have hlane := hyoung lane hmem hready
    omega
  refine ⟨hage, fun ready job result hpc endpoint hendpoint => ?_⟩
  obtain ⟨-, hknown, -⟩ := hreached h
  obtain ⟨lane, hmem, hready, heq⟩ := hknown.writing ready job result hpc endpoint hendpoint
  exact ⟨lane, hmem, hready, heq, hage lane hmem hready⟩

/-- The pool of two lanes with a rotation duration of one second. -/
def expiringPool : State :=
  spawn { twoLaneConfig with rotation := ⟨some 1000000000, none⟩ } twoLanes ⟨⟨0⟩, twoLaneAddr⟩
    (some ⟨⟨0⟩, twoLaneAddr⟩) (some ⟨⟨1⟩⟩)

/-- The outside world at a later time. -/
def laterEnv (now : ℕ) : Env := { twoLaneEnv with now }

/-- The timer fires after one second and finds both lanes expired, and lane 1 is rotated again half
a second later. -/
def expiringRun : List Action :=
  [.start 0 (.rotate ⟨1⟩ true), .advance 0, .advance 0, .advance 0, .advance 0] ++
    .tick (laterEnv 1000000000) ::
      [.work (laterEnv 1000000000), .work (laterEnv 1000000000), .work (laterEnv 1000000000),
        .receive (laterEnv 1500000000)]

/-- No ready lane of that pool is older than one and a quarter seconds. -/
theorem expiry_run_expiringPool :
    ∃ t, run step expiringPool expiringRun = some t ∧
      ∀ lane ∈ t.mgr.lanes, lane.state = .ready →
        1200000000 < lane.createdAt + 1000000000 + ttlTickPeriod (some 1000000000) := by
  have hinit : Init expiringPool := ⟨_, _, _, _, _, twoLaneEnv, rfl, rfl, rfl⟩
  have hrun : ∃ t, run step expiringPool expiringRun = some t := ⟨_, rfl⟩
  obtain ⟨t, ht⟩ := hrun
  refine ⟨t, ht, (expiry_run hinit rfl ht ?_ ?_).1⟩
  · simp [Action.notBefore, laterEnv]
  · decide

end Torlane
