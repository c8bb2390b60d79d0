import Torlane.Pool.Convergence
import Torlane.Pool.Shutdown

/-!
# Lanes and their Tor instance

A lane of a managed pool that is ready should have a running Tor instance behind it. `restart`
gives up the instance before it starts a new one, and puts every lane out of the ready state
first. On an error it returns without an instance. `assign` and `rotate_expired` leave the lanes
alone then, since they rotate ready lanes only. `rotate` does not look at the state of its lane,
and so a rotation that is processed after a failed restart makes a lane ready that nothing serves.
`served_run` says that this is the only way.
-/

namespace Torlane

open Transition

variable {s t : State} {a : Action}

/-- Until a shutdown takes the instance, every ready lane is served: the manager holds an
instance, and the lane's endpoint is at its address. -/
def Served (s : State) : Prop :=
  s.pc.disposed = false → ∀ lane ∈ s.mgr.lanes, lane.state = .ready →
    ∃ inst, s.mgr.inst = some inst ∧ lane.endpoint.addr = inst.socksAddr

/-- The manager does not take a rotation off the queue that will succeed while it holds no
instance. -/
def rotatesServed (s : State) : Action → Prop
  | .receive env =>
    ∀ id response rest, s.pc = .idle → s.queue = .rotate id response :: rest →
      s.mgr.inst.isSome ∨ ∀ lane ∈ s.mgr.lanes, lane.id = id → ¬ CanRenew env lane
  | _ => True

/-- The pool was created from a managed instance. -/
def ManagedInit (s : State) : Prop :=
  Init s ∧ ∃ inst, s.mgr.inst = some inst ∧ s.mgr.runtime = ⟨inst.id, inst.socksAddr⟩ ∧
    s.mgr.instanceConfig.isSome

/-- `restart` is rotating the lanes. -/
def ManagerPc.renews : ManagerPc → Bool
  | .renew _ _ => true
  | .renewUnmark _ _ _ => true
  | _ => false

/-- What the manager knows of its instance: new endpoints are made at its address, and while
`restart` rotates the lanes, it is there. -/
structure Held (s : State) : Prop where
  runtime : ∀ inst, s.mgr.inst = some inst → s.mgr.runtime.socksAddr = inst.socksAddr
  renews : s.pc.renews = true → s.mgr.inst.isSome

/-- A move of the manager keeps the instance, or takes it, or adopts a new one. -/
theorem ManagerMove.inst (hmove : ManagerMove s a t) :
    (t.mgr.inst = s.mgr.inst ∧ t.mgr.runtime = s.mgr.runtime) ∨ t.mgr.inst = none ∨
      ∃ inst, t.mgr.inst = some inst ∧ t.mgr.runtime = ⟨inst.id, inst.socksAddr⟩ := by
  cases hmove with
  | retire => exact .inr (.inl rfl)
  | haltTake => exact .inr (.inl rfl)
  | start => exact .inr (.inr ⟨_, rfl, rfl⟩)
  | _ => exact .inl ⟨rfl, rfl⟩

/-- The manager comes to rotate the lanes of `restart` with a new instance, and then keeps it. -/
theorem ManagerMove.renews_inst (hmove : ManagerMove s a t) (h : t.pc.renews = true) :
    t.mgr.inst.isSome ∨ (s.pc.renews = true ∧ t.mgr.inst = s.mgr.inst) := by
  cases hmove with
  | @receiveAssign _ _ _ _ _ publish => cases publish <;> simp [ManagerPc.renews] at h
  | @tick _ _ _ publish => cases publish <;> simp [ManagerPc.renews] at h
  | retire _ _ _ hpc' => rcases hpc' with rfl | rfl <;> simp [ManagerPc.renews] at h
  | haltTake _ hpc' => rcases hpc' with rfl | rfl <;> simp [ManagerPc.renews] at h
  | start => exact .inl rfl
  | renew hpc => exact .inr ⟨by rw [hpc]; rfl, rfl⟩
  | renewError hpc => exact .inr ⟨by rw [hpc]; rfl, rfl⟩
  | renewUnmark hpc => exact .inr ⟨by rw [hpc]; rfl, rfl⟩
  | _ => simp [ManagerPc.renews] at h

/-- Every step keeps what the manager knows of its instance. -/
theorem Held.step (hw : WellFormed s) (hs : Held s) (h : step s a = some t) : Held t := by
  rcases step_cases hw h with ⟨c, pc, effect, pc', -, -, rfl, -⟩ | hmove
  · exact ⟨by simpa using hs.runtime, by simpa using hs.renews⟩
  · refine ⟨fun inst hinst => ?_, fun hrenews => ?_⟩
    · rcases hmove.inst with ⟨heq, hruntime⟩ | hnone | ⟨inst', hinst', hruntime⟩
      · rw [hruntime]
        exact hs.runtime inst (heq ▸ hinst)
      · simp [hnone] at hinst
      · obtain rfl := Option.some.inj (hinst.symm.trans hinst')
        rw [hruntime]
    · rcases hmove.renews_inst hrenews with hsome | ⟨hrenews, heq⟩
      · exact hsome
      · exact heq ▸ hs.renews hrenews

/-- What holds in every state of a managed pool. -/
structure Serving (s : State) : Prop where
  converging : Converging s
  held : Held s

/-- Every step keeps the pool serving. -/
theorem Serving.step (hs : Serving s) (h : step s a = some t) : Serving t :=
  ⟨hs.converging.step h, hs.held.step hs.converging.wellFormed h⟩

/-- A ready lane is served if the manager holds an instance. -/
theorem Serving.served (hs : Serving s)
    (h : s.pc.disposed = false → ∀ lane ∈ s.mgr.lanes, lane.state = .ready → s.mgr.inst.isSome) :
    Served s := by
  intro hopen lane hmem hready
  obtain ⟨inst, hinst⟩ := Option.isSome_iff_exists.mp (h hopen lane hmem hready)
  refine ⟨inst, hinst, ?_⟩
  rw [← hs.held.runtime inst hinst]
  exact hs.converging.atRuntime.lanes lane hmem hready

/-- A ready lane that was ready before still has an instance, if the move keeps the instance. -/
theorem Served.isSome_of_ready_before {cause : Cause} (hs : Served s)
    (hopen : s.pc.disposed = false)
    (hmoves : LaneMoves s.mgr.runtime cause s.mgr.lanes t.mgr.lanes) {lane' : Lane}
    (hmem : lane' ∈ t.mgr.lanes) (hready : lane'.state = .ready)
    (hcause : cause ≠ .rotate lane'.id) (hinst : t.mgr.inst = s.mgr.inst) :
    t.mgr.inst.isSome := by
  obtain ⟨lane, hlane, hmove⟩ := hmoves.of_mem hmem
  have hbefore := (hmove.ready_before hready).resolve_right (hmove.id_eq ▸ hcause)
  obtain ⟨inst, hsome, -⟩ := hs hopen lane hlane hbefore
  simp [hinst, hsome]

/-- A move of the manager that meets the guard makes no lane ready without an instance. -/
theorem Served.manager (hserving : Serving s) (hs : Served s) (hmove : ManagerMove s a t)
    (hG : rotatesServed s a) (hdisposed : t.pc.disposed = false) {lane' : Lane}
    (hmem : lane' ∈ t.mgr.lanes)
    (hready : lane'.state = .ready) : t.mgr.inst.isSome := by
  -- A shutdown that has taken the instance is not undone.
  have hopen : s.pc.disposed = false := by
    cases hs : s.pc.disposed with
    | false => rfl
    | true => simp [hmove.disposed_of_disposed hs] at hdisposed
  have hsame (hmem : lane' ∈ s.mgr.lanes) : s.mgr.inst.isSome := by
    obtain ⟨inst, hinst, -⟩ := hs hopen lane' hmem hready
    simp [hinst]
  cases hmove with
  | receiveAssign _ _ _ hmoves =>
    exact hs.isSome_of_ready_before hopen hmoves hmem hready (by simp) rfl
  | tick _ _ hmoves => exact hs.isSome_of_ready_before hopen hmoves hmem hready (by simp) rfl
  | @receiveRotate env id response rest lanes hpc hqueue hmoves _ _ hrenew =>
    -- The guard is about this lane: the rotation has succeeded, and so the instance is there.
    by_cases hid : lane'.id = id
    · obtain ⟨lane, hlane, hmove⟩ := hmoves.of_mem hmem
      refine (hG id response rest hpc hqueue).resolve_right fun hnot => ?_
      have hlane' : lane.id = id := hmove.id_eq.symm.trans hid
      exact hnot lane hlane hlane' (hrenew lane hlane hlane')
    · exact hs.isSome_of_ready_before hopen hmoves hmem hready (by simpa using Ne.symm hid) rfl
  | @receiveRotateError env id response rest lanes error hpc hqueue hmoves hfailed _ =>
    refine hs.isSome_of_ready_before hopen hmoves hmem hready ?_ rfl
    intro heq
    exact hfailed lane' hmem (Cause.rotate.inj heq).symm hready
  | retire _ _ hnone => exact absurd hready (hnone lane' hmem)
  | startError _ _ hnone => exact absurd hready (hnone lane' hmem)
  | start => rfl
  | renew hpc => exact hserving.held.renews (by rw [hpc]; rfl)
  | renewError hpc => exact hserving.held.renews (by rw [hpc]; rfl)
  | haltTake _ hpc' => rcases hpc' with rfl | rfl <;> cases hdisposed
  | _ => exact hsame hmem

/-- A step that meets the guard keeps every ready lane served. -/
theorem Served.step (hserving : Serving s) (hs : Served s) (h : step s a = some t)
    (hG : rotatesServed s a) : Served t := by
  refine (hserving.step h).served fun hdisposed lane hmem hready => ?_
  rcases step_cases hserving.converging.wellFormed h with
    ⟨c, pc, effect, pc', -, -, rfl, -⟩ | hmove
  · obtain ⟨inst, hinst, -⟩ := hs (by simpa using hdisposed) lane (by simpa using hmem) hready
    simp [hinst]
  · exact hs.manager hserving hmove hG hdisposed hmem hready

/-- A step that breaks the guard makes a lane ready that nothing serves. -/
theorem not_served (hw : WellFormed s) (h : step s a = some t) (hG : ¬ rotatesServed s a) :
    ¬ Served t := by
  cases a with
  | receive env =>
    simp only [rotatesServed, not_forall, not_or] at hG
    obtain ⟨id, response, rest, hpc, hqueue, hnone, lane, hmem, hid, hrenew⟩ := hG
    have hlane : id.val < s.mgr.config.lanes := hw.queued id response (by simp [hqueue])
    have hnumbered := (hw.step h).numbered
    rw [config_eq hw h] at hnumbered
    obtain ⟨lane', hmem', hid'⟩ := hnumbered.exists_lane hlane
    intro hserved
    cases managerMove_of_step hw h with
    -- The rotated lane is ready, and the manager holds no instance.
    | receiveRotate _ hqueue' _ hready =>
      obtain ⟨⟨rfl, rfl⟩, rfl⟩ := by simpa [hqueue] using hqueue'
      obtain ⟨inst, hinst, -⟩ := hserved rfl lane' hmem' (hready lane' hmem' hid')
      exact hnone (by simpa using Option.isSome_iff_exists.mpr ⟨inst, hinst⟩)
    | receiveRotateError _ hqueue' _ _ hfailed =>
      obtain ⟨⟨rfl, rfl⟩, rfl⟩ := by simpa [hqueue] using hqueue'
      exact hfailed lane hmem hid (not_not.mp hrenew)
    | _ => simp_all
  | _ => exact absurd trivial hG

/-- A rotation that is not taken off the queue does not break the guard. -/
theorem rotatesServed_of_disabled (h : step s a = none) : rotatesServed s a := by
  cases a with
  | receive env =>
    intro id response rest hpc hqueue
    simp [Torlane.step, hpc, hqueue] at h
  | _ => trivial

/-- The lanes of a managed pool that has just been spawned are served. -/
theorem ManagedInit.serving (hs : ManagedInit s) : Serving s ∧ Served s := by
  obtain ⟨hinit, inst, hinst, hruntime, -⟩ := hs
  have hserving : Serving s := by
    refine ⟨hinit.converging, fun inst' hinst' => ?_, fun _ => by simp [hinst]⟩
    obtain rfl := Option.some.inj (hinst.symm.trans hinst')
    rw [hruntime]
  exact ⟨hserving, hserving.served fun _ _ _ _ => by simp [hinst]⟩

/-- In every run of a managed pool, every ready lane is served by the instance that the manager
holds, until a shutdown takes it, if and only if the manager takes no rotation off the queue that
succeeds while it holds none. -/
theorem served_run (hs : ManagedInit s) (as : List Action) :
    Always step Served s as ↔ Along step rotatesServed s as := by
  obtain ⟨hserving, hserved⟩ := hs.serving
  refine ⟨fun h => ?_, fun h => ?_⟩
  · exact h.along (J := WellFormed) (fun _ _ _ h hw => hw.step h)
      (fun _ _ _ hw h hG => not_served hw h hG) (fun _ _ => rotatesServed_of_disabled)
      hserving.converging.wellFormed
  · exact h.always (I := fun s => Serving s ∧ Served s)
      (fun _ _ _ hG h ⟨hserving, hs⟩ => ⟨hserving.step h, hs.step hserving h hG⟩)
      (fun _ hI => hI.2) ⟨hserving, hserved⟩

/-- Tor does not start. -/
def brokenEnv : Env := { twoLaneEnv with start := .error .process }

/-- A restart that fails, and that a rotation was queued behind. -/
def failedRestart : List Action :=
  [.start 0 .restart, .advance 0, .start 1 (.rotate ⟨0⟩ false), .advance 1, .advance 1, .advance 1,
    .advance 1, .receive brokenEnv, .work brokenEnv, .work brokenEnv, .work brokenEnv,
    .work brokenEnv, .work brokenEnv, .work brokenEnv, .work brokenEnv, .work brokenEnv]

/-- The pool of two lanes is created from a managed instance. -/
theorem twoLanePool_managed : ManagedInit twoLanePool := ⟨twoLanePool_init, _, rfl, rfl, rfl⟩

/-- Every ready lane of the pool of two lanes is served until the restart has failed. -/
theorem served_run_failedRestart : Always step Served twoLanePool failedRestart := by
  refine (served_run twoLanePool_managed _).mpr ?_
  refine .of_step trivial rfl <| .of_step trivial rfl <| .of_step trivial rfl <|
    .of_step trivial rfl <| .of_step trivial rfl <| .of_step trivial rfl <|
    .of_step trivial rfl ?_
  -- The only command that is received is the restart.
  refine ⟨by rintro id response rest - ⟨⟩, ?_⟩
  rintro _ -
  exact ⟨trivial, fun _ _ => ⟨trivial, fun _ _ => ⟨trivial, fun _ _ => ⟨trivial, fun _ _ =>
    ⟨trivial, fun _ _ => ⟨trivial, fun _ _ => ⟨trivial, fun _ _ =>
      ⟨trivial, fun _ _ => trivial⟩⟩⟩⟩⟩⟩⟩⟩

/-- After the restart has failed, the manager processes the rotation: lane 0 is ready and published,
and the manager holds no instance. -/
theorem rotation_revives_lane :
    ManagedInit twoLanePool ∧
    ∃ t, run step twoLanePool
        (failedRestart ++ [.receive twoLaneEnv, .work twoLaneEnv, .work twoLaneEnv,
          .work twoLaneEnv]) = some t ∧
      t.closed = false ∧ t.mgr.inst = none ∧ t.mgr.ready.map (·.lane) = [⟨0⟩] ∧
      t.mgr.lanes.map (·.state) = [.ready, .failed] := by
  refine ⟨twoLanePool_managed, ?_⟩
  have hrun : run step twoLanePool
      (failedRestart ++ [.receive twoLaneEnv, .work twoLaneEnv, .work twoLaneEnv,
        .work twoLaneEnv]) = some _ := rfl
  exact ⟨_, hrun, rfl, rfl, by decide, by decide⟩

end Torlane
