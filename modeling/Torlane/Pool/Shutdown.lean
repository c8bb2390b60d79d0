import Torlane.Pool.Moves

/-!
# Shutdown

What a call of `shutdown` waits for depends on who finds the join handle: one call takes it and
waits for the task to end, and every later one finds none and returns at once. `shutdown_run` is
the exact condition under which no call returns before the manager has halted: no call may find
the handle taken while the manager is still running. `third_shutdown_returns` is a run that breaks
it.

Whatever the calls do, the manager shuts its instance down at most once.
-/

namespace Torlane

open Transition

/-- The manager has left its loop: it has answered the shutdown, and takes no further command. -/
def ManagerPc.halted : ManagerPc → Bool
  | .exiting => true
  | .finished => true
  | _ => false

/-- In a shutdown, the manager has taken its instance. -/
def ManagerPc.disposed : ManagerPc → Bool
  | .haltStop _ => true
  | .haltRespond _ _ => true
  | .exiting => true
  | .finished => true
  | _ => false

/-- A halted manager has disposed of its instance. -/
theorem ManagerPc.disposed_of_halted {pc : ManagerPc} (h : pc.halted = true) :
    pc.disposed = true := by
  cases pc <;> simp_all [halted, disposed]

variable {s t : State} {a : Action}

/-- The manager stays halted. -/
theorem ManagerMove.halted (hmove : ManagerMove s a t) (h : s.pc.halted = true) :
    t.pc.halted = true := by
  cases hmove with
  | exiting => rfl
  | _ => simp_all [ManagerPc.halted]

/-- The manager comes to dispose of its instance by taking it, and then it stays without. -/
theorem ManagerMove.disposed (hmove : ManagerMove s a t) (h : t.pc.disposed = true) :
    (∃ env call, a = .work env ∧ s.pc = .haltTake call ∧ t.mgr.inst = none) ∨
      (s.pc.disposed = true ∧ t.mgr.inst = s.mgr.inst) := by
  cases hmove with
  | receiveAssign => split_ifs at h <;> simp [ManagerPc.disposed] at h
  | tick => split_ifs at h <;> simp [ManagerPc.disposed] at h
  | retire _ _ _ hpc' => rcases hpc' with rfl | rfl <;> simp [ManagerPc.disposed] at h
  | haltTake hpc => exact .inl ⟨_, _, rfl, hpc, rfl⟩
  | haltStop hpc => exact .inr ⟨by rw [hpc]; rfl, rfl⟩
  | haltRespond hpc => exact .inr ⟨by rw [hpc]; rfl, rfl⟩
  | exiting hpc => exact .inr ⟨by rw [hpc]; rfl, rfl⟩
  | _ => simp [ManagerPc.disposed] at h

/-- The manager stays without its instance. -/
theorem ManagerMove.disposed_of_disposed (hmove : ManagerMove s a t) (h : s.pc.disposed = true) :
    t.pc.disposed = true := by
  cases hmove <;> simp_all [ManagerPc.disposed]

/-- Once the manager has disposed of its instance, it holds none. A call learns the outcome of
`shutdown` only from its own join. -/
structure Halting (s : State) : Prop where
  disposed : s.pc.disposed = true → s.mgr.inst = none
  joining : ∀ c result, s.calls c ≠ .returning (.shutdown result)

/-- An answer to a call is not the outcome of `shutdown`. -/
theorem Answered.not_shutdown {result result' : Except Error Unit} {pc pc' : CallPc}
    (h : Answered result pc pc') :
    pc' ≠ .returning (.shutdown result') ∧ pc' ≠ .done (.shutdown result') := by
  cases h <;> simp

/-- Every step keeps the two facts. -/
theorem Halting.step (hw : WellFormed s) (hs : Halting s) (h : step s a = some t) : Halting t := by
  rcases step_cases hw h with ⟨c, pc, effect, pc', rfl, hmove, rfl, -⟩ | hmove
  · refine ⟨by simpa using hs.disposed, fun c' result hpc => ?_⟩
    rw [State.setCall_calls] at hpc
    split_ifs at hpc
    · subst hpc
      generalize s.calls c = pc at hmove
      cases hmove
    · exact hs.joining c' result (by simpa using hpc)
  · refine ⟨fun hdisposed => ?_, fun c result hpc => ?_⟩
    · rcases hmove.disposed hdisposed with ⟨-, -, -, -, hinst⟩ | ⟨hdisposed, hinst⟩
      · exact hinst
      · exact hinst ▸ hs.disposed hdisposed
    · rcases hmove.calls c with heq | ⟨_, hanswered⟩
      · exact hs.joining c result (heq ▸ hpc)
      · exact hanswered.not_shutdown.1 hpc

/-- The call does not find the join handle taken, unless the manager has halted. -/
def joinsOrHalted (s : State) : Action → Prop
  | .advance c =>
    ∀ result, s.calls c = .shutdownJoin result → s.handle = false → s.pc.halted = true
  | _ => True

/-- When a call of `shutdown` has returned, the manager has halted, and it holds no instance. -/
def ReturnsHalted (s : State) : Prop :=
  ∀ c result, s.calls c = .done (.shutdown result) → s.pc.halted = true ∧ s.mgr.inst = none

/-- A step that meets the guard lets no call of `shutdown` return early. -/
theorem ReturnsHalted.step (hw : WellFormed s) (hh : Halting s) (hs : ReturnsHalted s)
    (h : step s a = some t) (hG : joinsOrHalted s a) : ReturnsHalted t := by
  intro c result hdone
  rcases step_cases hw h with ⟨c', pc, effect, pc', hpc, hmove, rfl, ha⟩ | hmove
  · simp only [State.setCall_pc, State.apply_pc, State.setCall_mgr, State.apply_inst]
    suffices hhalted : s.pc.halted = true from
      ⟨hhalted, hh.disposed (ManagerPc.disposed_of_halted hhalted)⟩
    rw [State.setCall_calls] at hdone
    split_ifs at hdone
    · subst hdone
      cases hmove with
      -- Of the moves that end a call, three end one of `shutdown`.
      | giveUp _ _ hshutdown => exact absurd rfl (hshutdown result)
      | shutdownTaken hhandle =>
        -- The call finds the handle taken, which the guard allows only after the end.
        rcases ha with ⟨rfl, -⟩ | ⟨hfresh, -⟩
        · exact hG result hpc hhandle
        · cases hfresh
      | shutdownAwait hdropped =>
        cases hmgr : s.pc <;> simp [State.receiverDropped, hmgr] at hdropped
        rfl
      | returning => exact absurd hpc (hh.joining c' result)
    · exact (hs c result (by simpa using hdone)).1
  · rcases hmove.calls c with heq | ⟨_, hanswered⟩
    · have hhalted := hmove.halted (hs c result (heq ▸ hdone)).1
      refine ⟨hhalted, (hh.step hw h).disposed (ManagerPc.disposed_of_halted hhalted)⟩
    · exact absurd hdone hanswered.not_shutdown.2

/-- A call that finds the join handle taken while the manager is running returns early. -/
theorem not_returnsHalted (h : step s a = some t) (hG : ¬ joinsOrHalted s a) :
    ¬ ReturnsHalted t := by
  cases a with
  | advance c =>
    simp only [joinsOrHalted, not_forall] at hG
    obtain ⟨result, hpc, hhandle, hhalted⟩ := hG
    obtain rfl : (s.apply .none).setCall c (.done (.shutdown result)) = t := by
      simpa [Torlane.step, callStep, hpc, hhandle] using h
    intro hreturns
    exact hhalted (hreturns c result (by simp [State.setCall_calls])).1
  | _ => exact absurd trivial hG

/-- A join that is not enabled does not occur. -/
theorem joinsOrHalted_of_disabled (h : step s a = none) : joinsOrHalted s a := by
  cases a with
  | advance c =>
    intro result hpc hhandle
    simp [Torlane.step, callStep, hpc, hhandle] at h
  | _ => trivial

/-- The step in which the manager takes its instance to shut it down. -/
def disposes (s : State) : Action → List CallId
  | .work _ =>
    match s.pc with
    | .haltTake call => [call]
    | _ => []
  | _ => []

/-- The manager has shut its instance down once if it has disposed of it, and not at all before. -/
def DisposedOnce (s : State) (seen : List CallId) : Prop :=
  seen.length = if s.pc.disposed then 1 else 0

/-- Every step counts right. -/
theorem DisposedOnce.step {seen : List CallId} (hw : WellFormed s) (h : step s a = some t)
    (hs : DisposedOnce s seen) : DisposedOnce t (seen ++ disposes s a) := by
  unfold DisposedOnce at hs ⊢
  rw [List.length_append, hs]
  rcases step_cases hw h with ⟨c, pc, effect, pc', -, -, rfl, ha⟩ | hmove
  · rcases ha with ⟨rfl, -⟩ | ⟨-, op, rfl, -⟩ <;> simp [disposes]
  · cases hmove with
    | receiveAssign hpc => split_ifs <;> simp_all [disposes, ManagerPc.disposed]
    | tick hpc => split_ifs <;> simp_all [disposes, ManagerPc.disposed]
    | retire hpc _ _ hpc' => rcases hpc' with rfl | rfl <;> simp [hpc, disposes, ManagerPc.disposed]
    | haltTake hpc hpc' => rcases hpc' with rfl | rfl <;> simp [hpc, disposes, ManagerPc.disposed]
    | _ => simp_all [disposes, ManagerPc.disposed]

/-- A call of `shutdown` on a pool that has just been spawned has not returned. -/
theorem Init.halting (hs : Init s) : Halting s ∧ ReturnsHalted s ∧ DisposedOnce s [] := by
  obtain ⟨config, lanes, runtime, inst, instanceConfig, env, hconfig, hlanes, rfl⟩ := hs
  exact ⟨⟨by simp [spawn, ManagerPc.disposed], by simp [spawn]⟩,
    fun c result hdone => by simp [spawn] at hdone, rfl⟩

/-- The length of what is seen along a list of actions, whether or not all of them are enabled. -/
theorem length_disposes_le (hw : WellFormed s) {seen : List CallId} (hs : DisposedOnce s seen)
    (as : List Action) : (seen ++ observed step disposes s as).length ≤ 1 := by
  induction as generalizing s seen with
  | nil =>
    rw [observed, List.append_nil, hs]
    split_ifs <;> omega
  | cons a as ih =>
    rw [observed]
    cases h : Torlane.step s a with
    -- The list of actions ends with the first one that is not enabled.
    | none =>
      rw [List.append_nil, hs]
      split_ifs <;> omega
    | some t =>
      rw [← List.append_assoc]
      exact ih (hw.step h) (hs.step hw h)

/-- In every run of a pool, the manager shuts its instance down at most once. No call of `shutdown`
returns before the manager has halted and holds no instance, if and only if no call finds the join
handle taken while the manager is running. -/
theorem shutdown_run (hs : Init s) (as : List Action) :
    (observed step disposes s as).length ≤ 1 ∧
      (Always step ReturnsHalted s as ↔ Along step joinsOrHalted s as) := by
  obtain ⟨hhalting, hreturns, honce⟩ := hs.halting
  refine ⟨length_disposes_le hs.wellFormed honce as, fun h => ?_, fun h => ?_⟩
  · exact h.along (J := WellFormed) (fun _ _ _ h hw => hw.step h)
      (fun _ _ _ _ h hG => not_returnsHalted h hG) (fun _ _ => joinsOrHalted_of_disabled)
      hs.wellFormed
  · exact h.always (I := fun s => WellFormed s ∧ Halting s ∧ ReturnsHalted s)
      (fun _ _ _ hG h ⟨hw, hh, hr⟩ => ⟨hw.step h, hh.step hw h, hr.step hw hh h hG⟩)
      (fun _ hI => hI.2.2) ⟨hs.wellFormed, hhalting, hreturns⟩

/-- Two calls of `shutdown` on the pool of two lanes, the second of which takes the join handle. -/
theorem shutdown_run_twoLanes :
    Always step ReturnsHalted twoLanePool
      [.start 0 .shutdown, .advance 0, .start 1 .shutdown, .advance 1] := by
  refine (shutdown_run twoLanePool_init _).2.mpr ⟨trivial, ?_⟩
  rintro _ ⟨⟩
  refine ⟨by rintro _ ⟨⟩, ?_⟩
  rintro _ ⟨⟩
  refine ⟨trivial, ?_⟩
  rintro _ ⟨⟩
  refine ⟨?_, fun _ _ => trivial⟩
  rintro _ - ⟨⟩

/-- Three calls of `shutdown`: the first one sends the command, the second one takes the join
handle, and the third one finds none and returns. The command is still in the queue, and the
manager is idle and holds its instance. -/
theorem third_shutdown_returns :
    Init twoLanePool ∧
    ∃ t, run step twoLanePool
        [.start 0 .shutdown, .advance 0, .start 1 .shutdown, .advance 1, .start 2 .shutdown,
          .advance 2] = some t ∧
      t.calls 2 = .done (.shutdown (.ok ())) ∧ t.pc = .idle ∧ t.mgr.inst.isSome ∧
      t.queue = [.shutdown 0] :=
  ⟨twoLanePool_init, _, rfl, rfl, rfl, rfl, rfl⟩

end Torlane
