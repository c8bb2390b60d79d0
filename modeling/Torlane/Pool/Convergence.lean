import Mathlib.Data.List.Sort
import Torlane.Pool.Epochs

/-!
# Convergence

Clients write lists that are out of date, and the manager computes the list in one step and writes
it in another. What repairs both is that a client that has written still has its rotation to send,
and that the manager computes the list anew after each rotation. So the list that the manager has
written or is about to write is the right one, unless a rotation is outstanding (`Settled`). In
the same way a ready lane is marked unavailable only as long as something is outstanding that
takes the mark back (`Unstuck`). Both hold as long as the receiver of the commands is there, and
so in every state in which no shutdown has been requested.
-/

namespace Torlane

open Transition

variable {s t : State} {a : Action}

/-! ## Marked lanes -/

/-- The manager's next step takes the lane's mark back, or puts the lane out of the ready state. -/
def ManagerPc.repairs : ManagerPc → LaneId → Prop
  | .unmark lane _, id => lane = id
  | .retire _ _, _ => True
  | .renewUnmark _ lane _, id => lane = id
  | _, _ => False

/-- A ready lane that is marked unavailable has a rotation outstanding, or the manager is about to
repair it. -/
def Unstuck (s : State) : Prop :=
  ∀ lane ∈ s.mgr.lanes, lane.state = .ready → lane.id ∈ s.mgr.unavailable →
    s.Outstanding lane.id ∨ s.pc.repairs lane.id

/-- A move of a call leaves no lane stuck. -/
theorem Unstuck.call {c : CallId} {effect : Effect} {pc' : CallPc} (hw : WellFormed s)
    (halive : s.receiverDropped = false) (hs : Unstuck s)
    (hmove : CallMove s c (s.calls c) effect pc') : Unstuck ((s.apply effect).setCall c pc') := by
  intro lane hmem hready hunavailable
  have hbefore (h : lane.id ∈ s.mgr.unavailable) :
      ((s.apply effect).setCall c pc').Outstanding lane.id ∨ s.pc.repairs lane.id :=
    (hs lane (by simpa using hmem) hready h).imp_left fun hout => hout.call halive hmove
  rw [State.setCall_pc, State.apply_pc]
  cases effect with
  | mark other =>
    rcases Finset.mem_insert.mp hunavailable with heq | h
    · obtain ⟨snapshot, wait, -, rfl⟩ := hmove.marks
      exact .inl (.inr ⟨c, by simp [State.setCall_calls, CallPc.marked, heq]⟩)
    · exact hbefore h
  | unmark other => exact absurd hmove (CallMove.not_unmark hw halive)
  | _ => exact hbefore hunavailable

/-- A move of the manager leaves no lane stuck. -/
theorem Unstuck.manager (hs : Unstuck s) (hmove : ManagerMove s a t)
    (halive : t.receiverDropped = false) : Unstuck t := by
  intro lane' hmem hready hunavailable
  -- A lane that was ready and marked before, with a rotation outstanding that the move does not
  -- take off the queue.
  have hkeep {lane : Lane} (hlane : lane ∈ s.mgr.lanes) (hid : lane.id = lane'.id)
      (hbefore : lane.state = .ready) (hmark : lane'.id ∈ s.mgr.unavailable)
      (hrepairs : ¬ s.pc.repairs lane'.id)
      (hqueue : ∀ response, s.queue ≠ .rotate lane'.id response :: t.queue) :
      t.Outstanding lane'.id := by
    have hout := (hs lane hlane hbefore (hid ▸ hmark)).resolve_right (hid ▸ hrepairs)
    rcases (hid ▸ hout).manager hmove with hout | ⟨response, hqueue'⟩ | hdropped
    · exact hout
    · exact absurd hqueue' (hqueue response)
    · simp [hdropped] at halive
  cases hmove with
  -- Where the move may make a lane ready, it was ready before, or the move is a rotation of it.
  | receiveAssign hpc hqueue _ hmoves =>
    obtain ⟨lane, hlane, hmove⟩ := hmoves.of_mem hmem
    have hbefore := (hmove.ready_before hready).resolve_right (by simp)
    exact .inl (hkeep hlane hmove.id_eq.symm hbefore hunavailable
      (by simp [hpc, ManagerPc.repairs]) (by simp [hqueue]))
  | tick hpc _ hmoves =>
    obtain ⟨lane, hlane, hmove⟩ := hmoves.of_mem hmem
    have hbefore := (hmove.ready_before hready).resolve_right (by simp)
    exact .inl (hkeep hlane hmove.id_eq.symm hbefore hunavailable
      (by simp [hpc, ManagerPc.repairs]) (by simp))
  | @receiveRotate _ id _ _ _ hpc hqueue hmoves =>
    by_cases hid : lane'.id = id
    -- The rotated lane is marked until the next step.
    · exact .inr hid.symm
    · exact .inl (hkeep (hmoves.mem_of_ne hmem hid) rfl hready hunavailable
        (by simp [hpc, ManagerPc.repairs]) (by simp [hqueue, Ne.symm hid]))
  | @receiveRotateError _ id _ _ _ _ hpc hqueue hmoves hfailed =>
    have hid : lane'.id ≠ id := fun hid => hfailed lane' hmem hid hready
    exact .inl (hkeep (hmoves.mem_of_ne hmem hid) rfl hready hunavailable
      (by simp [hpc, ManagerPc.repairs]) (by simp [hqueue, Ne.symm hid]))
  | receiveRestart hpc hqueue =>
    exact .inl (hkeep hmem rfl hready hunavailable (by simp [hpc, ManagerPc.repairs])
      (by simp [hqueue]))
  | refuseRestart hpc hqueue =>
    exact .inl (hkeep hmem rfl hready hunavailable (by simp [hpc, ManagerPc.repairs])
      (by simp [hqueue]))
  | receiveShutdown hpc hqueue =>
    exact .inl (hkeep hmem rfl hready hunavailable (by simp [hpc, ManagerPc.repairs])
      (by simp [hqueue]))
  | unmark hpc =>
    obtain ⟨hne, hunavailable⟩ := Finset.mem_erase.mp hunavailable
    exact .inl (hkeep hmem rfl hready hunavailable (by simp [hpc, ManagerPc.repairs, Ne.symm hne])
      (by simp))
  | renewUnmark hpc =>
    obtain ⟨hne, hunavailable⟩ := Finset.mem_erase.mp hunavailable
    exact .inl (hkeep hmem rfl hready hunavailable (by simp [hpc, ManagerPc.repairs, Ne.symm hne])
      (by simp))
  | mark => exact .inr trivial
  | retire _ _ hnone => exact absurd hready (hnone lane' hmem)
  | startError _ _ hnone => exact absurd hready (hnone lane' hmem)
  | @renew _ _ id _ _ hpc hmoves =>
    by_cases hid : lane'.id = id
    · exact .inr hid.symm
    · exact .inl (hkeep (hmoves.mem_of_ne hmem hid) rfl hready hunavailable
        (by simp [hpc, ManagerPc.repairs]) (by simp))
  | @renewError _ _ id _ _ hpc hmoves hfailed =>
    have hid : lane'.id ≠ id := fun hid => hfailed lane' hmem hid hready
    exact .inl (hkeep (hmoves.mem_of_ne hmem hid) rfl hready hunavailable
      (by simp [hpc, ManagerPc.repairs]) (by simp))
  | exiting => simp [State.receiverDropped] at halive
  | _ =>
    rename_i hpc
    exact .inl (hkeep hmem rfl hready hunavailable (by simp [*, ManagerPc.repairs]) (by simp))

/-! ## The published list -/

/-- The manager has published, and has not yet gone on to change anything. -/
def ManagerPc.published : ManagerPc → Bool
  | .idle => true
  | .respond _ _ => true
  | _ => false

/-- `restart` has cleared the ready list, and has not yet got a new instance. -/
def ManagerPc.cleared : ManagerPc → Bool
  | .mark _ _ => true
  | .retire _ _ => true
  | .stop _ _ => true
  | .start _ _ => true
  | _ => false

/-- Some rotation is outstanding. -/
def State.Unfinished (s : State) : Prop := ∃ lane, s.Outstanding lane

/-- What the manager has written, or is about to write, is what there is to publish, unless a
rotation is outstanding. -/
structure Settled (s : State) : Prop where
  published : s.pc.published = true →
    s.mgr.ready = readyLanes s.mgr.lanes s.mgr.unavailable ∨ s.Unfinished
  writing : ∀ ready job result, s.pc = .write ready job result →
    ready = readyLanes s.mgr.lanes s.mgr.unavailable ∨ s.Unfinished
  cleared : s.pc.cleared = true → s.mgr.ready = [] ∨ s.Unfinished

/-- A call leaves what is published and what is marked as it is, or it has a rotation
outstanding. -/
theorem CallMove.quiet {c : CallId} {effect : Effect} {pc' : CallPc} (hw : WellFormed s)
    (halive : s.receiverDropped = false) (hmove : CallMove s c (s.calls c) effect pc') :
    ((s.apply effect).mgr.ready = s.mgr.ready ∧
        (s.apply effect).mgr.unavailable = s.mgr.unavailable) ∨
      ((s.apply effect).setCall c pc').Unfinished := by
  cases effect with
  | mark lane =>
    obtain ⟨snapshot, wait, -, rfl⟩ := hmove.marks
    exact .inr ⟨lane, .inr ⟨c, by simp [State.setCall_calls, CallPc.marked]⟩⟩
  | write ready =>
    obtain ⟨lane, snapshot, wait, -, rfl, -⟩ := hmove.writes
    exact .inr ⟨lane, .inr ⟨c, by simp [State.setCall_calls, CallPc.marked]⟩⟩
  | unmark lane => exact absurd hmove (CallMove.not_unmark hw halive)
  | _ => exact .inl ⟨rfl, rfl⟩

/-- A move of a call keeps the list settled. -/
theorem Settled.call {c : CallId} {effect : Effect} {pc' : CallPc} (hw : WellFormed s)
    (halive : s.receiverDropped = false) (hs : Settled s)
    (hmove : CallMove s c (s.calls c) effect pc') : Settled ((s.apply effect).setCall c pc') := by
  have hunfinished : s.Unfinished → ((s.apply effect).setCall c pc').Unfinished :=
    fun ⟨lane, hout⟩ => ⟨lane, hout.call halive hmove⟩
  rcases hmove.quiet hw halive with ⟨hready, hunavailable⟩ | hout
  · refine ⟨fun h => ?_, fun ready job result hpc => ?_, fun h => ?_⟩
    · rw [State.setCall_mgr, hready, hunavailable, State.apply_lanes]
      exact (hs.published (by simpa using h)).imp_right hunfinished
    · rw [State.setCall_mgr, hunavailable, State.apply_lanes]
      exact (hs.writing ready job result (by simpa using hpc)).imp_right hunfinished
    · rw [State.setCall_mgr, hready]
      exact (hs.cleared (by simpa using h)).imp_right hunfinished
  · exact ⟨fun _ => .inr hout, fun _ _ _ _ => .inr hout, fun _ => .inr hout⟩

/-- A move of the manager that takes no rotation off the queue leaves a rotation outstanding if one
was. -/
theorem State.Unfinished.manager (h : s.Unfinished) (hmove : ManagerMove s a t)
    (halive : t.receiverDropped = false)
    (hqueue : ∀ lane response, s.queue ≠ .rotate lane response :: t.queue) : t.Unfinished := by
  obtain ⟨lane, hout⟩ := h
  rcases hout.manager hmove with hout | ⟨response, hqueue'⟩ | hdropped
  · exact ⟨lane, hout⟩
  · exact absurd hqueue' (hqueue lane response)
  · simp [hdropped] at halive

/-- Without a ready lane, there is nothing to publish. -/
theorem readyLanes_eq_nil {lanes : List Lane} {unavailable : Finset LaneId}
    (h : ∀ lane ∈ lanes, lane.state ≠ .ready) : readyLanes lanes unavailable = [] := by
  rw [readyLanes, List.map_eq_nil_iff, List.filter_eq_nil_iff]
  exact fun lane hlane hready => h lane hlane (by simp_all)

/-- A move of the manager keeps the list settled. -/
theorem Settled.manager (hw : WellFormed s) (ha : AtRuntime s) (hs : Settled s)
    (hmove : ManagerMove s a t) (halive : t.receiverDropped = false) : Settled t := by
  have hunfinished := fun h : s.Unfinished => h.manager hmove halive
  refine ⟨fun h => ?_, fun ready job result hpc => ?_, fun h => ?_⟩
  · have hidle (hpc : s.pc = .idle) := hs.published (by rw [hpc]; rfl)
    cases hmove with
    | @receiveAssign _ _ _ _ _ publish hpc hqueue heq =>
      cases publish with
      | true => simp [ManagerPc.published] at h
      -- A command that does not publish has changed nothing that is published.
      | false =>
        have hquiet := ManagerState.assignLanes_quiet hw.numbered heq s.mgr.unavailable
        exact (hidle hpc).imp (·.trans hquiet.symm) fun h => hunfinished h (by simp [hqueue])
    | @tick _ _ _ publish hpc heq =>
      cases publish with
      | true => simp [ManagerPc.published] at h
      | false =>
        rw [ManagerState.expireLanes_quiet heq]
        exact (hidle hpc).imp_right fun h => hunfinished h (by simp)
    | refuseRestart hpc hqueue =>
      exact (hidle hpc).imp_right fun h => hunfinished h (by simp [hqueue])
    | write hpc =>
      exact (hs.writing _ _ _ hpc).imp_right fun h => hunfinished h (by simp)
    | respond hpc =>
      exact (hs.published (by rw [hpc]; rfl)).imp_right fun h => hunfinished h (by simp)
    -- `restart` returns without publishing: no lane is ready, and the list is the empty one.
    | stopError hpc =>
      have hnone := ha.waiting (by rw [hpc]; rfl)
      exact (hs.cleared (by rw [hpc]; rfl)).imp (·.trans (readyLanes_eq_nil hnone).symm)
        fun h => hunfinished h (by simp)
    | retire _ _ _ hpc' => rcases hpc' with rfl | rfl <;> simp [ManagerPc.published] at h
    | haltTake _ hpc' => rcases hpc' with rfl | rfl <;> simp [ManagerPc.published] at h
    | _ => simp [ManagerPc.published] at h
  · obtain ⟨-, rfl, rfl⟩ := hmove.writing hpc
    exact .inl rfl
  · cases hmove with
    | clear => exact .inl rfl
    | mark hpc => exact (hs.cleared (by rw [hpc]; rfl)).imp_right fun h => hunfinished h (by simp)
    | retire hpc => exact (hs.cleared (by rw [hpc]; rfl)).imp_right fun h => hunfinished h (by simp)
    | stop hpc => exact (hs.cleared (by rw [hpc]; rfl)).imp_right fun h => hunfinished h (by simp)
    | receiveAssign => split_ifs at h <;> simp [ManagerPc.cleared] at h
    | tick => split_ifs at h <;> simp [ManagerPc.cleared] at h
    | haltTake _ hpc' => rcases hpc' with rfl | rfl <;> simp [ManagerPc.cleared] at h
    | _ => simp [ManagerPc.cleared] at h

/-! ## Open pools -/

/-- The manager is processing a shutdown, or has processed one. -/
def ManagerPc.halting : ManagerPc → Bool
  | .haltClear _ => true
  | .haltTake _ => true
  | .haltStop _ => true
  | .haltRespond _ _ => true
  | .exiting => true
  | .finished => true
  | _ => false

/-- Whatever belongs to a shutdown comes after the pool has been closed. -/
structure ClosedFirst (s : State) : Prop where
  calls : ∀ c, s.calls c = .shutdownSend → s.closed = true
  queue : ∀ call, .shutdown call ∈ s.queue → s.closed = true
  halting : s.pc.halting = true → s.closed = true

/-- A pool stays closed. -/
theorem closed_of_closed (hw : WellFormed s) (h : step s a = some t) (hclosed : s.closed = true) :
    t.closed = true := by
  rcases step_cases hw h with ⟨c, pc, effect, pc', -, -, rfl, -⟩ | hmove
  · cases effect <;> simp [State.apply, hclosed]
  · cases hmove <;> exact hclosed

/-- Every step keeps the order. -/
theorem ClosedFirst.step (hw : WellFormed s) (hs : ClosedFirst s) (h : step s a = some t) :
    ClosedFirst t := by
  have hclosed := closed_of_closed hw h
  rcases step_cases hw h with ⟨c, pc, effect, pc', rfl, hmove, rfl, -⟩ | hmove
  · refine ⟨fun c' hpc => ?_, fun call hmem => ?_, fun h => hclosed (hs.halting (by simpa using h))⟩
    · rw [State.setCall_calls] at hpc
      split_ifs at hpc
      · subst hpc
        generalize s.calls c = pc at hmove
        cases hmove
        rfl
      · exact hclosed (hs.calls c' (by simpa using hpc))
    · rcases State.mem_apply_queue.mp hmem with hmem | rfl
      · exact hclosed (hs.queue call hmem)
      · generalize hpc : s.calls c = pc at hmove
        cases hmove
        exact hclosed (hs.calls _ hpc)
  · refine ⟨fun c hpc => ?_, fun call hmem => hclosed (hs.queue call (hmove.queue hmem)),
      fun hhalting => hclosed ?_⟩
    · rcases hmove.calls c with heq | ⟨_, hanswered⟩
      · exact hclosed (hs.calls c (heq ▸ hpc))
      · generalize s.calls c = pc at hanswered
        rw [hpc] at hanswered
        cases hanswered
    · cases hmove with
      | receiveShutdown _ hqueue => exact hs.queue _ (by rw [hqueue]; exact List.mem_cons_self)
      | receiveAssign => split_ifs at hhalting <;> simp [ManagerPc.halting] at hhalting
      | tick => split_ifs at hhalting <;> simp [ManagerPc.halting] at hhalting
      | retire _ _ _ hpc' => rcases hpc' with rfl | rfl <;> simp [ManagerPc.halting] at hhalting
      | haltClear hpc => exact hs.halting (by rw [hpc]; rfl)
      | haltTake hpc => exact hs.halting (by rw [hpc]; rfl)
      | haltStop hpc => exact hs.halting (by rw [hpc]; rfl)
      | haltRespond hpc => exact hs.halting (by rw [hpc]; rfl)
      | exiting hpc => exact hs.halting (by rw [hpc]; rfl)
      | _ => simp [ManagerPc.halting] at hhalting

/-- The receiver is there as long as the pool is open. -/
theorem ClosedFirst.alive (hs : ClosedFirst s) (hopen : s.closed = false) :
    s.receiverDropped = false := by
  cases hpc : s.pc with
  | finished => simp [hs.halting (by rw [hpc]; rfl)] at hopen
  | _ => simp [State.receiverDropped, hpc]

/-- What holds in every state of every run. -/
structure Converging (s : State) : Prop where
  wellFormed : WellFormed s
  atRuntime : AtRuntime s
  closedFirst : ClosedFirst s
  settled : s.receiverDropped = false → Unstuck s ∧ Settled s

/-- Every step keeps the pool converging. -/
theorem Converging.step (hs : Converging s) (h : step s a = some t) : Converging t := by
  obtain ⟨hw, ha, hc, hsettled⟩ := hs
  refine ⟨hw.step h, ha.step hw h, hc.step hw h, fun halive => ?_⟩
  rcases step_cases hw h with ⟨c, pc, effect, pc', rfl, hmove, rfl, -⟩ | hmove
  · have halive : s.receiverDropped = false := by simpa using halive
    exact ⟨(hsettled halive).1.call hw halive hmove, (hsettled halive).2.call hw halive hmove⟩
  · exact ⟨(hsettled hmove.alive).1.manager hmove halive,
      (hsettled hmove.alive).2.manager hw ha hmove halive⟩

/-- A pool that has just been spawned has published all its lanes, and marked none. -/
theorem Init.converging (hs : Init s) : Converging s := by
  refine ⟨hs.wellFormed, hs.atRuntime, ?_, fun _ => ?_⟩
  all_goals
    obtain ⟨config, lanes, runtime, inst, instanceConfig, env, hconfig, hlanes, rfl⟩ := hs
  · exact ⟨by simp [spawn], by simp [spawn], by simp [spawn, ManagerPc.halting]⟩
  · exact ⟨by simp [Unstuck, spawn], fun _ => .inl rfl, by simp [spawn],
      by simp [spawn, ManagerPc.cleared]⟩

/-- In every state that an open pool reaches: a ready lane that is marked unavailable has a
rotation in the queue, or a call between its mark and its send, or the manager is about to repair
it in a rotation or in a restart. When the queue is empty, no call is inside `queue_rotation`, and
the manager is idle, then the current endpoints of the ready lanes are published, in ascending
order of their lanes, and no ready lane is marked. -/
theorem converges_run (hs : Init s) (h : Reaches step anyStep s t) (hopen : t.closed = false) :
    (∀ lane ∈ t.mgr.lanes, lane.state = .ready → lane.id ∈ t.mgr.unavailable →
      ((∃ response, .rotate lane.id response ∈ t.queue) ∨
        ∃ c, (t.calls c).marked = some lane.id) ∨ t.pc.repairs lane.id) ∧
    (t.queue = [] → (∀ c, (t.calls c).rotates = none) → t.pc = .idle →
      t.mgr.ready = (t.mgr.lanes.filter (·.state = .ready)).map (·.endpoint) ∧
      (t.mgr.ready.Pairwise fun endpoint endpoint' => endpoint.lane.val < endpoint'.lane.val) ∧
      ∀ lane ∈ t.mgr.lanes, lane.state = .ready → lane.id ∉ t.mgr.unavailable) := by
  have ht : Converging t := h.invariant (fun _ _ _ _ hstep ht => ht.step hstep) hs.converging
  obtain ⟨hunstuck, hsettled⟩ := ht.settled (ht.closedFirst.alive hopen)
  refine ⟨hunstuck, fun hqueue hcalls hpc => ?_⟩
  -- With an empty queue and no call inside `queue_rotation`, nothing is outstanding.
  have hnone : ∀ id, ¬ t.Outstanding id := by
    rintro id (⟨response, hmem⟩ | ⟨c, hmarked⟩)
    · simp [hqueue] at hmem
    · have hrotates := hcalls c
      simp [CallPc.rotates_of_marked hmarked] at hrotates
  have hunmarked : ∀ lane ∈ t.mgr.lanes, lane.state = .ready → lane.id ∉ t.mgr.unavailable := by
    intro lane hlane hready hmem
    rcases hunstuck lane hlane hready hmem with hout | hrepairs
    · exact hnone lane.id hout
    · simp [hpc, ManagerPc.repairs] at hrepairs
  have hready : t.mgr.ready = readyLanes t.mgr.lanes t.mgr.unavailable :=
    (hsettled.published (by rw [hpc]; rfl)).resolve_right fun ⟨id, hout⟩ => hnone id hout
  refine ⟨?_, hready ▸ pairwise_readyLanes ht.wellFormed.numbered _, hunmarked⟩
  rw [hready, readyLanes]
  congr 1
  refine List.filter_congr fun lane hlane => ?_
  simpa using hunmarked lane hlane

/-- Two rotations that interfere, and the manager's processing of both. -/
def twoRotations : List Action :=
  [.start 0 (.rotate ⟨0⟩ false), .advance 0, .start 1 (.rotate ⟨1⟩ false), .advance 1, .advance 1,
    .advance 1, .advance 1, .advance 0, .advance 0, .advance 0, .receive twoLaneEnv,
    .work twoLaneEnv, .work twoLaneEnv, .work twoLaneEnv, .work twoLaneEnv, .receive twoLaneEnv,
    .work twoLaneEnv, .work twoLaneEnv, .work twoLaneEnv, .work twoLaneEnv]

/-- The pool of two lanes has converged after the two rotations. -/
theorem converges_run_twoLanes :
    ∃ t, run step twoLanePool twoRotations = some t ∧
      t.mgr.ready.map (fun endpoint => (endpoint.lane, endpoint.epoch)) = [(⟨0⟩, 2), (⟨1⟩, 2)] ∧
      t.mgr.ready = (t.mgr.lanes.filter (·.state = .ready)).map (·.endpoint) := by
  have hrun : run step twoLanePool twoRotations = some _ := rfl
  refine ⟨_, hrun, by decide, ?_⟩
  refine ((converges_run twoLanePool_init (reaches_of_run hrun) rfl).2 rfl ?_ rfl).1
  intro c
  match c with
  | 0 => rfl
  | 1 => rfl
  | c + 2 => rfl

end Torlane
