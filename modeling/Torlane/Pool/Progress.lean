import Torlane.Pool.Convergence
import Torlane.Pool.Responses
import Torlane.Pool.Shutdown
import Torlane.Pool.Work

/-!
# Progress

No call of a pool waits forever. A run is no longer than the work of its calls and of its ticks,
however its steps are interleaved. And when nothing is left to do, nobody waits: a call that waits
for a response is owed it by the queue or by the manager, and a call that waits for the manager's
end has its shutdown on the way (`Progressing`). `pool_settles` puts the two together.
-/

namespace Torlane

open Transition

variable {s t : State} {a : Action}

/-! ## Nobody waits in vain -/

/-- The call is one of `shutdown` that has closed the pool. -/
def CallPc.shutting : CallPc → Bool
  | .shutdownSend => true
  | .shutdownWait => true
  | .shutdownJoin _ => true
  | .shutdownAwait _ => true
  | _ => false

/-- The shutdown of the pool is on its way: a call is about to send the command, or it is in the
queue, or the manager is processing it, or has done so. -/
def State.ShutdownUnderWay (s : State) : Prop :=
  (∃ c, s.calls c = .shutdownSend) ∨ (∃ c, .shutdown c ∈ s.queue) ∨ s.pc.halting = true

/-- What every waiting call waits for is on its way. -/
structure Progressing (s : State) : Prop where
  owed : ∀ c, (s.calls c).waiting = true → s.receiverDropped = true ∨ (c, s.calls c) ∈ s.owed
  closed : s.closed = true → s.ShutdownUnderWay
  shutting : ∀ c, (s.calls c).shutting = true → s.closed = true
  /-- The snapshot that `next` counts on is not empty. -/
  counting : ∀ c ready, s.calls c = .nextCount ready → ready ≠ []

/-- A move of a call takes nothing from what is owed. -/
theorem State.owed_subset {c : CallId} {effect : Effect} {pc' : CallPc} {p : CallId × CallPc}
    (hmem : p ∈ s.owed) : p ∈ ((s.apply effect).setCall c pc').owed := by
  cases effect with
  | send command =>
    have howed : ((s.apply (.send command)).setCall c pc').owed =
        s.owed ++ command.owed.toList := by
      cases hcommand : command.owed <;> simp [State.owed, State.apply, State.setCall, hcommand]
    rw [howed]
    exact List.mem_append_left _ hmem
  | _ => exact hmem

/-- A call that comes to wait is owed the response to the command that it has sent. -/
theorem CallMove.owed_of_waiting {c : CallId} {pc pc' : CallPc} {effect : Effect}
    (hmove : CallMove s c pc effect pc') (hwaiting : pc'.waiting = true) :
    (c, pc') ∈ ((s.apply effect).setCall c pc').owed := by
  cases hmove with
  | rotateSend => simp [State.owed, State.apply, State.setCall, ManagerCommand.owed, Job.owed]
  | restartSend => simp [State.owed, State.apply, State.setCall, ManagerCommand.owed, Job.owed]
  | shutdownSend => simp [State.owed, State.apply, State.setCall, ManagerCommand.owed]
  | _ => cases hwaiting

/-- The manager is about to give the response. -/
def ManagerPc.gives : ManagerPc → Option (CallId × CallPc)
  | .respond job _ => job.owed
  | .haltRespond call _ => some (call, .shutdownWait)
  | _ => none

/-- What is owed before a move of the manager is owed after it, unless the move gives the response,
or drops the receiver. -/
theorem ManagerMove.owed_cases {p : CallId × CallPc} (hmove : ManagerMove s a t)
    (hmem : p ∈ s.owed) : p ∈ t.owed ∨ t.receiverDropped = true ∨ s.pc.gives = some p := by
  have hgives (hgives : s.pc.owed = s.pc.gives) (hqueue : t.queue = s.queue) :
      p ∈ t.owed ∨ t.receiverDropped = true ∨ s.pc.gives = some p := by
    rcases List.mem_append.mp hmem with howed | howed
    · exact .inr (.inr (hgives ▸ Option.mem_toList.mp howed))
    · exact .inl (List.mem_append_right _ (hqueue ▸ howed))
  cases hmove with
  | respond hpc => exact hgives (by rw [hpc]; rfl) rfl
  | haltRespond hpc => exact hgives (by rw [hpc]; rfl) rfl
  | exiting => exact .inr (.inl rfl)
  | @receiveAssign _ _ _ _ _ publish hpc hqueue =>
    rw [State.owed_of_idle hpc hqueue] at hmem
    cases publish <;> exact .inl hmem
  | receiveRotate hpc hqueue => rw [State.owed_of_idle hpc hqueue] at hmem; exact .inl hmem
  | receiveRotateError hpc hqueue => rw [State.owed_of_idle hpc hqueue] at hmem; exact .inl hmem
  | receiveRestart hpc hqueue => rw [State.owed_of_idle hpc hqueue] at hmem; exact .inl hmem
  | refuseRestart hpc hqueue => rw [State.owed_of_idle hpc hqueue] at hmem; exact .inl hmem
  | receiveShutdown hpc hqueue => rw [State.owed_of_idle hpc hqueue] at hmem; exact .inl hmem
  | @tick _ _ _ publish hpc =>
    rw [State.owed, hpc] at hmem
    cases publish <;> exact .inl hmem
  | retire hpc _ _ hpc' =>
    rw [State.owed, hpc] at hmem
    rcases hpc' with rfl | rfl <;> exact .inl hmem
  | haltTake hpc hpc' =>
    rw [State.owed, hpc] at hmem
    rcases hpc' with rfl | rfl <;> exact .inl hmem
  | renew hpc => rw [State.owed, hpc] at hmem; exact .inl hmem
  | renewError hpc => rw [State.owed, hpc] at hmem; exact .inl hmem
  | startError hpc => rw [State.owed, hpc] at hmem; exact .inl hmem
  | _ =>
    rename_i hpc
    rw [State.owed, hpc] at hmem
    exact .inl hmem

/-- The response moves the call that waits for it. -/
theorem deliver_moves {c : CallId} {result : Except Error Unit}
    (hwaiting : (s.calls c).waiting = true) :
    ((s.deliver (some c) result).calls c).waiting = false := by
  cases hpc : s.calls c <;> simp only [hpc, CallPc.waiting] at hwaiting <;>
    first
      | contradiction
      | simp [State.deliver, hpc, State.setCall_calls, CallPc.waiting]

/-- When the manager has given a response, its call does not wait any more. -/
theorem not_waiting_of_gives {p : CallId × CallPc} (hmove : ManagerMove s a t)
    (h : step s a = some t) (hgives : s.pc.gives = some p)
    (hwaiting : (s.calls p.1).waiting = true) : (t.calls p.1).waiting = false := by
  cases hpc : s.pc with
  | respond job result =>
    have howed : job.owed = some p := by simpa [hpc, ManagerPc.gives] using hgives
    have hresponse : job.response = some p.1 := by rw [job.response_eq, howed]; rfl
    obtain ⟨env, rfl⟩ : ∃ env, a = .work env := by
      cases hmove <;> simp_all
    obtain rfl : { s.deliver job.response result with pc := .idle } = t := by
      simpa [Torlane.step, work, hpc] using h
    rw [hresponse]
    exact deliver_moves hwaiting
  | haltRespond call result =>
    obtain rfl : (call, .shutdownWait) = p := by simpa [hpc, ManagerPc.gives] using hgives
    obtain ⟨env, rfl⟩ : ∃ env, a = .work env := by
      cases hmove <;> simp_all
    obtain rfl : { s.deliver (some call) result with pc := .exiting } = t := by
      simpa [Torlane.step, work, hpc] using h
    exact deliver_moves hwaiting
  | _ => simp [hpc, ManagerPc.gives] at hgives

/-- A response that is owed to a waiting call stays owed, until it is given. -/
theorem Progressing.owed_step (hw : WellFormed s) (hs : Progressing s) (h : step s a = some t)
    (c : CallId) (hwaiting : (t.calls c).waiting = true) :
    t.receiverDropped = true ∨ (c, t.calls c) ∈ t.owed := by
  rcases step_cases hw h with ⟨c', pc, effect, pc', rfl, hmove, rfl, -⟩ | hmove
  · rw [State.setCall_dropped, State.apply_dropped]
    by_cases hc : c = c'
    · subst hc
      have hcall : ((s.apply effect).setCall c pc').calls c = pc' := by
        rw [State.setCall_calls, if_pos rfl]
      rw [hcall] at hwaiting ⊢
      exact .inr (hmove.owed_of_waiting hwaiting)
    · have hcall : ((s.apply effect).setCall c' pc').calls c = s.calls c := by
        rw [State.setCall_calls, if_neg hc, State.apply_calls]
      rw [hcall] at hwaiting ⊢
      exact (hs.owed c hwaiting).imp_right State.owed_subset
  · -- The manager answers a call so that it does not wait any more.
    have hcall : t.calls c = s.calls c := by
      rcases hmove.calls c with heq | ⟨result, hanswered⟩
      · exact heq
      · generalize t.calls c = pc', s.calls c = pc at hanswered hwaiting
        cases hanswered <;> cases hwaiting
    rw [hcall] at hwaiting ⊢
    rcases hs.owed c hwaiting with hdropped | hmem
    · simp [hmove.alive] at hdropped
    · rcases hmove.owed_cases hmem with howed | hdropped | hgives
      · exact .inr howed
      · exact .inl hdropped
      · have hnot := not_waiting_of_gives hmove h hgives hwaiting
        simp [hcall, hwaiting] at hnot

/-- The manager goes on with a shutdown. -/
theorem ManagerMove.halting (hmove : ManagerMove s a t) (hhalting : s.pc.halting = true) :
    t.pc.halting = true := by
  cases hmove with
  | haltTake _ hpc' => rcases hpc' with rfl | rfl <;> rfl
  | _ => simp_all [ManagerPc.halting]

/-- The manager comes to process the shutdown that it takes off the queue. -/
theorem ManagerMove.halting_of_shutdown {call : CallId} (hmove : ManagerMove s a t)
    (hqueue : s.queue = .shutdown call :: t.queue) (hpc : s.pc = .idle) :
    t.pc.halting = true := by
  cases hmove <;> simp_all [ManagerPc.halting]

/-- A shutdown stays under way. -/
theorem State.ShutdownUnderWay.step (hw : WellFormed s) (hs : s.ShutdownUnderWay)
    (h : step s a = some t) : t.ShutdownUnderWay := by
  have hdropped (hdropped : t.receiverDropped = true) : t.pc.halting = true := by
    cases hpc : t.pc <;> simp_all [State.receiverDropped, ManagerPc.halting]
  rcases step_cases hw h with ⟨c, pc, effect, pc', hpc, hmove, rfl, ha⟩ | hmove
  · rcases hs with ⟨c', hsend⟩ | ⟨c', hmem⟩ | hhalting
    · by_cases hc : c' = c
      · subst hc
        -- The call sends the command, or it finds the receiver dropped.
        obtain rfl : pc = .shutdownSend := hpc.symm.trans hsend
        rcases ha with ⟨-, hstep⟩ | ⟨hfresh, -⟩
        · simp only [callStep] at hstep
          split_ifs at hstep with hgone <;> cases hstep
          · exact .inr (.inr (hdropped hgone))
          · exact .inr (.inl ⟨c', by simp [State.apply]⟩)
        · cases hfresh
      · exact .inl ⟨c', by rw [State.setCall_calls, if_neg hc, State.apply_calls, hsend]⟩
    · exact .inr (.inl ⟨c', State.mem_apply_queue.mpr (.inl hmem)⟩)
    · exact .inr (.inr (by simpa using hhalting))
  · rcases hs with ⟨c, hsend⟩ | ⟨c, hmem⟩ | hhalting
    · rcases hmove.calls c with heq | ⟨result, hanswered⟩
      · exact .inl ⟨c, heq.trans hsend⟩
      · rw [hsend] at hanswered
        cases hanswered
    · rcases hmove.queue_cases with heq | ⟨command, heq, hidle⟩ | hgone
      · exact .inr (.inl ⟨c, heq ▸ hmem⟩)
      · rw [heq] at hmem
        rcases List.mem_cons.mp hmem with rfl | hmem
        · exact .inr (.inr (hmove.halting_of_shutdown heq hidle))
        · exact .inr (.inl ⟨c, hmem⟩)
      · exact .inr (.inr (hdropped hgone))
    · exact .inr (.inr (hmove.halting hhalting))

/-- The call that closes the pool goes on to send the command. -/
theorem State.ShutdownUnderWay.of_closes (hw : WellFormed s) (hopen : s.closed = false)
    (h : Torlane.step s a = some t) (hclosed : t.closed = true) : t.ShutdownUnderWay := by
  rcases step_cases hw h with ⟨c, pc, effect, pc', rfl, hmove, rfl, -⟩ | hmove
  · generalize s.calls c = pc at hmove
    cases hmove with
    | startShutdown => exact .inl ⟨c, by rw [State.setCall_calls, if_pos rfl]⟩
    | joinShutdown hclosed' => simp [hopen] at hclosed'
    | _ => simp [State.apply, hopen] at hclosed
  · have heq : t.closed = s.closed := by cases hmove <;> rfl
    simp [heq, hopen] at hclosed

/-- A call comes to shut the pool down by closing it, or by finding it closed. -/
theorem CallMove.shutting {c : CallId} {pc pc' : CallPc} {effect : Effect}
    (hmove : CallMove s c pc effect pc') (hshutting : pc'.shutting = true) :
    pc.shutting = true ∨ effect = .close := by
  cases hmove <;> simp_all [CallPc.shutting]

/-- An answer does not bring a call to shut the pool down. -/
theorem Answered.shutting {result : Except Error Unit} {pc pc' : CallPc}
    (h : Answered result pc pc') (hshutting : pc'.shutting = true) : pc.shutting = true := by
  cases h <;> simp_all [CallPc.shutting]

/-- `next` goes on to count only where the snapshot is not empty. -/
theorem ready_ne_nil_of_counting {c : CallId} {pc : CallPc} {effect : Effect} {ready : ReadyLanes}
    (h : callStep s c pc = some (effect, .nextCount ready)) : ready ≠ [] := by
  have hmove := callMove_of_step h
  cases hmove
  intro hempty
  simp [callStep, hempty] at h

/-- Every step keeps what is waited for on its way. -/
theorem Progressing.step (hw : WellFormed s) (hs : Progressing s) (h : step s a = some t) :
    Progressing t := by
  refine ⟨hs.owed_step hw h, fun hclosed => ?_, fun c hshutting => ?_, fun c ready hpc => ?_⟩
  · cases hbefore : s.closed with
    | true => exact (hs.closed hbefore).step hw h
    | false => exact .of_closes hw hbefore h hclosed
  · rcases step_cases hw h with ⟨c', pc, effect, pc', rfl, hmove, rfl, -⟩ | hmove
    · rw [State.setCall_calls] at hshutting
      split_ifs at hshutting
      · rcases hmove.shutting hshutting with hbefore | rfl
        · exact closed_of_closed hw h (hs.shutting _ hbefore)
        · rfl
      · exact closed_of_closed hw h (hs.shutting c (by simpa using hshutting))
    · refine closed_of_closed hw h (hs.shutting c ?_)
      rcases hmove.calls c with heq | ⟨result, hanswered⟩
      · exact heq ▸ hshutting
      · exact hanswered.shutting hshutting
  · rcases step_cases hw h with ⟨c', pc, effect, pc', rfl, hmove, rfl, ha⟩ | hmove
    · rw [State.setCall_calls] at hpc
      split_ifs at hpc
      · subst hpc
        rcases ha with ⟨-, hstep⟩ | ⟨hfresh, -⟩
        · exact ready_ne_nil_of_counting hstep
        · rw [hfresh] at hmove
          cases hmove
      · exact hs.counting c ready (by simpa using hpc)
    · rcases hmove.calls c with heq | ⟨result, hanswered⟩
      · exact hs.counting c ready (heq ▸ hpc)
      · rw [hpc] at hanswered
        generalize s.calls c = pc at hanswered
        cases hanswered

/-- In a pool that has just been spawned, nobody waits. -/
theorem Init.progressing (hs : Init s) : Progressing s := by
  obtain ⟨config, lanes, runtime, inst, instanceConfig, env, hconfig, hlanes, rfl⟩ := hs
  exact ⟨by simp [spawn, CallPc.waiting], by simp [spawn], by simp [spawn, CallPc.shutting],
    by simp [spawn]⟩

/-! ## Rest -/

/-- The steps that are taken without a new call and without the timer. -/
def Action.ongoing : Action → Prop
  | .start _ _ => False
  | .tick _ => False
  | _ => True

/-- Nobody waits: every call that has been made has returned, the queue is empty, and the manager of
an open pool waits for a command, and the one of a closed pool has ended without an instance. -/
structure AtRest (s : State) : Prop where
  calls : ∀ c, s.calls c = .fresh ∨ ∃ outcome, s.calls c = .done outcome
  queue : s.queue = []
  idle : s.closed = false → s.pc = .idle
  finished : s.closed = true → s.pc = .finished ∧ s.mgr.inst = none

/-- The manager stops only where it waits for a command, and where it has ended. -/
theorem idle_or_finished_of_quiet (hquiet : Quiet step Action.ongoing s) :
    s.pc = .idle ∨ s.pc = .finished := by
  -- Whatever the outside world answers, the manager has no step.
  have hwork : work s twoLaneEnv = none := hquiet (.work twoLaneEnv) trivial
  unfold work at hwork
  cases hpc : s.pc with
  | idle => exact .inl rfl
  | finished => exact .inr rfl
  | renew call ids => cases ids <;> simp [hpc] at hwork
  | stop => simp [hpc, twoLaneEnv] at hwork
  | start => simp [hpc, twoLaneEnv] at hwork
  | _ => simp [hpc] at hwork

/-- Where the manager waits and the queue is empty, no response is owed. -/
theorem State.owed_eq_nil_of_idle (hpc : s.pc = .idle) (hqueue : s.queue = []) : s.owed = [] := by
  rw [State.owed, hpc, hqueue]
  rfl

/-- A state in which no step is enabled but a new call and a tick is one of rest. -/
theorem Progressing.atRest (hw : WellFormed s) (hc : ClosedFirst s) (hh : Halting s)
    (hs : Progressing s) (hquiet : Quiet Torlane.step Action.ongoing s) : AtRest s := by
  have hstuck (c : CallId) : callStep s c (s.calls c) = none := by
    have hnone : Torlane.step s (.advance c) = none := hquiet (.advance c) trivial
    exact Option.map_eq_none_iff.mp hnone
  have hpc := idle_or_finished_of_quiet hquiet
  have hqueue : s.queue = [] := by
    rcases hpc with hidle | hfinished
    · have hreceive := hquiet (.receive twoLaneEnv) trivial
      cases hqueue : s.queue with
      | nil => rfl
      | cons => simp [Torlane.step, hidle, hqueue] at hreceive
    · exact hw.dropped (by rw [State.receiverDropped, hfinished])
  -- A shutdown that is under way has ended.
  have hclosed (hclosed : s.closed = true) : s.pc = .finished := by
    rcases hs.closed hclosed with ⟨c, hsend⟩ | ⟨c, hmem⟩ | hhalting
    · have hsent := hstuck c
      rw [hsend] at hsent
      simp only [callStep] at hsent
      split_ifs at hsent
    · simp [hqueue] at hmem
    · exact hpc.resolve_left fun hidle => by simp [hidle, ManagerPc.halting] at hhalting
  have hdropped (hfinished : s.pc = .finished) : s.receiverDropped = true := by
    rw [State.receiverDropped, hfinished]
  have hwaits (c : CallId) (hwaiting : (s.calls c).waiting = true) : s.receiverDropped = true := by
    rcases hs.owed c hwaiting with hgone | hmem
    · exact hgone
    · rcases hpc with hidle | hfinished
      · simp [State.owed_eq_nil_of_idle hidle hqueue] at hmem
      · exact hdropped hfinished
  refine ⟨fun c => ?_, hqueue, fun hopen => ?_, fun h => ⟨hclosed h, ?_⟩⟩
  · have hnone := hstuck c
    cases hcall : s.calls c with
    | fresh => exact .inl rfl
    | done outcome => exact .inr ⟨outcome, rfl⟩
    | nextCount ready =>
      have hlength := List.length_pos_of_ne_nil (hs.counting c ready hcall)
      have hlt := Nat.mod_lt s.cursor hlength
      simp [hcall, callStep, ReadyLanes.next, List.getElem?_eq_getElem hlt] at hnone
    | rotateWait => simp [hcall, callStep, hwaits c (by rw [hcall]; rfl)] at hnone
    | restartWait => simp [hcall, callStep, hwaits c (by rw [hcall]; rfl)] at hnone
    | shutdownWait => simp [hcall, callStep, hwaits c (by rw [hcall]; rfl)] at hnone
    | shutdownAwait =>
      have hshut := hs.shutting c (by rw [hcall]; rfl)
      simp [hcall, callStep, hdropped (hclosed hshut)] at hnone
    | forKeyRead lane =>
      simp only [hcall, callStep] at hnone
      split at hnone <;> cases hnone
    | _ =>
      simp only [hcall, callStep] at hnone
      (try split_ifs at hnone) <;> cases hnone
  · refine hpc.resolve_right fun hfinished => ?_
    simp [hc.halting (by rw [hfinished]; rfl)] at hopen
  · exact hh.disposed (by rw [hclosed h]; rfl)

/-- What holds in every state of every run. -/
structure Lively (s : State) : Prop where
  wellFormed : WellFormed s
  closedFirst : ClosedFirst s
  halting : Halting s
  progressing : Progressing s

/-- Every step keeps the pool lively. -/
theorem Lively.step (hs : Lively s) (h : step s a = some t) : Lively t := by
  obtain ⟨hw, hc, hh, hp⟩ := hs
  exact ⟨hw.step h, hc.step hw h, hh.step hw h, hp.step hw h⟩

/-- A pool that has just been spawned is lively. -/
theorem Init.lively (hs : Init s) : Lively s :=
  ⟨hs.wellFormed, hs.converging.closedFirst, hs.halting.1, hs.progressing⟩

/-- In every run of a pool, of any calls on clones of it, of the timer, and of the manager, however
their steps are interleaved: the number of the steps is bounded by the number of the calls and the
ticks. When no further step is enabled but a new call and a tick, every call has returned, the queue
is empty, and the manager is idle, or, if the pool has been closed, it has ended without an
instance. And from every state that the run reaches, such a state is reached without a further call
or tick. -/
theorem pool_settles (hs : Init s) {as : List Action} (h : run step s as = some t) :
    as.length ≤ (2 * s.mgr.config.lanes + 17) * (as.filterMap Action.starts).length +
        4 * as.countP Action.isTick ∧
      (Quiet step Action.ongoing t → AtRest t) ∧
      ∃ rest u, (∀ a ∈ rest, a.ongoing) ∧ run step t rest = some u ∧
        Quiet step Action.ongoing u ∧ AtRest u := by
  have hlively (as : List Action) {u : State} (hu : run step s as = some u) : Lively u :=
    (reaches_of_run hu).invariant (fun _ _ _ _ hstep hl => hl.step hstep) hs.lively
  have hrest (as : List Action) {u : State} (hu : run step s as = some u)
      (hquiet : Quiet step Action.ongoing u) : AtRest u := by
    obtain ⟨hw, hc, hh, hp⟩ := hlively as hu
    exact hp.atRest hw hc hh hquiet
  have hpaid := paid_potential (started Action.starts as) s.mgr.config.lanes
  have hpotential : s.potential (started Action.starts as) = 0 := by
    obtain ⟨config, lanes, runtime, inst, instanceConfig, env, hconfig, hlanes, rfl⟩ := hs
    simp [State.potential, State.managerWork, spawn, CallPc.work, ManagerPc.work]
  have hcounted : Counted (started Action.starts as) s.mgr.config.lanes s := by
    refine ⟨hs.wellFormed, rfl, fun c _ => ?_⟩
    obtain ⟨config, lanes, runtime, inst, instanceConfig, env, hconfig, hlanes, rfl⟩ := hs
    rfl
  refine ⟨?_, hrest as h, ?_⟩
  · have hlength := hpaid.length_le (startsIn_started as) hcounted h
    rw [hpotential, sum_credit] at hlength
    have hwork : commandWork s.mgr.config.lanes + 7 = 2 * s.mgr.config.lanes + 17 := rfl
    rw [hwork] at hlength
    omega
  · -- Without calls and ticks, no work is added.
    have hfree : ∀ a, Action.ongoing a →
        StartsIn Action.starts (started Action.starts as) a ∧
          Action.credit s.mgr.config.lanes a = 0 := by
      intro a ha
      cases a <;> first | exact ha.elim | exact ⟨fun _ hc => (by cases hc), rfl⟩
    obtain ⟨rest, u, hA, hu, hrun, hquiet⟩ :=
      hpaid.settles hfree (startsIn_started as) hcounted h
    exact ⟨rest, u, hA, hu, hquiet, hrest (as ++ rest) hrun hquiet⟩

/-- An awaited rotation, and a shutdown that is called before the rotation has been sent. -/
def overtakenRotation : List Action :=
  [.start 0 (.rotate ⟨1⟩ true), .advance 0, .start 1 .shutdown, .advance 1]

/-- The pool of two lanes comes to rest after the two calls, without its instance. -/
theorem pool_settles_overtaken :
    ∃ t rest u, run step twoLanePool overtakenRotation = some t ∧ t.closed = true ∧
      (∀ a ∈ rest, a.ongoing) ∧ run step t rest = some u ∧ Quiet step Action.ongoing u ∧
        AtRest u := by
  have hrun : ∃ t, run step twoLanePool overtakenRotation = some t ∧ t.closed = true :=
    ⟨_, rfl, rfl⟩
  obtain ⟨t, ht, hclosed⟩ := hrun
  obtain ⟨rest, u, hrest⟩ := (pool_settles twoLanePool_init ht).2.2
  exact ⟨t, rest, u, ht, hclosed, hrest⟩

end Torlane
