import Mathlib.Algebra.BigOperators.Group.Finset.Basic
import Mathlib.Algebra.Order.BigOperators.Group.Finset
import Torlane.Potential
import Torlane.Pool.Moves

/-!
# The work of a pool

The work that a state has in it is counted: the steps that its calls, the commands in its queue, and
its manager can still take (`State.potential`). A call brings work with it when it is made, and so
does the timer when it fires; every other step does a part of it (`paid_potential`).
-/

namespace Torlane

open Transition

variable {s t : State} {a : Action}

/-- The most steps that a command can take, from the queue on. The longest one is a restart, which
takes two steps for each lane. -/
def commandWork (lanes : ℕ) : ℕ := 2 * lanes + 10

/-- The most steps that a call can still take, with those of the command that it sends. -/
def CallPc.work (lanes : ℕ) : CallPc → ℕ
  | .fresh => 0
  | .nextRead => commandWork lanes + 3
  | .nextCount _ => commandWork lanes + 2
  | .forKeyRead _ => commandWork lanes + 2
  | .pick _ => commandWork lanes + 1
  | .rotateRead _ _ => commandWork lanes + 6
  | .rotateMark _ _ _ => commandWork lanes + 5
  | .rotateWrite _ _ _ => commandWork lanes + 4
  | .rotateSend _ _ => commandWork lanes + 3
  | .rotateUndo _ => 1
  | .rotateWait _ => 2
  | .restartSend => commandWork lanes + 3
  | .restartWait => 2
  | .shutdownSend => commandWork lanes + 4
  | .shutdownWait => 3
  | .shutdownJoin _ => 2
  | .shutdownAwait _ => 1
  | .returning _ => 1
  | .done _ => 0

/-- The most steps that the manager can still take in what it is processing. -/
def ManagerPc.work (lanes : ℕ) : ManagerPc → ℕ
  | .idle => 0
  | .respond _ _ => 1
  | .write _ _ _ => 2
  | .compute _ _ => 3
  | .unmark _ _ => 4
  | .renew _ ids => 2 * ids.length + 4
  | .renewUnmark _ _ ids => 2 * ids.length + 5
  | .start _ _ => 2 * lanes + 5
  | .stop _ _ => 2 * lanes + 6
  | .retire _ _ => 2 * lanes + 7
  | .mark _ _ => 2 * lanes + 8
  | .clear _ _ => 2 * lanes + 9
  | .haltClear _ => 5
  | .haltTake _ => 4
  | .haltStop _ => 3
  | .haltRespond _ _ => 2
  | .exiting => 1
  | .finished => 0

/-- The work that is left to the manager: in what it is processing, and in the queue. -/
def State.managerWork (s : State) : ℕ :=
  s.pc.work s.mgr.config.lanes + commandWork s.mgr.config.lanes * s.queue.length

/-- All the work that is left, where the calls that have been made are among those of `F`. -/
def State.potential (F : Finset CallId) (s : State) : ℕ :=
  ∑ c ∈ F, (s.calls c).work s.mgr.config.lanes + s.managerWork

/-- The call that an action makes. -/
def Action.starts : Action → Option CallId
  | .start c _ => some c
  | _ => none

/-- The timer fires. -/
def Action.isTick : Action → Bool
  | .tick _ => true
  | _ => false

/-- The work that an action brings with it: a call that is made, and a tick that finds a lane
expired. -/
def Action.credit (lanes : ℕ) (a : Action) : ℕ :=
  (if a.starts.isSome then commandWork lanes + 7 else 0) + if a.isTick then 4 else 0

/-- The number of commands that an access sends. -/
def Effect.sends : Effect → ℕ
  | .send _ => 1
  | _ => 0

/-- An access lengthens the queue by what it sends. -/
theorem apply_queue_length (s : State) (effect : Effect) :
    (s.apply effect).queue.length = s.queue.length + effect.sends := by
  cases effect <;> simp [State.apply, Effect.sends]

/-- A step of a call does a part of its work, or hands it over to the queue. -/
theorem callStep_work {c : CallId} {pc pc' : CallPc} {effect : Effect}
    (h : callStep s c pc = some (effect, pc')) (lanes : ℕ) :
    pc'.work lanes + commandWork lanes * effect.sends + 1 ≤ pc.work lanes := by
  cases pc with
  | nextCount ready =>
    obtain ⟨endpoint, -, heq⟩ := Option.map_eq_some_iff.mp h
    cases heq
    simp only [CallPc.work, Effect.sends]
    omega
  | forKeyRead lane =>
    simp only [callStep] at h
    split at h <;> cases h <;> simp only [CallPc.work, Effect.sends] <;> omega
  | fresh => cases h
  | done => cases h
  | _ =>
    simp only [callStep] at h
    (try split_ifs at h) <;> cases h <;> simp only [CallPc.work, Effect.sends] <;> omega

/-- A call that is made has no more work than it brings with it, and sends nothing yet. -/
theorem startCall_work (s : State) (op : Op) (lanes : ℕ) :
    (startCall s op).2.work lanes ≤ commandWork lanes + 6 ∧ (startCall s op).1.sends = 0 := by
  cases op <;> simp only [startCall] <;> split_ifs <;> simp [CallPc.work, Effect.sends]

/-- A response leaves the call that waits for it less to do. -/
theorem Answered.work_le {result : Except Error Unit} {pc pc' : CallPc}
    (h : Answered result pc pc') (lanes : ℕ) : pc'.work lanes ≤ pc.work lanes := by
  cases h <;> simp [CallPc.work]

/-- The pool has as many lanes as it is configured to have. -/
theorem WellFormed.length_lanes (hw : WellFormed s) : s.mgr.lanes.length = s.mgr.config.lanes := by
  have hids := congrArg List.length hw.numbered
  simpa using hids

/-- A move of the manager does a part of its work. -/
theorem ManagerMove.work_le (hw : WellFormed s) (hmove : ManagerMove s a t)
    (hconfig : t.mgr.config = s.mgr.config) :
    t.managerWork + 1 ≤ s.managerWork + a.credit s.mgr.config.lanes := by
  have hcommand : commandWork s.mgr.config.lanes = 2 * s.mgr.config.lanes + 10 := rfl
  have hlanes := hw.length_lanes
  have hcons (command : ManagerCommand) (rest : List ManagerCommand) :
      commandWork s.mgr.config.lanes * (command :: rest).length =
        commandWork s.mgr.config.lanes * rest.length + commandWork s.mgr.config.lanes := by
    rw [List.length_cons, Nat.mul_succ]
  unfold State.managerWork
  rw [hconfig]
  cases hmove with
  | receiveAssign hpc hqueue =>
    rw [hpc, hqueue, hcons]
    split_ifs <;> simp only [ManagerPc.work] <;> omega
  | receiveRotate hpc hqueue => rw [hpc, hqueue, hcons]; simp only [ManagerPc.work]; omega
  | receiveRotateError hpc hqueue => rw [hpc, hqueue, hcons]; simp only [ManagerPc.work]; omega
  | receiveRestart hpc hqueue => rw [hpc, hqueue, hcons]; simp only [ManagerPc.work]; omega
  | refuseRestart hpc hqueue => rw [hpc, hqueue, hcons]; simp only [ManagerPc.work]; omega
  | receiveShutdown hpc hqueue => rw [hpc, hqueue, hcons]; simp only [ManagerPc.work]; omega
  | @tick env _ _ _ hpc =>
    have hcredit : (Action.tick env).credit s.mgr.config.lanes = 4 := rfl
    rw [hpc, hcredit]
    split_ifs <;> simp only [ManagerPc.work] <;> omega
  | retire hpc _ _ hpc' =>
    rw [hpc]
    rcases hpc' with rfl | rfl <;> simp only [ManagerPc.work] <;> omega
  | haltTake hpc hpc' =>
    rw [hpc]
    rcases hpc' with rfl | rfl <;> simp only [ManagerPc.work] <;> omega
  | start hpc => rw [hpc]; simp only [ManagerPc.work, List.length_map]; omega
  | renew hpc => rw [hpc]; simp only [ManagerPc.work, List.length_cons]; omega
  | renewError hpc => rw [hpc]; simp only [ManagerPc.work, List.length_cons]; omega
  | startError hpc => rw [hpc]; simp only [ManagerPc.work]; omega
  | respond hpc => rw [hpc]; simp only [ManagerPc.work]; omega
  | haltRespond hpc => rw [hpc]; simp only [ManagerPc.work]; omega
  | exiting hpc => rw [hpc]; simp [ManagerPc.work]; omega
  | _ =>
    rename_i hpc
    rw [hpc]
    simp only [ManagerPc.work, List.length_nil]
    omega

/-- The state is well formed, the pool has `n` lanes, and every call that has been made is one of
`F`. -/
structure Counted (F : Finset CallId) (n : ℕ) (s : State) : Prop where
  wellFormed : WellFormed s
  lanes : s.mgr.config.lanes = n
  fresh : ∀ c, c ∉ F → s.calls c = .fresh

/-- The actions that make none but the calls of `F` keep the count. -/
theorem Counted.step {F : Finset CallId} {n : ℕ} (hs : Counted F n s)
    (hA : StartsIn Action.starts F a) (h : step s a = some t) : Counted F n t := by
  refine ⟨hs.wellFormed.step h, (congrArg _ (config_eq hs.wellFormed h)).trans hs.lanes,
    fun c hc => ?_⟩
  rcases step_cases hs.wellFormed h with ⟨c', pc, effect, pc', hpc, hmove, rfl, ha⟩ | hmove
  · rw [State.setCall_calls, State.apply_calls]
    have hne : c ≠ c' := by
      rintro rfl
      rcases ha with ⟨-, hstep⟩ | ⟨-, op, rfl, -⟩
      · rw [← hpc, hs.fresh c hc] at hstep
        cases hstep
      · exact hc (hA c rfl)
    rw [if_neg hne, hs.fresh c hc]
  · rcases hmove.calls c with heq | ⟨result, hanswered⟩
    · exact heq.trans (hs.fresh c hc)
    · rw [hs.fresh c hc] at hanswered
      cases hanswered

/-- What a move of a call changes in the potential: the call's own work, and what it sends. -/
theorem potential_setCall {F : Finset CallId} {c : CallId} (hc : c ∈ F) (s : State)
    (effect : Effect) (pc : CallPc) :
    ((s.apply effect).setCall c pc).potential F + (s.calls c).work s.mgr.config.lanes =
      s.potential F + pc.work s.mgr.config.lanes +
        commandWork s.mgr.config.lanes * effect.sends := by
  have hcalls : ((s.apply effect).setCall c pc).calls = Function.update s.calls c pc := by
    simp only [State.setCall, State.apply_calls]
  have hsum := sum_update_add hc s.calls pc (CallPc.work s.mgr.config.lanes)
  simp only [State.potential, State.managerWork, hcalls, State.setCall_mgr, State.apply_config,
    State.setCall_pc, State.apply_pc, State.setCall_queue, apply_queue_length, Nat.mul_add]
  omega

/-- Every step is paid for by the work that it does, or that its action brings with it. -/
theorem paid_potential (F : Finset CallId) (n : ℕ) :
    Paid step (StartsIn Action.starts F) (Counted F n) (State.potential F) (Action.credit n) where
  keeps _ _ _ hA h hs := hs.step hA h
  pays s a t hA h hs := by
    have hconfig := config_eq hs.wellFormed h
    rw [← hs.lanes]
    rcases step_cases hs.wellFormed h with ⟨c, pc, effect, pc', rfl, hmove, rfl, ha⟩ | hmove
    · rcases ha with ⟨rfl, hstep⟩ | ⟨hfresh, op, rfl, hstart⟩
      · have hc : c ∈ F := by
          by_contra hc
          rw [hs.fresh c hc] at hstep
          cases hstep
        have hwork := callStep_work hstep s.mgr.config.lanes
        have hpotential := potential_setCall hc s effect pc'
        omega
      · obtain ⟨hwork, hsends⟩ := startCall_work s op s.mgr.config.lanes
        have hpotential := potential_setCall (hA c rfl) s effect pc'
        have hcredit : (Action.start c op).credit s.mgr.config.lanes =
            commandWork s.mgr.config.lanes + 7 := rfl
        rw [hstart] at hwork hsends
        dsimp only at hwork hsends
        rw [hsends, Nat.mul_zero] at hpotential
        omega
    · have hwork := hmove.work_le hs.wellFormed hconfig
      have hcalls : ∑ c ∈ F, (t.calls c).work s.mgr.config.lanes ≤
          ∑ c ∈ F, (s.calls c).work s.mgr.config.lanes := by
        refine Finset.sum_le_sum fun c _ => ?_
        rcases hmove.calls c with heq | ⟨result, hanswered⟩
        · rw [heq]
        · exact hanswered.work_le _
      unfold State.potential
      rw [congrArg PoolConfig.lanes hconfig]
      omega

/-- The work that a list of actions brings with it. -/
theorem sum_credit (lanes : ℕ) (as : List Action) :
    totalCredit (Action.credit lanes) as =
      (commandWork lanes + 7) * (as.filterMap Action.starts).length +
        4 * as.countP Action.isTick := by
  induction as with
  | nil => rfl
  | cons a as ih =>
    rw [totalCredit, ih, List.filterMap_cons, List.countP_cons, Action.credit]
    cases a.starts <;> split_ifs <;> simp [Nat.mul_add] at * <;> omega

end Torlane
