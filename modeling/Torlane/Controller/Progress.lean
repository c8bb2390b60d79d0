import Mathlib.Algebra.Order.BigOperators.Group.Finset
import Torlane.Controller.Exchange
import Torlane.Potential

/-!
# Every command is answered

The command channel holds at most 32 commands, so that a caller may have to wait before it can even
send, and after that it waits for its response. Neither lasts forever. A command takes a bounded
number of steps, so that a run is no longer than its calls allow. And when nobody has a step left,
the channel is empty and no caller waits: the actor takes the commands off the channel as long as it
lives, and drops the channel when it ends, which every caller learns.
-/

namespace Torlane.Control

open Transition

variable {s t : State} {a : Action}

/-! ## The work that is left -/

/-- The most steps that a command takes, from the channel on: the actor takes it, writes it, reads
the reply, responds, and may have to drop the channel. -/
def commandWork : ℕ := 5

/-- The most steps that a call can still take, with those of its command. -/
def CallPc.work : CallPc → ℕ
  | .fresh => 0
  | .sending _ => commandWork + 2
  | .waiting => 1
  | .dropped => 0
  | .done _ => 0

/-- The most steps that the actor can still take without a further command. -/
def ActorPc.work : ActorPc → ℕ
  | .idle => 0
  | .writing _ => 4
  | .reading _ => 3
  | .responding _ _ => 2
  | .closing => 1
  | .closed => 0

/-- All the work that is left, where the calls that have been made are among those of `F`. -/
def State.potential (F : Finset CallId) (s : State) : ℕ :=
  ∑ c ∈ F, (s.calls c).work + commandWork * s.queue.length + s.pc.work

/-- The call that an action makes. -/
def Action.starts : Action → Option CallId
  | .start c _ => some c
  | _ => none

/-- The work that an action brings with it. -/
def Action.credit (a : Action) : ℕ := if a.starts.isSome then commandWork + 3 else 0

/-- Every call that has been made is one of `F`. -/
def Counted (F : Finset CallId) (s : State) : Prop := ∀ c, c ∉ F → s.calls c = .fresh

/-- The other calls stay where they are when one of them moves. -/
theorem setCall_of_ne {c c' : CallId} {pc : CallPc} (hne : c ≠ c') :
    (s.setCall c' pc).calls c = s.calls c := Function.update_of_ne hne ..

/-- A delivery gives no fresh call a response. -/
theorem deliver_fresh {c c' : CallId} {result : CommandResult} (h : s.calls c = .fresh) :
    (s.deliver c' result).calls c = .fresh := by
  rcases s.deliver_cases c' result with ⟨hwaiting, heq⟩ | ⟨-, heq⟩
  · have hne : c ≠ c' := by
      rintro rfl
      simp [h] at hwaiting
    rw [heq, setCall_of_ne hne, h]
  · rw [heq, h]

/-- The actions that make none but the calls of `F` keep the count. -/
theorem Counted.step {F : Finset CallId} (hs : Counted F s) (hA : StartsIn Action.starts F a)
    (h : step s a = some t) : Counted F t := by
  intro c hc
  have hfresh := hs c hc
  have hset {c' : CallId} {pc : CallPc} (hne : c ≠ c') : (s.setCall c' pc).calls c = .fresh := by
    rw [setCall_of_ne hne, hfresh]
  cases move_of_step h with
  | start => exact hset fun heq => hc (heq ▸ hA _ rfl)
  | accept hcall => exact hset fun heq => by simp [← heq, hfresh] at hcall
  | refuse hcall => exact hset fun heq => by simp [← heq, hfresh] at hcall
  | drop hcall => exact hset fun heq => by simp [← heq, hfresh] at hcall
  | respond => exact deliver_fresh hfresh
  | respondError => exact deliver_fresh hfresh
  | close => simp [State.closeChannel, hfresh]
  | _ => exact hfresh

/-- What a move of a call changes in the potential. -/
theorem potential_setCall {F : Finset CallId} {c : CallId} (hc : c ∈ F) (s : State) (pc : CallPc) :
    (s.setCall c pc).potential F + (s.calls c).work = s.potential F + pc.work := by
  have hsum := sum_update_add hc s.calls pc CallPc.work
  simp only [State.potential, State.setCall]
  omega

/-- A delivery adds no work. -/
theorem sum_work_deliver_le (F : Finset CallId) (s : State) (c : CallId) (result : CommandResult) :
    ∑ c' ∈ F, ((s.deliver c result).calls c').work ≤ ∑ c' ∈ F, (s.calls c').work := by
  refine Finset.sum_le_sum fun c' _ => ?_
  rcases s.deliver_cases c result with ⟨-, heq⟩ | ⟨-, heq⟩
  · by_cases hc : c' = c
    · subst hc
      simp [heq, State.setCall, CallPc.work]
    · rw [heq, setCall_of_ne hc]
  · rw [heq]

/-- The closing of the channel adds no work. -/
theorem sum_work_closeChannel_le (F : Finset CallId) (s : State) :
    ∑ c ∈ F, (s.closeChannel.calls c).work ≤ ∑ c ∈ F, (s.calls c).work := by
  refine Finset.sum_le_sum fun c _ => ?_
  cases hcall : s.calls c <;> simp [State.closeChannel, hcall, CallPc.work]

/-- A call that is to move has been made. -/
theorem Counted.mem {F : Finset CallId} {c : CallId} (hs : Counted F s)
    (h : s.calls c ≠ .fresh) : c ∈ F := by
  by_contra hc
  exact h (hs c hc)

/-- Every step is paid for by the work that it does, or that its action brings with it. -/
theorem paid_potential (F : Finset CallId) :
    Paid step (StartsIn Action.starts F) (Counted F) (State.potential F) Action.credit where
  keeps _ _ _ hA h hs := hs.step hA h
  pays s a t hA h hs := by
    have hcommand : commandWork = 5 := rfl
    cases move_of_step h with
    | @start c text pc hcall hpc =>
      have hpotential := potential_setCall (hA c rfl) s pc
      have hcredit : (Action.start c text).credit = commandWork + 3 := rfl
      have hwork : pc.work ≤ commandWork + 2 := by
        rcases hpc with ⟨command, rfl⟩ | rfl
        · exact le_rfl
        · exact Nat.zero_le _
      omega
    | @accept c command hcall =>
      have hc := hs.mem (c := c) (by simp [hcall])
      have hpotential := potential_setCall hc s .waiting
      have hqueue : (State.setCall { s with queue := s.queue ++ [⟨command, c⟩] } c
          .waiting).potential F = (s.setCall c .waiting).potential F + commandWork := by
        simp only [State.potential, State.setCall, List.length_append, List.length_singleton,
          Nat.mul_add]
        omega
      rw [hcall] at hpotential
      simp only [CallPc.work] at hpotential
      omega
    | @refuse c command hcall =>
      have hc := hs.mem (c := c) (by simp [hcall])
      have hpotential := potential_setCall hc s (.done (.error .channelClosed))
      rw [hcall] at hpotential
      simp only [CallPc.work] at hpotential
      omega
    | @drop c hcall =>
      have hc := hs.mem (c := c) (by rcases hcall with ⟨command, h⟩ | h <;> simp [h])
      have hpotential := potential_setCall hc s .dropped
      have hwork : 1 ≤ (s.calls c).work := by
        rcases hcall with ⟨command, h⟩ | h <;> simp [h, CallPc.work]
      have hdropped : CallPc.dropped.work = 0 := rfl
      omega
    | recv hpc hqueue =>
      simp only [State.potential, hpc, hqueue, List.length_cons, ActorPc.work, Nat.mul_add]
      omega
    | write hpc => simp only [State.potential, hpc, ActorPc.work]; omega
    | writeError hpc => simp only [State.potential, hpc, ActorPc.work]; omega
    | read hpc => simp only [State.potential, hpc, ActorPc.work]; omega
    | @respond command reply hpc =>
      have hcalls := sum_work_deliver_le F s command.response (.ok reply)
      simp only [State.potential, hpc, ActorPc.work, State.deliver_queue]
      omega
    | @respondError command error hpc =>
      have hcalls := sum_work_deliver_le F s command.response (.error error)
      simp only [State.potential, hpc, ActorPc.work, State.deliver_queue]
      omega
    | close hpc =>
      have hcalls := sum_work_closeChannel_le F s
      have hqueue : s.closeChannel.queue = [] := rfl
      have hclosed : s.closeChannel.pc = .closed := rfl
      simp only [State.potential, hpc, hqueue, hclosed, ActorPc.work, List.length_nil]
      omega

/-- The work that a list of actions brings with it. -/
theorem sum_credit (as : List Action) :
    totalCredit Action.credit as = 8 * (as.filterMap Action.starts).length := by
  induction as with
  | nil => rfl
  | cons a as ih =>
    rw [totalCredit, ih, List.filterMap_cons, Action.credit]
    cases a.starts <;> simp [commandWork, Nat.mul_add]
    omega

/-! ## Nobody waits in vain -/

/-- Every caller that waits has its command in the hands of the actor or in the channel, and what
has been dropped is empty. -/
structure Awaited (s : State) : Prop where
  waiting : ∀ c, s.calls c = .waiting → ∃ command ∈ s.pc.current ++ s.queue, command.response = c
  closed : s.pc.isClosed = true → s.queue = []

/-- A caller that still waits after a delivery has waited before, and for another response. -/
theorem waiting_of_deliver {c c' : CallId} {result : CommandResult}
    (h : (s.deliver c' result).calls c = .waiting) : s.calls c = .waiting ∧ c ≠ c' := by
  rcases s.deliver_cases c' result with ⟨hwaiting, heq⟩ | ⟨hnot, heq⟩
  · rw [heq] at h
    by_cases hc : c = c'
    · subst hc
      simp [State.setCall] at h
    · exact ⟨(setCall_of_ne hc).symm.trans h, hc⟩
  · rw [heq] at h
    exact ⟨h, fun hc => hnot (hc ▸ h)⟩

/-- When a response has been given, the callers that still wait have their commands in the
channel. -/
theorem Awaited.deliver {command : ControlCommand} {result : CommandResult} (hs : Awaited s)
    (hpc : s.pc = .responding command result) {c : CallId}
    (h : (s.deliver command.response result).calls c = .waiting) :
    ∃ command' ∈ s.queue, command'.response = c := by
  obtain ⟨hwaiting, hne⟩ := waiting_of_deliver h
  obtain ⟨command', hmem, hresponse⟩ := hs.waiting c hwaiting
  have hmem : command' = command ∨ command' ∈ s.queue := by
    simpa [hpc, ActorPc.current] using hmem
  rcases hmem with rfl | hmem
  · exact absurd hresponse.symm hne
  · exact ⟨command', hmem, hresponse⟩

/-- A call that moves, and not to wait, leaves the other ones where they are. -/
theorem Awaited.setCall {c : CallId} {pc : CallPc} (hs : Awaited s) (hpc : pc ≠ .waiting) :
    Awaited (s.setCall c pc) where
  waiting c' hwaiting := by
    by_cases hc : c' = c
    · subst hc
      simp [State.setCall, hpc] at hwaiting
    · exact hs.waiting c' ((setCall_of_ne hc).symm.trans hwaiting)
  closed := hs.closed

/-- The actor goes on with the commands that are in its hands and in the channel. -/
theorem Awaited.proceed (hs : Awaited s) (hcalls : t.calls = s.calls)
    (hcommands : t.pc.current ++ t.queue = s.pc.current ++ s.queue)
    (hopen : t.pc.isClosed = false) : Awaited t where
  waiting c hwaiting := by
    rw [hcalls] at hwaiting
    rw [hcommands]
    exact hs.waiting c hwaiting
  closed hclosed := by simp [hopen] at hclosed

/-- Every step keeps the commands of the waiting callers. -/
theorem Awaited.step (hs : Awaited s) (h : step s a = some t) : Awaited t := by
  cases move_of_step h with
  | start hcall hpc => exact hs.setCall (by rcases hpc with ⟨command, rfl⟩ | rfl <;> simp)
  | @accept c command hcall hopen =>
    refine ⟨fun c' hwaiting => ?_, fun hclosed => ?_⟩
    · by_cases hc : c' = c
      · exact ⟨⟨command, c⟩, by simp [State.setCall], hc.symm⟩
      · obtain ⟨command', hmem, hresponse⟩ :=
          hs.waiting c' ((setCall_of_ne (s := s) hc).symm.trans hwaiting)
        refine ⟨command', ?_, hresponse⟩
        simp only [State.setCall, List.mem_append] at hmem ⊢
        exact hmem.imp_right .inl
    · have heq : (State.setCall { s with queue := s.queue ++ [⟨command, c⟩] } c .waiting).pc =
          s.pc := rfl
      simp [heq, hopen] at hclosed
  | refuse => exact hs.setCall (by simp)
  | drop => exact hs.setCall (by simp)
  | recv hpc hqueue =>
    exact hs.proceed rfl (by simp [hpc, hqueue, ActorPc.current]) rfl
  | write hpc => exact hs.proceed rfl (by simp [hpc, ActorPc.current]) rfl
  | writeError hpc => exact hs.proceed rfl (by simp [hpc, ActorPc.current]) rfl
  | read hpc => exact hs.proceed rfl (by simp [hpc, ActorPc.current]) rfl
  | respond hpc =>
    exact ⟨fun c hwaiting => by simpa [ActorPc.current] using hs.deliver hpc hwaiting,
      fun hclosed => by cases hclosed⟩
  | respondError hpc =>
    exact ⟨fun c hwaiting => by simpa [ActorPc.current] using hs.deliver hpc hwaiting,
      fun hclosed => by cases hclosed⟩
  | close =>
    refine ⟨fun c hwaiting => ?_, fun _ => rfl⟩
    simp only [State.closeChannel] at hwaiting
    split at hwaiting
    · cases hwaiting
    · next hnot => exact absurd hwaiting hnot

/-! ## Rest -/

/-- The steps that are taken without a new call, and without a caller that drops its future. -/
def Action.ongoing : Action → Prop
  | .start _ _ => False
  | .drop _ => False
  | _ => True

/-- Nobody waits: every call that has been made has returned, or its future has been dropped, the
channel is empty, and the actor waits for a command or has ended. -/
structure AtRest (s : State) : Prop where
  calls : ∀ c, s.calls c = .fresh ∨ s.calls c = .dropped ∨ ∃ result, s.calls c = .done result
  queue : s.queue = []
  actor : s.pc = .idle ∨ s.pc = .closed

/-- A state in which no step is enabled but a new call and a dropped future is one of rest. -/
theorem Awaited.atRest (hs : Awaited s) (hquiet : Quiet Control.step Action.ongoing s) :
    AtRest s := by
  have hactor : s.pc = .idle ∨ s.pc = .closed := by
    have hwrite := hquiet (.write (.ok ())) trivial
    have hread := hquiet .read trivial
    have hrespond := hquiet .respond trivial
    have hclose := hquiet .close trivial
    cases hpc : s.pc <;> simp_all [Control.step]
  have hqueue : s.queue = [] := by
    rcases hactor with hidle | hclosed
    · have hrecv := hquiet .recv trivial
      cases hqueue : s.queue with
      | nil => rfl
      | cons => simp [Control.step, hidle, hqueue] at hrecv
    · exact hs.closed (by rw [hclosed]; rfl)
  refine ⟨fun c => ?_, hqueue, hactor⟩
  cases hcall : s.calls c with
  | fresh => exact .inl rfl
  | dropped => exact .inr (.inl rfl)
  | done result => exact .inr (.inr ⟨result, rfl⟩)
  | sending command =>
    -- The channel has room, or refuses the command.
    have hroom : s.queue.length < commandBuffer := by simp [hqueue, commandBuffer]
    have hsend := hquiet (.send c) trivial
    simp only [Control.step, hcall, sendCommand] at hsend
    split_ifs at hsend
  | waiting =>
    obtain ⟨command, hmem, -⟩ := hs.waiting c hcall
    rcases hactor with hidle | hclosed
    · simp [hidle, hqueue, ActorPc.current] at hmem
    · simp [hclosed, hqueue, ActorPc.current] at hmem

/-- In every run on a connection, of any calls on clones of its client and of the actor, however
their steps are interleaved: the number of the steps is at most eight for each call. When no further
step is enabled but a new call and a dropped future, every call has returned or been dropped, the
channel is empty, and the actor waits for a command or has ended. And from every state that the run
reaches, such a state is reached without a further call. -/
theorem client_settles {r : Reader} {as : List Action} (h : run step (connect r) as = some t) :
    as.length ≤ 8 * (as.filterMap Action.starts).length ∧
      (Quiet step Action.ongoing t → AtRest t) ∧
      ∃ rest u, (∀ a ∈ rest, a.ongoing) ∧ run step t rest = some u ∧
        Quiet step Action.ongoing u ∧ AtRest u := by
  have hconnect : Awaited (connect r) :=
    ⟨fun c hwaiting => (by cases hwaiting), fun hclosed => (by cases hclosed)⟩
  have hrest (as : List Action) {u : State} (hu : run step (connect r) as = some u)
      (hquiet : Quiet step Action.ongoing u) : AtRest u := by
    have hawaited : Awaited u :=
      (reaches_of_run hu).invariant (fun _ _ _ _ hstep hs => hs.step hstep) hconnect
    exact hawaited.atRest hquiet
  have hpaid := paid_potential (started Action.starts as)
  have hpotential : (connect r).potential (started Action.starts as) = 0 := by
    simp [State.potential, connect, CallPc.work, ActorPc.work]
  have hcounted : Counted (started Action.starts as) (connect r) := fun _ _ => rfl
  refine ⟨?_, hrest as h, ?_⟩
  · have hlength := hpaid.length_le (startsIn_started as) hcounted h
    rw [hpotential, sum_credit] at hlength
    omega
  · -- Without calls, no work is added.
    have hfree : ∀ a, Action.ongoing a →
        StartsIn Action.starts (started Action.starts as) a ∧ Action.credit a = 0 := by
      intro a ha
      cases a <;> first | exact ha.elim | exact ⟨fun _ hc => (by cases hc), rfl⟩
    obtain ⟨rest, u, hA, hu, hrun, hquiet⟩ :=
      hpaid.settles hfree (startsIn_started as) hcounted h
    exact ⟨rest, u, hA, hu, hquiet, hrest (as ++ rest) hrun hquiet⟩

/-- Two commands are accepted, and the caller of the second one drops its future before the first
reply has been read. -/
def droppedCaller : List Action :=
  [.start 0 "GETINFO version".toList, .start 1 "TAKEOWNERSHIP".toList, .send 0, .send 1, .recv,
    .write (.ok ()), .drop 1]

/-- The two calls come to rest on a connection that ends within a reply. -/
theorem client_settles_dropped :
    ∃ t rest u, run step (connect brokenServer) droppedCaller = some t ∧
      (∀ a ∈ rest, a.ongoing) ∧ run step t rest = some u ∧ Quiet step Action.ongoing u ∧
        AtRest u := by
  have hrun : ∃ t, run step (connect brokenServer) droppedCaller = some t := ⟨_, rfl⟩
  obtain ⟨t, ht⟩ := hrun
  obtain ⟨rest, u, hrest⟩ := (client_settles ht).2.2
  exact ⟨t, rest, u, ht, hrest⟩

end Torlane.Control
