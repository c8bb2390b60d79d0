import Torlane.Pool.Moves

/-!
# Responses

A response sender is in the queue with its command, and then with the manager that processes it.
Each one belongs to a call that waits for exactly this response, and no call is owed two. So a
response reaches the call that has asked for it, and answers what the call has asked.
-/

namespace Torlane

/-- The call that is owed a response for the operation, and how it waits. -/
def Job.owed : Job → Option (CallId × CallPc)
  | .assign => none
  | .rotate lane response => response.map (·, .rotateWait lane)
  | .expire => none
  | .restart call => some (call, .restartWait)

/-- The call that is owed a response for the command, and how it waits. -/
def ManagerCommand.owed : ManagerCommand → Option (CallId × CallPc)
  | .assign _ _ => none
  | .rotate lane response => (Job.rotate lane response).owed
  | .restart call => (Job.restart call).owed
  | .shutdown call => some (call, .shutdownWait)

/-- The call that the manager owes a response for what it is processing, and how it waits. -/
def ManagerPc.owed : ManagerPc → Option (CallId × CallPc)
  | .unmark lane response => (Job.rotate lane response).owed
  | .compute job _ => job.owed
  | .write _ job _ => job.owed
  | .respond job _ => job.owed
  | .clear _ call => (Job.restart call).owed
  | .mark _ call => (Job.restart call).owed
  | .retire _ call => (Job.restart call).owed
  | .stop _ call => (Job.restart call).owed
  | .start _ call => (Job.restart call).owed
  | .renew call _ => (Job.restart call).owed
  | .renewUnmark call _ _ => (Job.restart call).owed
  | .haltClear call => some (call, .shutdownWait)
  | .haltTake call => some (call, .shutdownWait)
  | .haltStop call => some (call, .shutdownWait)
  | .haltRespond call _ => some (call, .shutdownWait)
  | _ => none

/-- All the responses that are owed. -/
def State.owed (s : State) : List (CallId × CallPc) :=
  s.pc.owed.toList ++ s.queue.filterMap ManagerCommand.owed

/-- Every call that is owed a response waits for it, and none is owed two. -/
structure Responsive (s : State) : Prop where
  waits : ∀ p ∈ s.owed, s.calls p.1 = p.2
  once : (s.owed.map (·.1)).Nodup

variable {s t : State} {a : Action}

/-- An operation's response is one that its call waits for. -/
theorem Job.waiting_of_owed (job : Job) {p : CallId × CallPc} (h : job.owed = some p) :
    p.2.waiting = true := by
  cases job with
  | rotate lane response =>
    obtain ⟨c, -, rfl⟩ := Option.map_eq_some_iff.mp h
    rfl
  | restart call => cases h; rfl
  | _ => cases h

/-- The call that an operation owes a response is the one that it answers. -/
theorem Job.response_eq (job : Job) : job.response = job.owed.map (·.1) := by
  cases job with
  | rotate lane response => cases response <;> rfl
  | _ => rfl

/-- An owed response is one that its call waits for. -/
theorem State.waiting_of_owed {p : CallId × CallPc} (h : p ∈ s.owed) : p.2.waiting = true := by
  rcases List.mem_append.mp h with hmem | hmem
  · have howed : s.pc.owed = some p := Option.mem_toList.mp hmem
    generalize s.pc = pc at howed
    cases pc with
    | idle => cases howed
    | exiting => cases howed
    | finished => cases howed
    | unmark lane response => exact Job.waiting_of_owed (.rotate lane response) howed
    | compute job => exact job.waiting_of_owed howed
    | write _ job => exact job.waiting_of_owed howed
    | respond job => exact job.waiting_of_owed howed
    | _ => cases howed; rfl
  · obtain ⟨command, -, howed⟩ := List.mem_filterMap.mp hmem
    cases command with
    | assign => cases howed
    | rotate lane response => exact Job.waiting_of_owed (.rotate lane response) howed
    | restart => cases howed; rfl
    | shutdown => cases howed; rfl

/-- When the receiver has been dropped, no response is owed any more. -/
theorem WellFormed.owed_eq_nil (hw : WellFormed s) (hdropped : s.receiverDropped = true) :
    s.owed = [] := by
  cases hpc : s.pc <;> simp [State.receiverDropped, hpc] at hdropped
  rw [State.owed, hpc, hw.dropped (by rw [State.receiverDropped, hpc])]
  rfl

/-- A call that waits moves only where its response will not come. -/
theorem CallMove.dropped_of_waiting {c : CallId} {pc pc' : CallPc} {effect : Effect}
    (h : CallMove s c pc effect pc') (hwaiting : pc.waiting = true) : s.receiverDropped = true := by
  cases h with
  | giveUp _ _ _ hdropped => exact hdropped hwaiting
  | shutdownDropped hdropped => exact hdropped
  | _ => simp [CallPc.waiting] at hwaiting

/-- A call that sends a command is owed the response to it, and waits for it, if there is to be
one. -/
theorem CallMove.owed {c : CallId} {pc pc' : CallPc} {command : ManagerCommand}
    (h : CallMove s c pc (.send command) pc') :
    command.owed = none ∨ command.owed = some (c, pc') := by
  cases h with
  | pick => exact .inl rfl
  | rotateQueue => exact .inl rfl
  | _ => exact .inr rfl

/-- A move of a call keeps the responses where they belong. -/
theorem Responsive.call {c : CallId} {effect : Effect} {pc' : CallPc} (hw : WellFormed s)
    (hs : Responsive s) (hmove : CallMove s c (s.calls c) effect pc') :
    Responsive ((s.apply effect).setCall c pc') := by
  by_cases hdropped : s.receiverDropped = true
  · have hnil := (hw.call hmove).owed_eq_nil (by simpa using hdropped)
    exact ⟨by simp [hnil], by simp [hnil]⟩
  · -- The call that moves does not wait, so that it is owed nothing before the move.
    have hnot : ∀ p ∈ s.owed, p.1 ≠ c := by
      rintro p hmem rfl
      have hwaiting := hs.waits p hmem ▸ s.waiting_of_owed hmem
      exact hdropped (hmove.dropped_of_waiting hwaiting)
    -- What is owed grows by the response to the command that is sent, if there is to be one.
    have howed : ((s.apply effect).setCall c pc').owed = s.owed ∨
        ((s.apply effect).setCall c pc').owed = s.owed ++ [(c, pc')] := by
      cases effect with
      | send command =>
        rcases hmove.owed with hnone | hsome
        · left; simp [State.owed, State.apply, State.setCall, hnone]
        · right; simp [State.owed, State.apply, State.setCall, hsome]
      | _ => exact .inl rfl
    have hkeep : ∀ p ∈ s.owed, ((s.apply effect).setCall c pc').calls p.1 = p.2 := by
      intro p hmem
      rw [State.setCall_calls, if_neg (hnot p hmem), State.apply_calls]
      exact hs.waits p hmem
    rcases howed with howed | howed
    · exact ⟨howed ▸ hkeep, howed ▸ hs.once⟩
    · refine ⟨fun p hmem => ?_, ?_⟩
      · rw [howed] at hmem
        rcases List.mem_append.mp hmem with hmem | hmem
        · exact hkeep p hmem
        · obtain rfl := List.mem_singleton.mp hmem
          rw [State.setCall_calls, if_pos rfl]
      · rw [howed, List.map_append, List.nodup_append]
        -- The new debt is to a call that was owed nothing.
        refine ⟨hs.once, List.nodup_singleton _, fun c' hmem c'' hmem' => ?_⟩
        obtain ⟨p, hp, rfl⟩ := List.mem_map.mp hmem
        obtain rfl : c'' = c := List.mem_singleton.mp hmem'
        exact hnot p hp

/-- Where the manager is idle, it is the queue that owes. -/
theorem State.owed_of_idle {command : ManagerCommand} {rest : List ManagerCommand}
    (hpc : s.pc = .idle) (hqueue : s.queue = command :: rest) :
    s.owed = command.owed.toList ++ rest.filterMap ManagerCommand.owed := by
  rw [State.owed, hpc, hqueue, List.filterMap_cons]
  cases command.owed <;> rfl

/-- A move of the manager owes no more than before. -/
theorem ManagerMove.owed (hmove : ManagerMove s a t) : t.owed.Sublist s.owed := by
  cases hmove with
  | @receiveAssign _ _ _ _ _ publish hpc hqueue =>
    rw [State.owed_of_idle hpc hqueue]
    cases publish <;> exact .refl _
  | receiveRotate hpc hqueue => rw [State.owed_of_idle hpc hqueue]; exact .refl _
  | receiveRotateError hpc hqueue => rw [State.owed_of_idle hpc hqueue]; exact .refl _
  | receiveRestart hpc hqueue => rw [State.owed_of_idle hpc hqueue]; exact .refl _
  | refuseRestart hpc hqueue => rw [State.owed_of_idle hpc hqueue]; exact .refl _
  | receiveShutdown hpc hqueue => rw [State.owed_of_idle hpc hqueue]; exact .refl _
  | @tick _ _ _ publish hpc =>
    rw [State.owed, State.owed, hpc]
    cases publish <;> exact .refl _
  | retire hpc _ _ hpc' =>
    rw [State.owed, State.owed, hpc]
    rcases hpc' with rfl | rfl <;> exact .refl _
  | haltTake hpc hpc' =>
    rw [State.owed, State.owed, hpc]
    rcases hpc' with rfl | rfl <;> exact .refl _
  | respond => exact List.sublist_append_right ..
  | haltRespond => exact List.sublist_append_right ..
  | exiting => exact List.nil_sublist _
  | renew hpc => rw [State.owed, State.owed, hpc]; exact .refl _
  | renewError hpc => rw [State.owed, State.owed, hpc]; exact .refl _
  | startError hpc => rw [State.owed, State.owed, hpc]; exact .refl _
  | _ =>
    rename_i hpc
    rw [State.owed, State.owed, hpc]
    exact .refl _

/-- The manager answers the call that its operation owes the response. -/
theorem ManagerMove.answers (hmove : ManagerMove s a t) (c : CallId) :
    t.calls c = s.calls c ∨ ∃ pc result, s.pc.owed = some (c, pc) ∧ t.pc.owed = none ∧
      t.queue = s.queue ∧ Answered result (s.calls c) (t.calls c) := by
  cases hmove with
  | @respond _ job result _ hpc hcalls =>
    rcases hcalls c with heq | ⟨hresponse, hanswered⟩
    · exact .inl heq
    · rw [job.response_eq] at hresponse
      obtain ⟨⟨c', pc⟩, howed, rfl⟩ := Option.map_eq_some_iff.mp hresponse
      exact .inr ⟨pc, result, by rw [hpc]; exact howed, rfl, rfl, hanswered⟩
  | haltRespond hpc hcalls =>
    rcases hcalls c with heq | ⟨hresponse, hanswered⟩
    · exact .inl heq
    · obtain rfl := Option.some.inj hresponse
      exact .inr ⟨_, _, by rw [hpc]; rfl, rfl, rfl, hanswered⟩
  | _ => exact .inl rfl

/-- A move of the manager keeps the responses where they belong. -/
theorem Responsive.manager (hs : Responsive s) (hmove : ManagerMove s a t) : Responsive t := by
  refine ⟨fun p hmem => ?_, hs.once.sublist (hmove.owed.map _)⟩
  rcases hmove.answers p.1 with heq | ⟨pc, result, howed, hnone, hqueue, -⟩
  · exact heq.trans (hs.waits p (hmove.owed.subset hmem))
  · -- The answered call is owed nothing else.
    have hrest : p ∈ s.queue.filterMap ManagerCommand.owed := by
      simpa [State.owed, hnone, hqueue] using hmem
    have honce := hs.once
    rw [State.owed, howed] at honce
    exact absurd (List.mem_map_of_mem hrest) (List.nodup_cons.mp honce).1

/-- Every step keeps the responses where they belong. -/
theorem Responsive.step (hw : WellFormed s) (hs : Responsive s) (h : step s a = some t) :
    Responsive t := by
  rcases step_cases hw h with ⟨c, pc, effect, pc', rfl, hmove, rfl, -⟩ | hmove
  · exact hs.call hw hmove
  · exact hs.manager hmove

/-- A pool that has just been spawned owes no response. -/
theorem Init.responsive (hs : Init s) : Responsive s := by
  obtain ⟨config, lanes, runtime, inst, instanceConfig, env, hconfig, hlanes, rfl⟩ := hs
  have hnil : (spawn config lanes runtime inst instanceConfig).owed = [] := rfl
  exact ⟨by simp [hnil], by simp [hnil]⟩

end Torlane
