import Torlane.Pool.Moves

/-!
# Pending rotations exclude their lane

The README promises that a lane is skipped from the queueing of its rotation until it is finished.
What keeps the lane out of the published list is its mark in `unavailable`, for the lists that the
manager computes, and the filter of `queue_rotation`, for the list that is there already.
`Excluded` ties the two to the pending rotations. It is kept by every step but three kinds, which
`keepsExcluded` rules out: a client or the manager writes a list that is out of date, or the
manager takes back the mark of a lane with a further rotation outstanding. `excluded_run` is the
result for the runs without them, and `stale_write_readmits` is a run with one.
-/

namespace Torlane

open Transition

/-- The lane whose rotation the manager is processing and has not yet published. -/
def ManagerPc.rotating : ManagerPc → Option LaneId
  | .unmark lane _ => some lane
  | .compute (.rotate lane _) _ => some lane
  | .write _ (.rotate lane _) _ => some lane
  | _ => none

/-- The lane whose mark the manager's next step takes back. -/
def ManagerPc.unmarks : ManagerPc → Option LaneId
  | .unmark lane _ => some lane
  | .renewUnmark _ lane _ => some lane
  | _ => none

/-- A rotation of the lane is in the queue, or the manager is processing one. -/
def State.RotationPending (s : State) (lane : LaneId) : Prop :=
  (∃ response, .rotate lane response ∈ s.queue) ∨ s.pc.rotating = some lane

/-- The step does not readmit a lane: a client writes back a snapshot whose lanes are all still
offered, the manager writes a list whose lanes are offered or unmarked, and the manager unmarks a
lane only where no further rotation of it is outstanding. -/
def keepsExcluded (s : State) : Action → Prop
  | .advance c =>
    ∀ lane snapshot wait, s.calls c = .rotateWrite lane snapshot wait →
      ∀ endpoint ∈ snapshot.without lane, s.mgr.ready.offers endpoint.lane
  | .work _ =>
    (∀ ready job result, s.pc = .write ready job result →
      ∀ endpoint ∈ ready, endpoint.lane ∈ s.mgr.unavailable → s.mgr.ready.offers endpoint.lane) ∧
    ∀ lane, s.pc.unmarks = some lane → ¬ s.Outstanding lane
  | _ => True

/-- What keeps the lanes of pending rotations out of the ready list. -/
structure Excluded (s : State) : Prop where
  /-- A lane whose command is in the queue is marked, and is not offered. -/
  queued : ∀ lane response, .rotate lane response ∈ s.queue →
    lane ∈ s.mgr.unavailable ∧ ¬ s.mgr.ready.offers lane
  /-- So is a lane whose command a call is about to send. -/
  sending : ∀ c lane wait, s.calls c = .rotateSend lane wait →
    lane ∈ s.mgr.unavailable ∧ ¬ s.mgr.ready.offers lane
  /-- A lane that a call is about to filter out is marked. -/
  filtering : ∀ c lane snapshot wait, s.calls c = .rotateWrite lane snapshot wait →
    lane ∈ s.mgr.unavailable
  /-- A lane that the manager is rotating is not offered. -/
  rotating : ∀ lane, s.pc.rotating = some lane → ¬ s.mgr.ready.offers lane

variable {s t : State}

/-- A move of a call that meets the guard keeps the pending lanes out. -/
theorem Excluded.call {c : CallId} {effect : Effect} {pc' : CallPc} (hw : WellFormed s)
    (halive : s.receiverDropped = false) (hs : Excluded s)
    (hmove : CallMove s c (s.calls c) effect pc') (hG : keepsExcluded s (.advance c)) :
    Excluded ((s.apply effect).setCall c pc') := by
  -- No call takes a mark back: only one that has seen the receiver dropped would.
  have hmark : ∀ lane ∈ s.mgr.unavailable, lane ∈ (s.apply effect).mgr.unavailable := by
    intro lane hlane
    cases effect with
    | mark other => exact Finset.mem_insert_of_mem hlane
    | unmark other => exact absurd hmove (CallMove.not_unmark hw halive)
    | _ => exact hlane
  -- No call readmits a lane, since the snapshot that it writes back is not out of date.
  have hoffers : ∀ lane, ¬ s.mgr.ready.offers lane → ¬ (s.apply effect).mgr.ready.offers lane := by
    intro lane hlane
    cases effect with
    | write ready =>
      obtain ⟨other, snapshot, wait, hpc, -, rfl⟩ := hmove.writes
      rintro ⟨endpoint, hmem, rfl⟩
      exact hlane (hG other snapshot wait hpc endpoint hmem)
    | _ => exact hlane
  refine ⟨fun lane response hmem => ?_, fun c' lane wait hpc' => ?_,
    fun c' lane snapshot wait hpc' => ?_, fun lane hrotating => ?_⟩
  · have hbefore : lane ∈ s.mgr.unavailable ∧ ¬ s.mgr.ready.offers lane := by
      rcases State.mem_apply_queue.mp hmem with hmem | rfl
      · exact hs.queued lane response hmem
      · obtain ⟨⟨wait, hpc⟩, -⟩ := hmove.sends
        exact hs.sending c lane wait hpc
    exact ⟨hmark lane hbefore.1, hoffers lane hbefore.2⟩
  · rw [State.setCall_calls] at hpc'
    split_ifs at hpc'
    · subst hpc'
      obtain ⟨snapshot, hpc, rfl⟩ := hmove.of_rotateSend
      -- The call that moves has just written the list without its own lane.
      exact ⟨hs.filtering c lane snapshot wait hpc, by simp [State.apply]⟩
    · have hbefore := hs.sending c' lane wait (by simpa using hpc')
      exact ⟨hmark lane hbefore.1, hoffers lane hbefore.2⟩
  · rw [State.setCall_calls] at hpc'
    split_ifs at hpc'
    · subst hpc'
      obtain ⟨-, rfl⟩ := hmove.of_rotateWrite
      exact Finset.mem_insert_self lane s.mgr.unavailable
    · exact hmark lane (hs.filtering c' lane snapshot wait (by simpa using hpc'))
  · exact hoffers lane (hs.rotating lane (by simpa using hrotating))

/-- Of an outstanding rotation, a move of the manager that meets the guard keeps the mark. -/
theorem ManagerMove.keeps_mark {a : Action} {lane : LaneId} (hmove : ManagerMove s a t)
    (hG : keepsExcluded s a) (hout : s.Outstanding lane) (hmem : lane ∈ s.mgr.unavailable) :
    lane ∈ t.mgr.unavailable := by
  cases hmove with
  | unmark hpc =>
    refine Finset.mem_erase.mpr ⟨?_, hmem⟩
    rintro rfl
    exact hG.2 _ (by rw [hpc]; rfl) hout
  | renewUnmark hpc =>
    refine Finset.mem_erase.mpr ⟨?_, hmem⟩
    rintro rfl
    exact hG.2 _ (by rw [hpc]; rfl) hout
  | mark => exact Finset.mem_union_left _ hmem
  | _ => exact hmem

/-- A move of the manager that meets the guard does not readmit a marked lane. -/
theorem ManagerMove.not_offers {a : Action} {lane : LaneId} (hmove : ManagerMove s a t)
    (hG : keepsExcluded s a) (hmem : lane ∈ s.mgr.unavailable)
    (hoffers : ¬ s.mgr.ready.offers lane) :
    ¬ t.mgr.ready.offers lane := by
  cases hmove with
  -- A marked lane in the list that is written is offered already.
  | write hpc =>
    rintro ⟨endpoint, hendpoint, rfl⟩
    exact hoffers (hG.1 _ _ _ hpc endpoint hendpoint hmem)
  | clear => exact ReadyLanes.not_offers_nil
  | haltClear => exact ReadyLanes.not_offers_nil
  | _ => exact hoffers

/-- The manager comes to rotate a lane from a command in the queue, and until it publishes, it
leaves the ready list as it is. -/
theorem ManagerMove.rotating {a : Action} {lane : LaneId} (hmove : ManagerMove s a t)
    (hrotating : t.pc.rotating = some lane) :
    s.RotationPending lane ∧ t.mgr.ready = s.mgr.ready := by
  cases hmove with
  | receiveAssign => split_ifs at hrotating <;> simp [ManagerPc.rotating] at hrotating
  | tick => split_ifs at hrotating <;> simp [ManagerPc.rotating] at hrotating
  | retire _ _ _ hpc' => rcases hpc' with rfl | rfl <;> simp [ManagerPc.rotating] at hrotating
  | haltTake _ hpc' => rcases hpc' with rfl | rfl <;> simp [ManagerPc.rotating] at hrotating
  | receiveRotate _ hqueue =>
    obtain rfl := Option.some.inj hrotating
    exact ⟨.inl ⟨_, by rw [hqueue]; exact List.mem_cons_self⟩, rfl⟩
  | receiveRotateError _ hqueue =>
    obtain rfl := Option.some.inj hrotating
    exact ⟨.inl ⟨_, by rw [hqueue]; exact List.mem_cons_self⟩, rfl⟩
  | unmark hpc => exact ⟨.inr (by rw [hpc]; exact hrotating), rfl⟩
  | @compute _ job _ hpc =>
    cases job with
    | rotate => exact ⟨.inr (by rw [hpc]; exact hrotating), rfl⟩
    | _ => simp [ManagerPc.rotating] at hrotating
  | _ => simp [ManagerPc.rotating] at hrotating

/-- A pending rotation's lane is not offered. -/
theorem Excluded.not_offers {lane : LaneId} (hs : Excluded s) (hpending : s.RotationPending lane) :
    ¬ s.mgr.ready.offers lane := by
  rcases hpending with ⟨response, hmem⟩ | hrotating
  · exact (hs.queued lane response hmem).2
  · exact hs.rotating lane hrotating

/-- A move of the manager that meets the guard keeps the pending lanes out. -/
theorem Excluded.manager {a : Action} (hs : Excluded s) (hmove : ManagerMove s a t)
    (hG : keepsExcluded s a) : Excluded t := by
  -- A response moves only calls that are outside of `queue_rotation`.
  have hcalls : ∀ c pc, t.calls c = pc → pc.rotates ≠ none → s.calls c = pc := by
    rintro c pc rfl hpc
    rcases hmove.calls c with heq | ⟨result, hanswered⟩
    · exact heq.symm
    · exact absurd hanswered.rotates.2 hpc
  refine ⟨fun lane response hmem => ?_, fun c lane wait hpc => ?_,
    fun c lane snapshot wait hpc => ?_, fun lane hrotating => ?_⟩
  · have hmem := hmove.queue hmem
    have hbefore := hs.queued lane response hmem
    exact ⟨hmove.keeps_mark hG (.inl ⟨response, hmem⟩) hbefore.1,
      hmove.not_offers hG hbefore.1 hbefore.2⟩
  · have hpc := hcalls c _ hpc (by simp [CallPc.rotates])
    have hbefore := hs.sending c lane wait hpc
    exact ⟨hmove.keeps_mark hG (.inr ⟨c, by rw [hpc]; rfl⟩) hbefore.1,
      hmove.not_offers hG hbefore.1 hbefore.2⟩
  · have hpc := hcalls c _ hpc (by simp [CallPc.rotates])
    exact hmove.keeps_mark hG (.inr ⟨c, by rw [hpc]; rfl⟩) (hs.filtering c lane snapshot wait hpc)
  · obtain ⟨hpending, hready⟩ := hmove.rotating hrotating
    exact hready ▸ hs.not_offers hpending

/-- The pending lanes are kept out as long as the receiver is there. -/
def ExcludedWhileAlive (s : State) : Prop := s.receiverDropped = false → Excluded s

/-- Every step that meets the guard keeps the pending lanes out. -/
theorem ExcludedWhileAlive.step {a : Action} (hw : WellFormed s) (hs : ExcludedWhileAlive s)
    (h : step s a = some t) (hG : keepsExcluded s a) : ExcludedWhileAlive t := by
  intro halive
  rcases step_cases hw h with ⟨c, pc, effect, pc', rfl, hmove, rfl, ha⟩ | hmove
  · have halive : s.receiverDropped = false := by simpa using halive
    refine (hs halive).call hw halive hmove ?_
    rcases ha with ⟨rfl, -⟩ | ⟨hfresh, -⟩
    · exact hG
    · -- A call that has not started has no snapshot to write.
      intro lane snapshot wait hpc
      simp [hfresh] at hpc
  · exact (hs hmove.alive).manager hmove hG

/-- No lane of a pool that has just been spawned is excluded. -/
theorem Init.excluded (hs : Init s) : Excluded s := by
  obtain ⟨config, lanes, runtime, inst, instanceConfig, env, hconfig, hlanes, rfl⟩ := hs
  constructor <;> simp [spawn, ManagerPc.rotating]

/-- In every state that a pool reaches by steps that meet the guard, the ready list contains no
endpoint of a lane with a pending rotation, so that `next` returns none of it, and `for_key` of a
key that is mapped to it returns `LaneUnavailable`. -/
theorem excluded_run (hs : Init s) (h : Reaches step keepsExcluded s t) {lane : LaneId}
    (hpending : t.RotationPending lane) :
    (∀ endpoint ∈ t.mgr.ready, endpoint.lane ≠ lane) ∧
      (∀ cursor endpoint, t.mgr.ready.next cursor = some endpoint → endpoint.lane ≠ lane) ∧
      ∀ c, callStep t c (.forKeyRead lane) =
        some (.none, .done (.selected (.error (.laneUnavailable lane)))) := by
  obtain ⟨hw, hexcluded⟩ : WellFormed t ∧ ExcludedWhileAlive t :=
    h.invariant (I := fun s => WellFormed s ∧ ExcludedWhileAlive s)
      (fun _ _ _ hG hstep ⟨hw, hs⟩ => ⟨hw.step hstep, hs.step hw hstep hG⟩)
      ⟨hs.wellFormed, fun _ => hs.excluded⟩
  have halive : t.receiverDropped = false := by
    -- A manager that has ended has no queue, and rotates nothing.
    by_contra hdropped
    have hdropped : t.receiverDropped = true := by simpa using hdropped
    rcases hpending with ⟨response, hmem⟩ | hrotating
    · simp [hw.dropped hdropped] at hmem
    · cases hpc : t.pc <;> simp [State.receiverDropped, hpc] at hdropped
      simp [hpc, ManagerPc.rotating] at hrotating
  have hoffers := (hexcluded halive).not_offers hpending
  have hselected := ReadyLanes.not_selected hoffers
  exact ⟨fun endpoint hmem hlane => hoffers ⟨endpoint, hmem, hlane⟩, hselected.1,
    fun c => by simp [callStep, hselected.2]⟩

/-- The pool of two lanes while the rotation of its first lane is in the queue. -/
theorem excluded_run_twoLanes :
    ∃ t, Reaches step keepsExcluded twoLanePool t ∧ t.RotationPending ⟨0⟩ ∧
      ∀ endpoint ∈ t.mgr.ready, endpoint.lane ≠ ⟨0⟩ := by
  -- The call starts, reads, marks, writes, and sends. It is alone, and its snapshot is up to date.
  have hrun : Reaches step keepsExcluded twoLanePool _ :=
    ((((Reaches.single (a := .start 0 (.rotate ⟨0⟩ false)) trivial rfl).tail (a := .advance 0)
      (by rintro _ _ _ ⟨⟩) rfl).tail (a := .advance 0)
      (by rintro _ _ _ ⟨⟩) rfl).tail (a := .advance 0)
      (by rintro _ _ _ ⟨⟩; decide) rfl).tail (a := .advance 0)
      (by rintro _ _ _ ⟨⟩) rfl
  refine ⟨_, hrun, ?pending, (excluded_run twoLanePool_init hrun ?pending).1⟩
  exact .inl ⟨none, by decide⟩

/-- Two calls rotate the two lanes of a pool. The second one reads the ready list, marks, writes,
and sends between the read and the mark of the first one, which then writes back its snapshot: the
rotation of lane 1 is in the queue, lane 1 is published, and `next` and `for_key` select it. -/
theorem stale_write_readmits :
    Init twoLanePool ∧
    ∃ t, run step twoLanePool
        [.start 0 (.rotate ⟨0⟩ false), .advance 0, .start 1 (.rotate ⟨1⟩ false), .advance 1,
          .advance 1, .advance 1, .advance 1, .advance 0, .advance 0] = some t ∧
      t.RotationPending ⟨1⟩ ∧ t.mgr.ready.offers ⟨1⟩ ∧
      (t.mgr.ready.next t.cursor).map (·.lane) = some ⟨1⟩ ∧
      (t.mgr.ready.forLane ⟨1⟩).map (·.lane) = some ⟨1⟩ :=
  ⟨twoLanePool_init, _, rfl, .inl ⟨none, by decide⟩, by decide, by decide, by decide⟩

end Torlane
