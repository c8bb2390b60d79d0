import Torlane.Pool.Convergence
import Torlane.Pool.Responses

/-!
# Awaited rotations

`rotate` promises that the lane's new epoch is published when it returns. The manager publishes
before it responds. What can take the lane out of the published list again, before the response
and after it, is a client that writes back a snapshot from before the publication, or a further
rotation of the lane. `keepsPublished` rules out the first one, and the second one up to the
response. `rotate_run` is the result for the runs that meet it, from the call of `rotate` to the
next event that may take the lane away (`Disturbs`), and `stale_write_unpublishes` is a run with a
stale snapshot.
-/

namespace Torlane

open Transition

/-- A rotation of the lane is in the queue, or a call is inside `queue_rotation` for it. -/
def State.Rotating (s : State) (lane : LaneId) : Prop :=
  (∃ response, .rotate lane response ∈ s.queue) ∨ ∃ c, (s.calls c).rotates = some lane

/-- An outstanding rotation is one that is under way. -/
theorem State.Outstanding.rotating {s : State} {lane : LaneId} (h : s.Outstanding lane) :
    s.Rotating lane := h.imp_right fun ⟨c, hmarked⟩ => ⟨c, CallPc.rotates_of_marked hmarked⟩

/-- The step does not unpublish a lane: a client's snapshot contains all that is published of other
lanes, and when the manager responds to a rotation, no other one of the lane is under way. -/
def keepsPublished (s : State) : Action → Prop
  | .advance c =>
    ∀ lane snapshot wait, s.calls c = .rotateWrite lane snapshot wait →
      ∀ endpoint ∈ s.mgr.ready, endpoint.lane ≠ lane → endpoint ∈ snapshot
  | .work _ =>
    ∀ lane c, s.pc = .respond (.rotate lane (some c)) (.ok ()) → ¬ s.Rotating lane
  | _ => True

variable {s t : State} {a : Action}

/-! ## From the rotation to the response -/

/-- The lane that the manager has rotated, with the call that waits for it. -/
def ManagerPc.rotated : ManagerPc → Option (LaneId × Option CallId)
  | .unmark lane response => some (lane, response)
  | .compute (.rotate lane response) (.ok ()) => some (lane, response)
  | .write _ (.rotate lane response) (.ok ()) => some (lane, response)
  | .respond (.rotate lane response) (.ok ()) => some (lane, response)
  | _ => none

/-- What the manager does with a lane that it has rotated: it is ready, and its endpoint is in the
list that the manager writes, and then in the ready list, unless a further rotation is
outstanding. -/
structure Rotated (s : State) : Prop where
  ready : ∀ lane response, s.pc.rotated = some (lane, response) →
    ∃ lane' ∈ s.mgr.lanes, lane'.id = lane ∧ lane'.state = .ready
  writing : ∀ ready lane response, s.pc = .write ready (.rotate lane response) (.ok ()) →
    ∀ lane' ∈ s.mgr.lanes, lane'.id = lane → lane'.endpoint ∈ ready ∨ s.Outstanding lane
  responding : ∀ lane response, s.pc = .respond (.rotate lane response) (.ok ()) →
    ∀ lane' ∈ s.mgr.lanes, lane'.id = lane → lane'.endpoint ∈ s.mgr.ready ∨ s.Outstanding lane

/-- A rotated lane has been taken off the queue in this move, or it was rotated before. -/
theorem ManagerMove.rotated {lane : LaneId} {response : Option CallId} (hmove : ManagerMove s a t)
    (h : t.pc.rotated = some (lane, response)) :
    (∃ rest, s.queue = .rotate lane response :: rest ∧ s.pc = .idle ∧
      ∀ lane' ∈ t.mgr.lanes, lane'.id = lane → lane'.state = .ready ∧
        ∃ lane'' ∈ s.mgr.lanes, lane''.id = lane ∧ lane'.epoch = lane''.epoch + 1) ∨
    (s.pc.rotated = some (lane, response) ∧ t.mgr.lanes = s.mgr.lanes) := by
  cases hmove with
  | @receiveAssign _ _ _ _ _ publish => cases publish <;> simp [ManagerPc.rotated] at h
  | @tick _ _ _ publish => cases publish <;> simp [ManagerPc.rotated] at h
  | retire _ _ _ hpc' => rcases hpc' with rfl | rfl <;> simp [ManagerPc.rotated] at h
  | haltTake _ hpc' => rcases hpc' with rfl | rfl <;> simp [ManagerPc.rotated] at h
  | receiveRotate hpc hqueue _ hready hepoch =>
    obtain ⟨rfl, rfl⟩ : _ = lane ∧ _ = response := by simpa [ManagerPc.rotated] using h
    exact .inl ⟨_, hqueue, hpc, fun lane' hmem hid =>
      ⟨hready lane' hmem hid, hepoch lane' hmem hid⟩⟩
  | unmark hpc => exact .inr ⟨by rw [hpc]; exact h, rfl⟩
  | @compute _ job result hpc =>
    refine .inr ⟨?_, rfl⟩
    rw [hpc]
    cases job <;> cases result <;> exact h
  | @write _ _ job result hpc =>
    refine .inr ⟨?_, rfl⟩
    rw [hpc]
    cases job <;> cases result <;> exact h
  | _ => simp [ManagerPc.rotated] at h

/-- The manager comes to respond to a rotation by writing the ready list. -/
theorem ManagerMove.responding {lane : LaneId} {response : Option CallId}
    (hmove : ManagerMove s a t) (h : t.pc = .respond (.rotate lane response) (.ok ())) :
    ∃ ready, s.pc = .write ready (.rotate lane response) (.ok ()) ∧
      t = { s with
        mgr := { s.mgr with ready }
        pc := .respond (.rotate lane response) (.ok ()) } := by
  cases hmove with
  | @receiveAssign _ _ _ _ _ publish => cases publish <;> simp at h
  | @tick _ _ _ publish => cases publish <;> simp at h
  | retire _ _ _ hpc' => rcases hpc' with rfl | rfl <;> simp at h
  | haltTake _ hpc' => rcases hpc' with rfl | rfl <;> simp at h
  | write hpc => cases h; exact ⟨_, hpc, rfl⟩
  | _ => simp at h

/-- Where the manager has rotated a lane, the receiver is there. -/
theorem alive_of_rotated {lane : LaneId} {response : Option CallId}
    (h : s.pc.rotated = some (lane, response)) : s.receiverDropped = false := by
  cases hpc : s.pc with
  | finished => simp [hpc, ManagerPc.rotated] at h
  | _ => simp [State.receiverDropped, hpc]

/-- A move of a call that meets the guard leaves a rotated lane where it is. -/
theorem Rotated.call {c : CallId} {effect : Effect} {pc' : CallPc} (hs : Rotated s)
    (hmove : CallMove s c (s.calls c) effect pc') (hG : keepsPublished s (.advance c)) :
    Rotated ((s.apply effect).setCall c pc') := by
  refine ⟨by simpa using hs.ready, fun ready lane response hpc lane' hmem hid => ?_,
    fun lane response hpc lane' hmem hid => ?_⟩
  · rw [State.setCall_pc, State.apply_pc] at hpc
    exact (hs.writing ready lane response hpc lane' (by simpa using hmem) hid).imp_right
      fun hout => hout.call (alive_of_rotated (by rw [hpc]; rfl)) hmove
  · rw [State.setCall_pc, State.apply_pc] at hpc
    have halive : s.receiverDropped = false := alive_of_rotated (by rw [hpc]; rfl)
    rcases hs.responding lane response hpc lane' (by simpa using hmem) hid with hready | hout
    · cases effect with
      | write ready =>
        obtain ⟨lane'', snapshot, wait, hcall, rfl, rfl⟩ := hmove.writes
        -- A client that filters the lane out has a rotation of it outstanding.
        by_cases hlane : lane'' = lane
        · exact .inr (.inr ⟨c, by simp [State.setCall_calls, CallPc.marked, hlane]⟩)
        · have hne : lane'.endpoint.lane ≠ lane'' := by simpa [hid] using Ne.symm hlane
          exact .inl (ReadyLanes.mem_without.mpr ⟨hG lane'' snapshot wait hcall _ hready hne, hne⟩)
      | _ => exact .inl hready
    · exact .inr (hout.call halive hmove)

/-- A move of the manager leaves a rotated lane where it is, or publishes it. -/
theorem Rotated.manager (hw : WellFormed s) (hw' : WellFormed t)
    (hconfig : t.mgr.config = s.mgr.config) (hu : Unstuck s) (hs : Rotated s)
    (hmove : ManagerMove s a t) : Rotated t := by
  refine ⟨fun lane response h => ?_, fun ready lane response hpc lane' hmem hid => ?_,
    fun lane response hpc lane' hmem hid => ?_⟩
  · rcases hmove.rotated h with ⟨rest, hqueue, -, hready⟩ | ⟨hrotated, hlanes⟩
    · have hlane := hw.queued lane response (by rw [hqueue]; exact List.mem_cons_self)
      obtain ⟨lane', hmem, hid⟩ := hw'.numbered.exists_lane (hconfig ▸ hlane)
      exact ⟨lane', hmem, hid, (hready lane' hmem hid).1⟩
    · exact hlanes ▸ hs.ready lane response hrotated
  · obtain ⟨hbefore, rfl, rfl⟩ := hmove.writing hpc
    obtain ⟨lane'', hmem'', hid'', hready⟩ := hs.ready lane response (by rw [hbefore]; rfl)
    obtain rfl : lane' = lane'' := hw.numbered.eq_of_id hmem hmem'' (hid.trans hid''.symm)
    -- The manager has taken the mark back; where it is there again, a further rotation has set it.
    by_cases hunavailable : lane'.id ∈ s.mgr.unavailable
    · rcases hu lane' hmem hready hunavailable with hout | hrepairs
      · exact .inr (hid ▸ hout)
      · rw [hbefore] at hrepairs
        exact hrepairs.elim
    · refine .inl (List.mem_map_of_mem (List.mem_filter.mpr ⟨hmem, ?_⟩))
      simpa using ⟨hready, hunavailable⟩
  · obtain ⟨ready, hbefore, rfl⟩ := hmove.responding hpc
    exact hs.writing ready lane response hbefore lane' hmem hid

/-- What holds in every state of a run whose steps meet the guard. -/
structure Completing (s : State) : Prop where
  converging : Converging s
  known : EndpointsKnown s
  responsive : Responsive s
  rotated : Rotated s

/-- Every step that meets the guard keeps the pool completing its rotations. -/
theorem Completing.step (hs : Completing s) (h : step s a = some t) (hG : keepsPublished s a) :
    Completing t := by
  obtain ⟨hc, hk, hr, hrot⟩ := hs
  have hw := hc.wellFormed
  refine ⟨hc.step h, hk.step hw h, hr.step hw h, ?_⟩
  rcases step_cases hw h with ⟨c, pc, effect, pc', rfl, hmove, rfl, ha⟩ | hmove
  · refine hrot.call hmove ?_
    rcases ha with ⟨rfl, -⟩ | ⟨hfresh, -⟩
    · exact hG
    -- A call that has not started has no snapshot to write.
    · intro lane snapshot wait hpc
      simp [hfresh] at hpc
  · exact hrot.manager hw (hw.step h) (config_eq hw h) (hc.settled hmove.alive).1 hmove

/-- A pool that has just been spawned has rotated no lane. -/
theorem Init.completing (hs : Init s) : Completing s := by
  refine ⟨hs.converging, hs.endpointsKnown, hs.responsive, ?_⟩
  obtain ⟨config, lanes, runtime, inst, instanceConfig, env, hconfig, hlanes, rfl⟩ := hs
  exact ⟨by simp [spawn, ManagerPc.rotated], by simp [spawn], by simp [spawn]⟩

/-! ## The waiting call -/

/-- The call is an awaited rotation of the lane that has not returned `Ok`. -/
def CallPc.Awaits (lane : LaneId) : CallPc → Prop
  | .rotateRead lane' wait => lane' = lane ∧ wait = true
  | .rotateMark lane' _ wait => lane' = lane ∧ wait = true
  | .rotateWrite lane' _ wait => lane' = lane ∧ wait = true
  | .rotateSend lane' wait => lane' = lane ∧ wait = true
  | .rotateUndo _ => True
  | .rotateWait lane' => lane' = lane
  | .returning outcome => outcome.isError
  | .done outcome => outcome.isError
  | _ => False

/-- A call of `rotate` begins as an awaited rotation. -/
theorem awaits_of_start {lane : LaneId} : (startCall s (.rotate lane true)).2.Awaits lane := by
  simp only [startCall]
  split_ifs
  · exact ⟨_, rfl⟩
  · exact ⟨_, rfl⟩
  · exact ⟨rfl, rfl⟩

/-- A call that awaits a rotation goes on to await it, or returns an error. -/
theorem CallMove.awaits {c : CallId} {pc pc' : CallPc} {effect : Effect} {lane : LaneId}
    (h : CallMove s c pc effect pc') (hawaits : pc.Awaits lane) : pc'.Awaits lane := by
  cases h with
  | giveUp _ herror => exact herror
  | rotateQueue => simp [CallPc.Awaits] at hawaits
  | rotateUndo => exact ⟨_, rfl⟩
  | _ => simp_all [CallPc.Awaits]

/-- An answer lets a call that awaits a rotation return an error, or the call returns `Ok`. -/
theorem Answered.awaits {result : Except Error Unit} {pc pc' : CallPc} {lane : LaneId}
    (h : Answered result pc pc') (hawaits : pc.Awaits lane) :
    pc'.Awaits lane ∨ (pc = .rotateWait lane ∧ result = .ok ()) := by
  cases h with
  | rotate =>
    cases result with
    | ok => exact .inr ⟨congrArg CallPc.rotateWait hawaits, rfl⟩
    | error error => exact .inl ⟨error, rfl⟩
  | restart => exact hawaits.elim
  | shutdown => exact hawaits.elim

/-- A call that awaits a rotation returns `Ok` only when the manager responds to this rotation. -/
theorem ManagerMove.completes {c : CallId} {lane : LaneId} (hr : Responsive s)
    (hmove : ManagerMove s a t) (hawaits : (s.calls c).Awaits lane) :
    (t.calls c).Awaits lane ∨
      ∃ env, a = .work env ∧ s.pc = .respond (.rotate lane (some c)) (.ok ()) := by
  rcases hmove.answers c with heq | ⟨pc, -, howed, -⟩
  · exact .inl (heq ▸ hawaits)
  · have hwaits : s.calls c = pc := hr.waits (c, pc) (List.mem_append_left _ (by simp [howed]))
    cases hmove with
    | @respond _ job result calls hpc hcalls =>
      rcases hcalls c with heq | ⟨-, hanswered⟩
      · left
        change (calls c).Awaits lane
        exact heq ▸ hawaits
      · refine (hanswered.awaits hawaits).imp_right fun ⟨hwait, hresult⟩ => ⟨_, rfl, ?_⟩
        rw [hpc, hresult]
        rw [hpc, ← hwaits, hwait] at howed
        cases job with
        | rotate lane' response =>
          obtain ⟨c', rfl, heq⟩ := Option.map_eq_some_iff.mp howed
          cases heq
          rfl
        | _ => cases howed
    | haltRespond hpc =>
      rw [hpc] at howed
      cases howed
      rw [hwaits] at hawaits
      exact hawaits.elim
    | _ => exact .inl hawaits

/-- The lane is not behind an earlier epoch, and it is ahead of it once the manager has rotated it
for the call. -/
structure Ahead (lane : LaneId) (c : CallId) (epoch : ℕ) (s : State) : Prop where
  lanes : ∀ lane' ∈ s.mgr.lanes, lane'.id = lane → epoch ≤ lane'.epoch
  rotated : s.pc.rotated = some (lane, some c) →
    ∀ lane' ∈ s.mgr.lanes, lane'.id = lane → epoch < lane'.epoch

/-- Every step keeps the lane ahead. -/
theorem Ahead.step {lane : LaneId} {c : CallId} {epoch : ℕ} (hw : WellFormed s)
    (hs : Ahead lane c epoch s) (h : step s a = some t) : Ahead lane c epoch t := by
  rcases step_cases hw h with ⟨c', pc, effect, pc', -, -, rfl, -⟩ | hmove
  · exact ⟨by simpa using hs.lanes, by simpa using hs.rotated⟩
  · refine ⟨fun lane' hmem hid => ?_, fun hrotated lane' hmem hid => ?_⟩
    · obtain ⟨cause, hmoves⟩ := hmove.lanes
      obtain ⟨lane'', hmem'', hmove'⟩ := hmoves.of_mem hmem
      exact (hs.lanes lane'' hmem'' (hmove'.id_eq ▸ hid)).trans hmove'.epoch_le
    -- The rotation itself takes the lane one epoch further.
    · rcases hmove.rotated hrotated with ⟨-, -, -, hready⟩ | ⟨hrotated, hlanes⟩
      · obtain ⟨-, lane'', hmem'', hid'', hepoch⟩ := hready lane' hmem hid
        have := hs.lanes lane'' hmem'' hid''
        omega
      · exact hs.rotated hrotated lane' (hlanes ▸ hmem) hid

/-- For a call that has not started, the manager has rotated no lane. -/
theorem ahead_of_fresh {lane : LaneId} {c : CallId} {epoch : ℕ} (hr : Responsive s)
    (hfresh : s.calls c = .fresh)
    (hlanes : ∀ lane' ∈ s.mgr.lanes, lane'.id = lane → epoch ≤ lane'.epoch) :
    Ahead lane c epoch s := by
  refine ⟨hlanes, fun hrotated => ?_⟩
  -- A response for this call would be owed to a call that waits.
  have howed : s.pc.owed = some (c, .rotateWait lane) := by
    generalize s.pc = pc at hrotated
    cases pc with
    | unmark => cases hrotated; rfl
    | compute job result => cases job <;> cases result <;> cases hrotated; rfl
    | write ready job result => cases job <;> cases result <;> cases hrotated; rfl
    | respond job result => cases job <;> cases result <;> cases hrotated; rfl
    | _ => cases hrotated
  have hwaits := hr.waits (c, .rotateWait lane) (List.mem_append_left _ (by simp [howed]))
  simp [hfresh] at hwaits

/-! ## After the response -/

/-- The step begins something that may take the lane away: a call of `rotate` on it, a rotation of
it by its assignment limit or its age, a restart, or a shutdown. -/
def Disturbs (lane : LaneId) (s : State) : Action → Prop
  | .start _ op => ∃ wait, op = .rotate lane wait
  | .receive env =>
    ∃ command rest, s.queue = command :: rest ∧
      match command with
      | .assign id epoch => id = lane ∧ (s.mgr.assignLanes env id epoch).2 = true
      | .rotate _ _ => False
      | .restart _ => True
      | .shutdown _ => True
  | .tick env =>
    ∃ ttl, s.mgr.config.rotation.duration = some ttl ∧
      ∃ lane' ∈ s.mgr.lanes, lane'.id = lane ∧ ManagerState.expired ttl env lane'
  | _ => False

/-- The manager is not in a restart or in a shutdown. -/
def ManagerPc.calm : ManagerPc → Bool
  | .idle => true
  | .unmark _ _ => true
  | .compute _ _ => true
  | .write _ _ _ => true
  | .respond _ _ => true
  | _ => false

/-- A lane's endpoint is published, and nothing is under way that takes it away. -/
structure Stays (endpoint : LaneEndpoint) (s : State) : Prop where
  lane : ∃ lane ∈ s.mgr.lanes, lane.endpoint = endpoint ∧ lane.state = .ready
  unmarked : endpoint.lane ∉ s.mgr.unavailable
  alone : ¬ s.Rotating endpoint.lane
  calm : s.pc.calm = true
  writing : ∀ ready job result, s.pc = .write ready job result → endpoint ∈ ready
  ready : endpoint ∈ s.mgr.ready

variable {endpoint : LaneEndpoint}

/-- A move of a call leaves the endpoint published, if it does not begin a rotation of the lane. -/
theorem Stays.call {c : CallId} {effect : Effect} {pc' : CallPc} (hs : Stays endpoint s)
    (hmove : CallMove s c (s.calls c) effect pc') (hG : keepsPublished s (.advance c))
    (hstart : s.calls c = .fresh → pc'.rotates ≠ some endpoint.lane) :
    Stays endpoint ((s.apply effect).setCall c pc') := by
  -- No call is inside `queue_rotation` for this lane.
  have halone : ∀ c' lane, (s.calls c').rotates = some lane → lane ≠ endpoint.lane := by
    rintro c' lane hrotates rfl
    exact hs.alone (.inr ⟨c', hrotates⟩)
  refine ⟨by simpa using hs.lane, fun hmem => ?_, fun hrotating => ?_, by simpa using hs.calm,
    by simpa using hs.writing, ?_⟩
  · cases effect with
    | mark lane =>
      obtain ⟨snapshot, wait, hpc, -⟩ := hmove.marks
      rcases Finset.mem_insert.mp hmem with heq | hmem
      · exact halone c lane (by rw [hpc]; rfl) heq.symm
      · exact hs.unmarked hmem
    | unmark lane => exact hs.unmarked (Finset.mem_of_mem_erase hmem)
    | _ => exact hs.unmarked hmem
  · rcases hrotating with ⟨response, hmem⟩ | ⟨c', hrotates⟩
    · rcases State.mem_apply_queue.mp hmem with hmem | rfl
      · exact hs.alone (.inl ⟨response, hmem⟩)
      · obtain ⟨⟨wait, hpc⟩, -⟩ := hmove.sends
        exact halone c endpoint.lane (by rw [hpc]; rfl) rfl
    · rw [State.setCall_calls] at hrotates
      split_ifs at hrotates with hc
      · rcases hmove.rotates hrotates with hbefore | ⟨hfresh, -⟩
        · exact halone c endpoint.lane hbefore rfl
        · exact hstart hfresh hrotates
      · exact halone c' endpoint.lane (by simpa using hrotates) rfl
  · cases effect with
    | write ready =>
      obtain ⟨lane, snapshot, wait, hpc, -, rfl⟩ := hmove.writes
      -- The snapshot that is written back is filtered by another lane, and is up to date.
      have hne : endpoint.lane ≠ lane := (halone c lane (by rw [hpc]; rfl)).symm
      exact ReadyLanes.mem_without.mpr ⟨hG lane snapshot wait hpc endpoint hs.ready hne, hne⟩
    | _ => exact hs.ready

/-- A ready lane keeps its endpoint where an update does not select it. -/
theorem LaneMove.keeps_ready {runtime : RuntimeState} {cause : Cause} {lane lane' : Lane}
    (hmove : LaneMove runtime cause lane lane') (hselects : ¬ cause.selects lane)
    (hcause : cause ≠ .disable) (hready : lane.state = .ready) :
    lane'.endpoint = lane.endpoint ∧ lane'.state = .ready := by
  cases hmove with
  | same eq => exact ⟨congrArg _ eq, eq ▸ hready⟩
  | counted _ selected => exact absurd selected hselects
  | renewed selected => exact absurd selected hselects
  | disabled selected => exact absurd (selected.resolve_right hcause) hselects

/-- The endpoint of a lane that is not disturbed is not replaced when the manager takes a message
off the queue, or when its timer fires. -/
theorem ManagerMove.keeps_lane (hw : WellFormed s) (hmove : ManagerMove s a t)
    (halone : ¬ s.Rotating endpoint.lane) (hcalm : t.pc.calm = true)
    (hD : ¬ Disturbs endpoint.lane s a) (hcalm' : s.pc.calm = true)
    (hlane : ∃ lane ∈ s.mgr.lanes, lane.endpoint = endpoint ∧ lane.state = .ready) :
    ∃ lane ∈ t.mgr.lanes, lane.endpoint = endpoint ∧ lane.state = .ready := by
  obtain ⟨lane, hmem, rfl, hready⟩ := hlane
  rw [lane.endpoint_lane] at halone hD
  -- A rotation that is taken off the queue is of another lane.
  have hrotate {id : LaneId} {response : Option CallId} {rest : List ManagerCommand}
      (hqueue : s.queue = .rotate id response :: rest) : lane.id ≠ id := by
    rintro rfl
    exact halone (.inl ⟨response, by rw [hqueue]; exact List.mem_cons_self⟩)
  -- An update that does not select the lane leaves it ready, with its endpoint.
  have hkeep {cause : Cause} {lanes : List Lane}
      (hmoves : LaneMoves s.mgr.runtime cause s.mgr.lanes lanes) (hselects : ¬ cause.selects lane)
      (hcause : cause ≠ .disable) :
      ∃ lane' ∈ lanes, lane'.endpoint = lane.endpoint ∧ lane'.state = .ready := by
    obtain ⟨lane', hmem', hmove'⟩ := hmoves.exists_mem hmem
    exact ⟨lane', hmem', hmove'.keeps_ready hselects hcause hready⟩
  cases hmove with
  | @receiveAssign env id epoch rest lanes publish _ hqueue heq hmoves =>
    cases publish with
    | true =>
      refine hkeep hmoves (fun hselects => hD ⟨_, _, hqueue, hselects.1.symm, ?_⟩) (by simp)
      rw [heq]
    | false =>
      -- Without a publication, there is the same to publish as before.
      have hpublish : lane.endpoint ∈ readyLanes s.mgr.lanes ∅ :=
        List.mem_map_of_mem (List.mem_filter.mpr ⟨hmem, by simpa using hready⟩)
      rw [← ManagerState.assignLanes_quiet hw.numbered heq ∅] at hpublish
      obtain ⟨lane', hmem', hready', heq'⟩ := live_of_mem_readyLanes hpublish
      exact ⟨lane', hmem', heq'.symm, hready'⟩
  | receiveRotate _ hqueue hmoves => exact hkeep hmoves (hrotate hqueue) (by simp)
  | receiveRotateError _ hqueue hmoves => exact hkeep hmoves (hrotate hqueue) (by simp)
  | @tick env _ lanes publish _ heq =>
    refine ⟨lane, ManagerState.mem_expireLanes heq hmem fun ttl httl hexpired => ?_, rfl, hready⟩
    exact hD ⟨ttl, httl, lane, hmem, rfl, hexpired⟩
  | retire hpc => simp [hpc, ManagerPc.calm] at hcalm'
  | startError hpc => simp [hpc, ManagerPc.calm] at hcalm'
  | renew hpc => simp [hpc, ManagerPc.calm] at hcalm'
  | renewError hpc => simp [hpc, ManagerPc.calm] at hcalm'
  | _ => exact ⟨lane, hmem, rfl, hready⟩

/-- A manager that is not disturbed does not begin a restart or a shutdown. -/
theorem ManagerMove.calm {lane : LaneId} (hmove : ManagerMove s a t) (hcalm : s.pc.calm = true)
    (hD : ¬ Disturbs lane s a) : t.pc.calm = true := by
  cases hmove with
  | @receiveAssign _ _ _ _ _ publish => cases publish <;> rfl
  | @tick _ _ _ publish => cases publish <;> rfl
  -- A restart and a shutdown begin when their command is taken off the queue.
  | receiveRestart _ hqueue => exact absurd ⟨_, _, hqueue, trivial⟩ hD
  | receiveShutdown _ hqueue => exact absurd ⟨_, _, hqueue, trivial⟩ hD
  | receiveRotate => rfl
  | receiveRotateError => rfl
  | refuseRestart => rfl
  | unmark => rfl
  | compute => rfl
  | write => rfl
  | respond => rfl
  | _ => simp_all [ManagerPc.calm]

/-- A calm manager does not mark a lane. -/
theorem ManagerMove.unmarked {lane : LaneId} (hmove : ManagerMove s a t) (hcalm : s.pc.calm = true)
    (hlane : lane ∉ s.mgr.unavailable) : lane ∉ t.mgr.unavailable := by
  cases hmove with
  | unmark => exact fun hmem => hlane (Finset.mem_of_mem_erase hmem)
  | mark hpc => simp [hpc, ManagerPc.calm] at hcalm
  | renewUnmark => exact fun hmem => hlane (Finset.mem_of_mem_erase hmem)
  | _ => exact hlane

/-- A move of the manager begins no rotation that was not under way. -/
theorem ManagerMove.rotating_of {lane : LaneId} (hmove : ManagerMove s a t) (h : t.Rotating lane) :
    s.Rotating lane := by
  rcases h with ⟨response, hmem⟩ | ⟨c, hrotates⟩
  · exact .inl ⟨response, hmove.queue hmem⟩
  · rcases hmove.calls c with heq | ⟨result, hanswered⟩
    · exact .inr ⟨c, heq ▸ hrotates⟩
    · simp [hanswered.rotates.2] at hrotates

/-- A move of the manager leaves the endpoint published, if it does not disturb the lane. -/
theorem Stays.manager (hw : WellFormed s) (hs : Stays endpoint s) (hmove : ManagerMove s a t)
    (hD : ¬ Disturbs endpoint.lane s a) : Stays endpoint t := by
  have hcalm := hmove.calm hs.calm hD
  refine ⟨hmove.keeps_lane hw hs.alone hcalm hD hs.calm hs.lane, hmove.unmarked hs.calm hs.unmarked,
    fun h => hs.alone (hmove.rotating_of h), hcalm, fun ready job result hpc => ?_, ?_⟩
  · obtain ⟨-, -, rfl⟩ := hmove.writing hpc
    obtain ⟨lane, hmem, rfl, hready⟩ := hs.lane
    have hunmarked := hs.unmarked
    rw [lane.endpoint_lane] at hunmarked
    exact List.mem_map_of_mem (List.mem_filter.mpr ⟨hmem, by simpa using ⟨hready, hunmarked⟩⟩)
  · cases hmove with
    | write hpc => exact hs.writing _ _ _ hpc
    | clear => simp [ManagerPc.calm] at hcalm
    | haltClear => simp [ManagerPc.calm] at hcalm
    | _ => exact hs.ready

/-- A call that starts to rotate a lane is a call of `rotate` on it. -/
theorem rotates_of_start {op : Op} {lane : LaneId} (h : (startCall s op).2.rotates = some lane) :
    ∃ wait, op = .rotate lane wait := by
  cases op with
  | rotate lane' wait =>
    simp only [startCall] at h
    split_ifs at h
    · simp [CallPc.rotates] at h
    · simp [CallPc.rotates] at h
    · exact ⟨wait, congrArg (Op.rotate · wait) (Option.some.inj h)⟩
  | shutdown => simp only [startCall] at h; split_ifs at h <;> simp [CallPc.rotates] at h
  | _ => simp only [startCall] at h; split_ifs at h <;> simp [CallPc.rotates] at h

/-- Every step that meets the guard and does not disturb the lane leaves its endpoint published. -/
theorem Stays.step (hw : WellFormed s) (hs : Stays endpoint s) (h : step s a = some t)
    (hG : keepsPublished s a) (hD : ¬ Disturbs endpoint.lane s a) : Stays endpoint t := by
  rcases step_cases hw h with ⟨c, pc, effect, pc', rfl, hmove, rfl, ha⟩ | hmove
  · rcases ha with ⟨rfl, hstep⟩ | ⟨hfresh, op, rfl, hstart⟩
    · refine hs.call hmove hG fun hfresh => ?_
      rw [hfresh] at hstep
      cases hstep
    · refine hs.call hmove (fun lane snapshot wait hpc => ?_) fun _ hrotates => hD ?_
      · simp [hfresh] at hpc
      · exact rotates_of_start (s := s) (by rw [hstart]; exact hrotates)
  · exact hs.manager hw hmove hD

/-- When the manager responds to a rotation of which no other one is under way, the lane's
endpoint is published, and nothing is under way that takes it away. -/
theorem Completing.stays {lane : LaneId} {response : Option CallId} (hs : Completing s)
    (hpc : s.pc = .respond (.rotate lane response) (.ok ())) (halone : ¬ s.Rotating lane) :
    ∃ lane' ∈ s.mgr.lanes, lane'.id = lane ∧ Stays lane'.endpoint s := by
  obtain ⟨lane', hmem, rfl, hready⟩ := hs.rotated.ready lane response (by rw [hpc]; rfl)
  have hnot : ¬ s.Outstanding lane'.id := fun hout => halone hout.rotating
  have hpublished : lane'.endpoint ∈ s.mgr.ready :=
    (hs.rotated.responding _ response hpc lane' hmem rfl).resolve_right hnot
  have hunmarked : lane'.id ∉ s.mgr.unavailable := by
    intro hunavailable
    obtain ⟨hunstuck, -⟩ := hs.converging.settled (alive_of_rotated (by rw [hpc]; rfl))
    rcases hunstuck lane' hmem hready hunavailable with hout | hrepairs
    · exact hnot hout
    · rw [hpc] at hrepairs
      exact hrepairs.elim
  exact ⟨lane', hmem, rfl, ⟨lane', hmem, rfl, hready⟩, by simpa using hunmarked,
    by simpa using halone, by rw [hpc]; rfl, by simp [hpc], hpublished⟩

/-- An epoch that some lane has reached is not ahead of the lane later on. -/
theorem epoch_le_run {G : State → Action → Prop} {lane : LaneId} {epoch : ℕ} (hw : WellFormed s)
    (h : Reaches step G s t)
    (hlanes : ∀ lane' ∈ s.mgr.lanes, lane'.id = lane → epoch ≤ lane'.epoch) :
    ∀ lane' ∈ t.mgr.lanes, lane'.id = lane → epoch ≤ lane'.epoch := by
  refine h.invariant_of (J := WellFormed)
    (I := fun s => ∀ lane' ∈ s.mgr.lanes, lane'.id = lane → epoch ≤ lane'.epoch)
    (fun _ _ _ _ hstep hw => hw.step hstep) (fun s a t _ hstep hw hs => ?_) hw hlanes
  rcases step_cases hw hstep with ⟨c, pc, effect, pc', -, -, rfl, -⟩ | hmove
  · simpa using hs
  · obtain ⟨cause, hmoves⟩ := hmove.lanes
    intro lane' hmem hid
    obtain ⟨lane'', hmem'', hmove'⟩ := hmoves.of_mem hmem
    exact (hs lane'' hmem'' (hmove'.id_eq ▸ hid)).trans hmove'.epoch_le

/-- The pool that is reached by steps that meet the guard is completing its rotations. -/
theorem completing_run (hs : Completing s) (h : Reaches step keepsPublished s t) : Completing t :=
  h.invariant (fun _ _ _ hG hstep hs => hs.step hstep hG) hs

/-- A call that awaits a rotation still does so later on, or it has returned an error, or the
manager has responded to the rotation in a state that the run has passed through. -/
theorem awaits_or_responded {c : CallId} {lane : LaneId} (hs : Completing s)
    (hawaits : (s.calls c).Awaits lane) (h : Reaches step keepsPublished s t) :
    (t.calls c).Awaits lane ∨
      ∃ u, Reaches step keepsPublished s u ∧ Reaches step keepsPublished u t ∧
        u.pc = .respond (.rotate lane (some c)) (.ok ()) ∧ ¬ u.Rotating lane := by
  induction h with
  | refl => exact .inl hawaits
  | @tail t v hrun hnext ih =>
    obtain ⟨a, hG, hstep⟩ := hnext
    have ht := completing_run hs hrun
    rcases ih with hawaits | ⟨u, hbefore, hafter, hu⟩
    · rcases step_cases ht.converging.wellFormed hstep with
        ⟨c', pc, effect, pc', rfl, hmove, rfl, -⟩ | hmove
      · left
        rw [State.setCall_calls]
        split_ifs with hc
        · exact hmove.awaits (hc ▸ hawaits)
        · simpa using hawaits
      -- If the call gets an `Ok` here, this is the state in which the manager responds.
      · rcases hmove.completes ht.responsive hawaits with hawaits | ⟨env, rfl, hpc⟩
        · exact .inl hawaits
        · exact .inr ⟨t, hrun, .single hG hstep, hpc, hG lane c hpc⟩
    · exact .inr ⟨u, hbefore, hafter.tail hG hstep, hu⟩

/-- In every run of a pool whose steps meet the guard: when a call of `rotate` returns `Ok`, the
manager has responded to it in a state in which the lane's endpoint is published, at an epoch after
all those of the lane that were published before the call. From that state on, the endpoint stays
published until a step disturbs the lane. -/
theorem rotate_run {s₁ s₂ : State} {c : CallId} {lane : LaneId} (hs : Init s)
    (h₁ : Reaches step keepsPublished s s₁)
    (hcall : step s₁ (.start c (.rotate lane true)) = some s₂)
    (h₂ : Reaches step keepsPublished s₂ t)
    (hreturn : t.calls c = .returning (.rotated lane (.ok ())) ∨
      t.calls c = .done (.rotated lane (.ok ()))) :
    ∃ u, Reaches step keepsPublished s₂ u ∧ Reaches step keepsPublished u t ∧
      u.pc = .respond (.rotate lane (some c)) (.ok ()) ∧
      ∃ endpoint ∈ u.mgr.ready, endpoint.lane = lane ∧
        (∀ v, Reaches step keepsPublished s v → Reaches step keepsPublished v s₁ →
          ∀ earlier ∈ v.mgr.ready, earlier.lane = lane → earlier.epoch < endpoint.epoch) ∧
        ∀ v, Reaches step (fun s a => keepsPublished s a ∧ ¬ Disturbs lane s a) u v →
          endpoint ∈ v.mgr.ready := by
  have hc₁ := completing_run hs.completing h₁
  have hc₂ := hc₁.step hcall trivial
  have hfresh : s₁.calls c = .fresh := by
    simp only [Torlane.step] at hcall
    split at hcall
    · next hfresh => exact hfresh
    · cases hcall
  have hawaits : (s₂.calls c).Awaits lane := by
    have heq : (s₁.apply (startCall s₁ (.rotate lane true)).1).setCall c
        (startCall s₁ (.rotate lane true)).2 = s₂ := by
      simpa [Torlane.step, hfresh] using hcall
    rw [← heq, State.setCall_calls, if_pos rfl]
    exact awaits_of_start
  rcases awaits_or_responded hc₂ hawaits h₂ with hawaits | ⟨u, hbefore, hafter, hpc, halone⟩
  · -- The call has returned `Ok`, and so it does not wait for it any more.
    rcases hreturn with hreturn | hreturn <;>
      simp [hreturn, CallPc.Awaits, Outcome.isError] at hawaits
  · have hu := completing_run hc₂ hbefore
    obtain ⟨lane', hmem, rfl, hstays⟩ := hu.stays hpc halone
    refine ⟨u, hbefore, hafter, hpc, lane'.endpoint, hstays.ready, lane'.endpoint_lane, ?_, ?_⟩
    · intro v hv hv₁ earlier hearlier hlane
      have hcv := completing_run hs.completing hv
      have hwv := hcv.converging.wellFormed
      obtain ⟨lane'', hmem'', hid'', hepoch⟩ := (hcv.known.ready earlier hearlier).epoch_le
      -- The lane was at this epoch at least when the call started, and the rotation is later.
      have hv : ∀ lane ∈ v.mgr.lanes, lane.id = lane'.id → earlier.epoch ≤ lane.epoch := by
        intro lane hlane' hid
        rw [hwv.numbered.eq_of_id hlane' hmem'' (hid.trans (hlane.symm.trans hid''.symm))]
        exact hepoch
      have hahead : Ahead lane'.id c earlier.epoch s₁ :=
        ahead_of_fresh hc₁.responsive hfresh (epoch_le_run hwv hv₁ hv)
      have hahead : Ahead lane'.id c earlier.epoch u :=
        ((Reaches.single trivial hcall).trans hbefore).invariant_of (J := Completing)
          (fun _ _ _ hG hstep hJ => hJ.step hstep hG)
          (fun _ _ _ _ hstep hJ hI => hI.step hJ.converging.wellFormed hstep) hc₁ hahead
      rw [lane'.endpoint_epoch]
      exact hahead.rotated (by rw [hpc]; rfl) lane' hmem rfl
    · intro v hv
      refine (hv.invariant_of (J := Completing) (I := Stays lane'.endpoint)
        (fun _ _ _ hG hstep hJ => hJ.step hstep hG.1)
        (fun _ _ _ hG hstep hJ hI => hI.step hJ.converging.wellFormed hstep hG.1 ?_)
        hu hstays).ready
      rw [lane'.endpoint_lane]
      exact hG.2

/-- The pool of two lanes when a rotation of its first lane has been called. -/
def twoLaneRotation : State := twoLanePool.setCall 0 (.rotateRead ⟨0⟩ true)

/-- The rotation of the first lane of the pool of two lanes, which no other call interferes with. -/
theorem rotate_run_twoLanes :
    ∃ t u, Reaches step keepsPublished twoLanePool t ∧ Reaches step keepsPublished u t ∧
      t.calls 0 = .returning (.rotated ⟨0⟩ (.ok ())) ∧
      ∃ endpoint ∈ u.mgr.ready, endpoint.lane = ⟨0⟩ ∧
        ∀ earlier ∈ twoLanePool.mgr.ready, earlier.lane = ⟨0⟩ → earlier.epoch < endpoint.epoch := by
  have hcall : step twoLanePool (.start 0 (.rotate ⟨0⟩ true)) = some twoLaneRotation := rfl
  have hrun : Reaches step keepsPublished twoLaneRotation _ :=
    ((((((((Reaches.single (a := .advance 0) (by rintro _ _ _ ⟨⟩) rfl).tail (a := .advance 0)
      (by rintro _ _ _ ⟨⟩) rfl).tail (a := .advance 0)
      (by rintro _ _ _ ⟨⟩; decide) rfl).tail (a := .advance 0)
      (by rintro _ _ _ ⟨⟩) rfl).tail (a := .receive twoLaneEnv) trivial rfl).tail
      (a := .work twoLaneEnv) (by rintro _ _ ⟨⟩) rfl).tail (a := .work twoLaneEnv)
      (by rintro _ _ ⟨⟩) rfl).tail (a := .work twoLaneEnv) (by rintro _ _ ⟨⟩) rfl).tail
      (a := .work twoLaneEnv) (by
        -- When the manager responds, the queue is empty, and no call is inside `queue_rotation`.
        rintro _ _ ⟨⟩ (⟨response, hmem⟩ | ⟨c, hrotates⟩)
        · cases hmem
        · match c with
          | 0 => cases hrotates
          | c + 1 => cases hrotates) rfl
  obtain ⟨u, -, hafter, -, endpoint, hmem, hlane, hearlier, -⟩ :=
    rotate_run twoLanePool_init .refl hcall hrun (.inl rfl)
  exact ⟨_, u, (Reaches.single trivial hcall).trans hrun, hafter, rfl, endpoint, hmem, hlane,
    hearlier twoLanePool .refl .refl⟩

/-- Two calls rotate the two lanes of a pool. One has taken lane 1 off the list when the other one
reads it, and this snapshot is written back when the manager has published lane 1: when the manager
responds to the rotation of lane 1, and the call returns `Ok`, the list is empty. -/
theorem stale_write_unpublishes :
    Init twoLanePool ∧
    ∃ u t, run step twoLanePool
        [.start 1 (.rotate ⟨1⟩ true), .advance 1, .advance 1, .advance 1,
          .start 0 (.rotate ⟨0⟩ false), .advance 0, .advance 1, .receive twoLaneEnv,
          .work twoLaneEnv, .work twoLaneEnv, .work twoLaneEnv, .advance 0, .advance 0] = some u ∧
      u.pc = .respond (.rotate ⟨1⟩ (some 1)) (.ok ()) ∧ u.mgr.ready = [] ∧
      run step u [.work twoLaneEnv] = some t ∧
      t.calls 1 = .returning (.rotated ⟨1⟩ (.ok ())) ∧ t.mgr.ready = [] :=
  ⟨twoLanePool_init, _, _, rfl, rfl, rfl, rfl, rfl, rfl⟩

end Torlane
