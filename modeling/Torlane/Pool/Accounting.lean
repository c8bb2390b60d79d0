import Torlane.Pool.Epochs

/-!
# Assignments

Each proxy that is handed out is counted by a message to the manager, which names the lane and the
epoch of the proxy. The manager may process it when the lane has another epoch, or is not ready,
and then ignores it. `Accounted` says that no count is lost or carried over: for a ready lane, the
messages that were ever sent for its current epoch are those that have been counted and those that
are still in the queue.
-/

namespace Torlane

open Transition

/-- The assignment that an access sends. -/
def Effect.assigns : Effect → List (LaneId × ℕ)
  | .send (.assign lane epoch) => [(lane, epoch)]
  | _ => []

/-- The `Assign` message that a step sends. -/
def assignsSent (s : State) : Action → List (LaneId × ℕ)
  | .advance c =>
    match callStep s c (s.calls c) with
    | some (effect, _) => effect.assigns
    | none => []
  | _ => []

/-- The proxy that a step hands out, in `proxy_from_endpoint`. -/
def handedOut (s : State) : Action → List Proxy
  | .advance c =>
    match s.calls c, callStep s c (s.calls c) with
    | .pick _, some (_, .done (.selected (.ok proxy))) => [proxy]
    | _, _ => []
  | _ => []

/-- Every proxy is handed out together with the message that counts it, and there are no other such
messages. -/
theorem assignsSent_eq (s : State) (a : Action) :
    assignsSent s a = (handedOut s a).map fun proxy => (proxy.inner.lane, proxy.inner.epoch) := by
  cases a with
  | advance c =>
    cases hpc : s.calls c with
    | pick endpoint =>
      by_cases hdropped : s.receiverDropped = true <;>
        simp [assignsSent, handedOut, hpc, callStep, hdropped, Effect.assigns]
    | _ =>
      simp only [assignsSent, handedOut, hpc, List.map_nil]
      split
      · next effect pc' hstep =>
        have hmove := callMove_of_step hstep
        cases hmove <;> rfl
      · rfl
  | _ => rfl

variable {s t : State} {a : Action} {maximum : UInt64}

/-- The messages in the queue that count one epoch of a lane. -/
def State.queued (s : State) (lane : Lane) : ℕ := s.queue.count (.assign lane.id lane.epoch)

/-- Every message that was sent for the current epoch of a ready lane has been counted or is in the
queue, and the count has not reached the limit. -/
structure Accounted (maximum : UInt64) (s : State) (sent : List (LaneId × ℕ)) : Prop where
  counts : ∀ lane ∈ s.mgr.lanes, lane.state = .ready →
    sent.count (lane.id, lane.epoch) = lane.assignments + s.queued lane ∧
      lane.assignments < maximum.toNat
  /-- No message was sent for an epoch that its lane has not reached. -/
  behind : ∀ lane ∈ s.mgr.lanes, ∀ epoch, (lane.id, epoch) ∈ sent → epoch ≤ lane.epoch

/-- No message in the queue is for an epoch that its lane has not reached. -/
theorem EndpointsKnown.queue_behind (hw : WellFormed s) (hk : EndpointsKnown s) {lane : Lane}
    (hlane : lane ∈ s.mgr.lanes) {epoch : ℕ} (hmem : .assign lane.id epoch ∈ s.queue) :
    epoch ≤ lane.epoch := by
  obtain ⟨lane', hlane', hid, hepoch⟩ := hk.assigned lane.id epoch hmem
  rwa [hw.numbered.eq_of_id hlane' hlane hid] at hepoch

/-- A move of a call sends a message and hands out its proxy, or it leaves the counts as they
are. -/
theorem Accounted.call {sent : List (LaneId × ℕ)} {c : CallId} {effect : Effect} {pc' : CallPc}
    (hw : WellFormed s) (hk : EndpointsKnown s) (hs : Accounted maximum s sent)
    (hmove : CallMove s c (s.calls c) effect pc') :
    Accounted maximum ((s.apply effect).setCall c pc') (sent ++ effect.assigns) := by
  refine ⟨fun lane hlane hready => ?_, fun lane hlane epoch hmem => ?_⟩
  · obtain ⟨hcount, hlt⟩ := hs.counts lane (by simpa using hlane) hready
    refine ⟨?_, hlt⟩
    unfold State.queued at hcount ⊢
    rw [List.count_append, hcount, State.setCall_queue, add_assoc]
    congr 1
    cases effect with
    | send command =>
      cases command with
      | assign id epoch =>
        rw [State.apply, List.count_append]
        congr 1
        simp only [Effect.assigns, List.count_singleton, beq_iff_eq, Prod.mk.injEq,
          ManagerCommand.assign.injEq]
      | _ => simp [State.apply, Effect.assigns]
    | _ => simp [State.apply, Effect.assigns]
  · have hlane : lane ∈ s.mgr.lanes := by simpa using hlane
    rcases List.mem_append.mp hmem with hmem | hmem
    · exact hs.behind lane hlane epoch hmem
    · cases effect with
      | send command =>
        cases command with
        | assign id epoch' =>
          obtain ⟨rfl, rfl⟩ : lane.id = id ∧ epoch = epoch' := by simpa [Effect.assigns] using hmem
          -- The call sends the epoch of an endpoint that it holds, which is known.
          obtain ⟨endpoint, hheld, hid, rfl⟩ := hmove.assigns
          obtain ⟨lane', hlane', hid', hepoch⟩ := (hk.held c endpoint hheld).epoch_le
          rwa [hw.numbered.eq_of_id hlane' hlane (hid'.trans hid)] at hepoch
        | _ => simp [Effect.assigns] at hmem
      | _ => simp [Effect.assigns] at hmem

/-- A renewed lane starts to count at zero: nothing was sent for its new epoch, and nothing is in
the queue. -/
theorem Accounted.renewed {sent : List (LaneId × ℕ)} {lane lane' : Lane} (hw : WellFormed s)
    (hk : EndpointsKnown s) (hs : Accounted maximum s sent) (hlane : lane ∈ s.mgr.lanes)
    (hid : lane'.id = lane.id) (hepoch : lane'.epoch = lane.epoch + 1) :
    sent.count (lane'.id, lane'.epoch) = 0 ∧ s.queued lane' = 0 := by
  unfold State.queued
  rw [List.count_eq_zero, List.count_eq_zero, hid, hepoch]
  refine ⟨fun hmem => ?_, fun hmem => ?_⟩
  · have := hs.behind lane hlane _ hmem
    omega
  · have := hk.queue_behind hw hlane hmem
    omega

/-- No message gets ahead of its lane when the lanes are updated. -/
theorem Accounted.behind_moves {sent : List (LaneId × ℕ)} {cause : Cause} {lanes : List Lane}
    (hs : Accounted maximum s sent) (hmoves : LaneMoves s.mgr.runtime cause s.mgr.lanes lanes) :
    ∀ lane ∈ lanes, ∀ epoch, (lane.id, epoch) ∈ sent → epoch ≤ lane.epoch := by
  intro lane' hmem epoch hsent
  obtain ⟨lane, hlane, hmove⟩ := hmoves.of_mem hmem
  exact (hs.behind lane hlane epoch (hmove.id_eq ▸ hsent)).trans hmove.epoch_le

/-- What a lane becomes in `assign`: where it is not selected, it stays as it is, and where it is,
it is counted up below the limit, or rotated. -/
theorem assignLanes_lane {n : ℕ} {m : ManagerState} {env : Env} {id : LaneId} {epoch : ℕ}
    {lanes : List Lane} {publish : Bool} (hnum : Numbered n m.lanes)
    (hmaximum : m.config.rotation.assignmentLimit = some maximum)
    (heq : m.assignLanes env id epoch = ({ m with lanes }, publish)) {lane' : Lane}
    (hmem : lane' ∈ lanes) :
    ∃ lane ∈ m.lanes, (¬ (Cause.assign id epoch).selects lane ∧ lane' = lane) ∨
      ((Cause.assign id epoch).selects lane ∧
        ((lane' = ManagerState.counted lane ∧ lane'.assignments < maximum.toNat) ∨
          lane' = (m.renew env (ManagerState.counted lane)).1)) := by
  rcases m.assignLanes_cases env id epoch with
    ⟨heq', hnone⟩ | ⟨maximum', hmaximum', lane, hlane, hselects, hset⟩
  · obtain rfl : m.lanes = lanes := congrArg (·.1.lanes) (heq'.symm.trans heq)
    exact ⟨lane', hmem, .inl ⟨hnone (by simp [hmaximum]) lane' hmem, rfl⟩⟩
  · obtain rfl : maximum = maximum' := Option.some.inj (hmaximum.symm.trans hmaximum')
    -- In both cases one lane is replaced by a lane of the same id.
    obtain ⟨lane'', hid, hlanes, hcases⟩ : ∃ lane'' : Lane, lane''.id = lane.id ∧
        lanes = (m.setLane lane'').lanes ∧
        ((lane'' = ManagerState.counted lane ∧ lane''.assignments < maximum.toNat) ∨
          lane'' = (m.renew env (ManagerState.counted lane)).1) := by
      rcases hset with ⟨hlt, heq'⟩ | ⟨-, heq'⟩
      · exact ⟨ManagerState.counted lane, rfl, congrArg (·.1.lanes) (heq.symm.trans heq'),
          .inl ⟨rfl, hlt⟩⟩
      · exact ⟨_, (m.renew_move env _ hselects).id_eq,
          congrArg (·.1.lanes) (heq.symm.trans heq'), .inr rfl⟩
    rw [hlanes] at hmem
    obtain ⟨other, hother, rfl⟩ := List.mem_map.mp hmem
    refine ⟨other, hother, ?_⟩
    split_ifs with hid'
    · obtain rfl : other = lane := hnum.eq_of_id hother hlane (hid'.trans hid)
      exact .inr ⟨hselects, hcases⟩
    · exact .inl ⟨fun hother' => hid' (hother'.1.trans (hselects.1.symm.trans hid.symm)), rfl⟩

/-- The head of the queue is taken off, and an assignment in it is counted. -/
theorem State.queued_cons {lane : Lane} {id : LaneId} {epoch : ℕ} {rest : List ManagerCommand}
    (hqueue : s.queue = .assign id epoch :: rest) :
    s.queued lane = rest.count (.assign lane.id lane.epoch) +
      if lane.id = id ∧ lane.epoch = epoch then 1 else 0 := by
  rw [State.queued, hqueue, List.count_cons]
  congr 1
  simp only [beq_iff_eq, ManagerCommand.assign.injEq]
  exact if_congr (and_congr eq_comm eq_comm) rfl rfl

/-- A message off the queue counts its lane up, or it rotates the lane, or it is ignored. -/
theorem Accounted.assign {sent : List (LaneId × ℕ)} {env : Env} {id : LaneId} {epoch : ℕ}
    {rest : List ManagerCommand} {lanes : List Lane} {publish : Bool} {pc : ManagerPc}
    (hw : WellFormed s) (hk : EndpointsKnown s) (hpos : 0 < maximum.toNat)
    (hmaximum : s.mgr.config.rotation.assignmentLimit = some maximum)
    (hs : Accounted maximum s sent) (hqueue : s.queue = .assign id epoch :: rest)
    (heq : s.mgr.assignLanes env id epoch = ({ s.mgr with lanes }, publish))
    (hmoves : LaneMoves s.mgr.runtime (.assign id epoch) s.mgr.lanes lanes) :
    Accounted maximum { s with queue := rest, mgr := { s.mgr with lanes }, pc } sent := by
  refine ⟨fun lane' hmem hready => ?_, hs.behind_moves hmoves⟩
  · obtain ⟨lane, hlane, ⟨hselects, rfl⟩ | ⟨hselects, ⟨rfl, hlt⟩ | rfl⟩⟩ :=
      assignLanes_lane hw.numbered hmaximum heq hmem
    · -- The message is for another lane, or for an earlier epoch.
      obtain ⟨hcount, hlt⟩ := hs.counts lane' hlane hready
      rw [State.queued_cons hqueue, if_neg fun h => hselects ⟨h.1, h.2, hready⟩] at hcount
      exact ⟨hcount, hlt⟩
    · obtain ⟨hcount, hbefore⟩ := hs.counts lane hlane hselects.2.2
      rw [State.queued_cons hqueue, if_pos ⟨hselects.1, hselects.2.1⟩] at hcount
      refine ⟨?_, hlt⟩
      -- The saturating addition does not saturate, as the count is below the limit.
      have hmax : maximum.toNat < 2^64 := maximum.toNat_lt
      have hassignments : (ManagerState.counted lane).assignments = lane.assignments + 1 := by
        simp only [ManagerState.counted, saturatingAdd]
        omega
      rw [hassignments]
      change sent.count (lane.id, lane.epoch) =
        lane.assignments + 1 + rest.count (.assign lane.id lane.epoch)
      omega
    -- The lane reaches the limit: it is renewed, or it is no longer ready.
    · by_cases hrenew : CanRenew env (ManagerState.counted lane)
      · obtain ⟨lane', heq', hid, hepoch, -, hassignments, -⟩ := s.mgr.renew_ok hrenew
        rw [heq']
        obtain ⟨hcount, hqueued⟩ := hs.renewed hw hk hlane hid hepoch
        rw [State.queued_cons hqueue] at hqueued
        refine ⟨?_, by rw [hassignments]; exact hpos⟩
        rw [hcount, hassignments]
        change 0 = 0 + rest.count (.assign lane'.id lane'.epoch)
        omega
      · obtain ⟨error, heq'⟩ := s.mgr.renew_error hrenew
        simp [heq'] at hready

/-- Every other update of the lanes keeps a ready lane's count, or starts a new one. -/
theorem Accounted.other {sent : List (LaneId × ℕ)} (cause : Cause) (hw : WellFormed s)
    (hk : EndpointsKnown s) (hpos : 0 < maximum.toNat) (hs : Accounted maximum s sent)
    (hcause : ∀ id epoch, cause ≠ .assign id epoch)
    (hmoves : LaneMoves s.mgr.runtime cause s.mgr.lanes t.mgr.lanes)
    (hqueue : ∀ lane, t.queued lane = s.queued lane) : Accounted maximum t sent := by
  refine ⟨fun lane' hmem hready => ?_, hs.behind_moves hmoves⟩
  obtain ⟨lane, hlane, hmove⟩ := hmoves.of_mem hmem
  rw [hqueue]
  cases hmove with
  | same eq => subst eq; exact hs.counts lane' hlane hready
  | counted by_assign => exact absurd by_assign (hcause _ _)
  | renewed _ hid hepoch _ _ hassignments =>
    obtain ⟨hcount, hqueued⟩ := hs.renewed hw hk hlane hid hepoch
    rw [hcount, hqueued, hassignments]
    exact ⟨rfl, hpos⟩
  | disabled _ _ _ _ hnot => exact absurd hready hnot

/-- Taking another command off the queue leaves the assignments in it. -/
theorem State.queued_tail {command : ManagerCommand}
    (hcommand : ∀ id epoch, command ≠ .assign id epoch) (hqueue : s.queue = command :: t.queue)
    (lane : Lane) : t.queued lane = s.queued lane := by
  rw [State.queued, State.queued, hqueue, List.count_cons_of_ne (hcommand _ _)]

/-- A move of the manager keeps the accounts. -/
theorem Accounted.manager {sent : List (LaneId × ℕ)} (hw : WellFormed s) (hk : EndpointsKnown s)
    (hpos : 0 < maximum.toNat)
    (hmaximum : s.mgr.config.rotation.assignmentLimit = some maximum)
    (hs : Accounted maximum s sent) (hmove : ManagerMove s a t)
    (halive : t.receiverDropped = false) : Accounted maximum t sent := by
  have hother (cause : Cause) := hs.other (t := t) cause hw hk hpos
  cases hmove with
  | receiveAssign hpc hqueue heq hmoves => exact hs.assign hw hk hpos hmaximum hqueue heq hmoves
  | receiveRotate _ hqueue hmoves =>
    exact hother _ (by simp) hmoves (State.queued_tail (by simp) hqueue)
  | receiveRotateError _ hqueue hmoves =>
    exact hother _ (by simp) hmoves (State.queued_tail (by simp) hqueue)
  | receiveRestart _ hqueue =>
    exact hother .disable (by simp) (.refl _) (State.queued_tail (by simp) hqueue)
  | refuseRestart _ hqueue =>
    exact hother .disable (by simp) (.refl _) (State.queued_tail (by simp) hqueue)
  | receiveShutdown _ hqueue =>
    exact hother .disable (by simp) (.refl _) (State.queued_tail (by simp) hqueue)
  | tick _ _ hmoves => exact hother _ (by simp) hmoves fun _ => rfl
  | retire _ hmoves => exact hother _ (by simp) hmoves fun _ => rfl
  | startError _ hmoves => exact hother _ (by simp) hmoves fun _ => rfl
  | renew _ hmoves => exact hother _ (by simp) hmoves fun _ => rfl
  | renewError _ hmoves => exact hother _ (by simp) hmoves fun _ => rfl
  | exiting => simp [State.receiverDropped] at halive
  | _ => exact hother .disable (by simp) (.refl _) fun _ => rfl

/-- The invariant of a run: the accounts are right as long as the receiver is there. -/
structure Accounting (maximum : UInt64) (s : State) (sent : List (LaneId × ℕ)) : Prop where
  wellFormed : WellFormed s
  known : EndpointsKnown s
  limit : s.mgr.config.rotation.assignmentLimit = some maximum
  accounted : s.receiverDropped = false → Accounted maximum s sent

/-- Every step keeps the accounts right. -/
theorem Accounting.step {sent : List (LaneId × ℕ)} (hpos : 0 < maximum.toNat)
    (hs : Accounting maximum s sent) (h : step s a = some t) :
    Accounting maximum t (sent ++ assignsSent s a) := by
  obtain ⟨hw, hk, hlimit, haccounted⟩ := hs
  refine ⟨hw.step h, hk.step hw h, by rw [config_eq hw h]; exact hlimit, fun halive => ?_⟩
  rcases step_cases hw h with ⟨c, pc, effect, pc', rfl, hmove, rfl, ha⟩ | hmove
  -- The access of the call decides what is sent; the first step of a call sends no assignment.
  · have hsent : assignsSent s a = effect.assigns := by
      rcases ha with ⟨rfl, hstep⟩ | ⟨hfresh, op, rfl, -⟩
      · simp only [assignsSent, hstep]
      · rw [hfresh] at hmove
        cases hmove <;> rfl
    rw [hsent]
    exact (haccounted (by simpa using halive)).call hw hk hmove
  · have hsent : assignsSent s a = [] := by cases hmove <;> rfl
    rw [hsent, List.append_nil]
    exact (haccounted hmove.alive).manager hw hk hpos hlimit hmove halive

/-- In a pool that has just been spawned, nothing has been sent or counted. -/
theorem Init.accounting (hs : Init s)
    (hlimit : s.mgr.config.rotation.assignmentLimit = some maximum) :
    0 < maximum.toNat ∧ Accounting maximum s [] := by
  have hw := hs.wellFormed
  have hk := hs.endpointsKnown
  obtain ⟨config, lanes, runtime, inst, instanceConfig, env, hconfig, hlanes, rfl⟩ := hs
  have hpos : 0 < maximum.toNat := by
    -- A limit of zero does not pass the validation.
    have hne : maximum ≠ 0 := fun h => (PoolConfig.validate_ok hconfig).2.2.2 (h ▸ hlimit)
    refine Nat.pos_of_ne_zero fun h => hne (UInt64.toNat_inj.mp h)
  refine ⟨hpos, hw, hk, hlimit, fun _ => ⟨fun lane hlane _ => ?_, by simp⟩⟩
  have hassignments : lane.assignments = 0 := ((createLanes_spec hconfig hlanes).2 lane hlane).2.2.1
  rw [hassignments]
  exact ⟨by simp [State.queued, spawn], hpos⟩

/-- A message for an earlier epoch changes no lane. -/
theorem lanes_of_stale {env : Env} {id : LaneId} {epoch : ℕ} {rest : List ManagerCommand}
    (hw : WellFormed s) (hqueue : s.queue = .assign id epoch :: rest)
    (hstale : ∀ lane ∈ s.mgr.lanes, lane.id = id → epoch < lane.epoch)
    (h : step s (.receive env) = some t) : t.mgr.lanes = s.mgr.lanes := by
  cases managerMove_of_step hw h with
  | receiveAssign _ hqueue' heq =>
    obtain ⟨hcommand, -⟩ := List.cons.inj (hqueue.symm.trans hqueue')
    obtain ⟨rfl, rfl⟩ := ManagerCommand.assign.inj hcommand
    rcases s.mgr.assignLanes_cases env id epoch with
      ⟨heq', -⟩ | ⟨maximum, -, lane, hlane, hselects, -⟩
    · exact congrArg (·.1.lanes) (heq.symm.trans heq')
    · exact absurd hselects.2.1 (hstale lane hlane hselects.1).ne'
  | receiveRotate _ hqueue' => simp [hqueue] at hqueue'
  | receiveRotateError _ hqueue' => simp [hqueue] at hqueue'
  | _ => rfl

/-- In every state of a run of a pool with an assignment limit, as long as the receiver is there:
as many `Assign` messages were sent as proxies were handed out, epoch by epoch; for a ready lane,
those for its epoch are the ones that it has counted and the ones that are still in the queue, and
the count has not reached the limit. So a lane whose messages have all been processed has been
handed out fewer times than the limit. A message for an earlier epoch changes no lane. -/
theorem accounting_run (hs : Init s) (hlimit : s.mgr.config.rotation.assignmentLimit = some maximum)
    {as : List Action} (h : run step s as = some t) (halive : t.receiverDropped = false) :
    ((observed step handedOut s as).map fun proxy => (proxy.inner.lane, proxy.inner.epoch)) =
      observed step assignsSent s as ∧
    (∀ lane ∈ t.mgr.lanes, lane.state = .ready →
      (observed step assignsSent s as).count (lane.id, lane.epoch) =
        lane.assignments + t.queue.count (.assign lane.id lane.epoch) ∧
      lane.assignments < maximum.toNat ∧
      (t.queue = [] →
        (observed step assignsSent s as).count (lane.id, lane.epoch) < maximum.toNat)) ∧
    (∀ env u id epoch rest, t.queue = .assign id epoch :: rest →
      (∀ lane ∈ t.mgr.lanes, lane.id = id → epoch < lane.epoch) →
      step t (.receive env) = some u → u.mgr.lanes = t.mgr.lanes) := by
  obtain ⟨hpos, haccounting⟩ := hs.accounting hlimit
  have ht : Accounting maximum t ([] ++ observed step assignsSent s as) :=
    observed_invariant (fun _ _ _ _ hstep ht => ht.step hpos hstep) haccounting h
  rw [List.nil_append] at ht
  refine ⟨?_, fun lane hlane hready => ?_, fun env u id epoch rest hqueue hstale hstep => ?_⟩
  · rw [← observed_map]
    congr 1
    funext s a
    exact (assignsSent_eq s a).symm
  · obtain ⟨hcount, hlt⟩ := (ht.accounted halive).counts lane hlane hready
    refine ⟨hcount, hlt, fun hqueue => ?_⟩
    rw [hcount, State.queued, hqueue]
    exact hlt
  · exact lanes_of_stale ht.wellFormed hqueue hstale hstep

/-- A pool of two lanes that are rotated after two assignments. -/
def limitedPool : State :=
  spawn { twoLaneConfig with rotation := ⟨none, some 2⟩ } twoLanes ⟨⟨0⟩, twoLaneAddr⟩ none none

/-- Three calls of `next`, two of which get lane 0, and the processing of the first message. -/
def threeSelections : List Action :=
  [.start 0 .next, .advance 0, .advance 0, .advance 0, .start 1 .next, .advance 1, .advance 1,
    .advance 1, .start 2 .next, .advance 2, .advance 2, .advance 2, .receive twoLaneEnv]

/-- Lane 0 has been handed out twice, one of which has been counted. -/
theorem accounting_run_limitedPool :
    ∃ t, run step limitedPool threeSelections = some t ∧
      t.mgr.lanes.map (fun lane => (lane.assignments, t.queued lane)) = [(1, 1), (0, 1)] ∧
      ∀ lane ∈ t.mgr.lanes, lane.state = .ready →
        (observed step assignsSent limitedPool threeSelections).count (lane.id, lane.epoch) =
          lane.assignments + t.queue.count (.assign lane.id lane.epoch) := by
  have hinit : Init limitedPool := ⟨_, _, _, _, _, twoLaneEnv, rfl, rfl, rfl⟩
  have hrun : run step limitedPool threeSelections = some _ := rfl
  exact ⟨_, hrun, by decide, fun lane hlane hready =>
    ((accounting_run hinit rfl hrun rfl).2.1 lane hlane hready).1⟩

end Torlane
