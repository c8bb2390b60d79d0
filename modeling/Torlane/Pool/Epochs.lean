import Torlane.Pool.Moves

/-!
# Epochs

Every endpoint that is published, held by a call, or about to be published belongs to a lane of
the manager, and it is either the lane's current endpoint or one of an earlier epoch (`Known`).
The lists that the manager computes contain current endpoints only (`Live`), so that the epochs of
a lane can go back in the published list by one kind of step alone: a client writes a snapshot
with an endpoint that has been replaced in the meantime, and is not published any more.
`keepsCurrent` rules it out, and `epochs_run` is the result for the runs without it.
-/

namespace Torlane

open Transition

/-- The endpoint is the current one of its lane, or one of an earlier epoch. -/
def Known (lanes : List Lane) (endpoint : LaneEndpoint) : Prop :=
  ∃ lane ∈ lanes, lane.id = endpoint.lane ∧
    (endpoint.epoch < lane.epoch ∨ endpoint = lane.endpoint)

/-- The endpoint is the current one of a ready lane. -/
def Live (lanes : List Lane) (endpoint : LaneEndpoint) : Prop :=
  ∃ lane ∈ lanes, lane.state = .ready ∧ endpoint = lane.endpoint

variable {runtime : RuntimeState} {cause : Cause} {lanes lanes' : List Lane}
  {endpoint : LaneEndpoint}

/-- The endpoint of a lane is known. -/
theorem known_endpoint {lane : Lane} (hmem : lane ∈ lanes) : Known lanes lane.endpoint :=
  ⟨lane, hmem, lane.endpoint_lane.symm, .inr rfl⟩

/-- A current endpoint is known. -/
theorem Live.known (h : Live lanes endpoint) : Known lanes endpoint := by
  obtain ⟨lane, hmem, -, rfl⟩ := h
  exact known_endpoint hmem

/-- The lists that the manager computes contain current endpoints. -/
theorem live_of_mem_readyLanes {unavailable : Finset LaneId}
    (h : endpoint ∈ readyLanes lanes unavailable) : Live lanes endpoint := by
  obtain ⟨lane, hmem, rfl⟩ := List.mem_map.mp h
  rw [List.mem_filter, decide_eq_true_eq] at hmem
  exact ⟨lane, hmem.1, hmem.2.1, rfl⟩

/-- An endpoint stays known when the lanes are updated. -/
theorem Known.moves (hmoves : LaneMoves runtime cause lanes lanes') (h : Known lanes endpoint) :
    Known lanes' endpoint := by
  obtain ⟨lane, hmem, hid, hepoch⟩ := h
  obtain ⟨lane', hmem', hmove⟩ := hmoves.exists_mem hmem
  refine ⟨lane', hmem', hmove.id_eq.trans hid, ?_⟩
  rcases hmove.kept_or_renewed with ⟨hkept, hendpoint⟩ | ⟨hrenewed, -⟩
  -- The lane keeps its epoch: what was known of the endpoint stays.
  · rw [hkept, hendpoint]
    exact hepoch
  · left
    -- The lane is renewed: even its current endpoint is now of an earlier epoch.
    rcases hepoch with hlt | rfl
    · omega
    · rw [lane.endpoint_epoch]
      omega

/-- The endpoints that a selection has picked from, or has picked. -/
def Outcome.selecting : Outcome → ReadyLanes
  | .selected (.ok proxy) => [proxy.inner]
  | _ => []

/-- The endpoints that a selection picks from, or has picked. -/
def CallPc.selecting : CallPc → ReadyLanes
  | .nextCount ready => ready
  | .pick endpoint => [endpoint]
  | .returning outcome => outcome.selecting
  | .done outcome => outcome.selecting
  | _ => []

variable {s t : State}

/-- What a call holds, it held before, or it has read it from the ready list. -/
theorem CallMove.held {c : CallId} {pc pc' : CallPc} {effect : Effect}
    (h : CallMove s c pc effect pc') (hmem : endpoint ∈ pc'.held) :
    endpoint ∈ pc.held ∨ endpoint ∈ s.mgr.ready := by
  cases h <;> simp_all [CallPc.held]

/-- What a selection picks from, it picked from before, or it has read it from the ready list. -/
theorem CallMove.selecting {c : CallId} {pc pc' : CallPc} {effect : Effect}
    (h : CallMove s c pc effect pc') (hmem : endpoint ∈ pc'.selecting) :
    endpoint ∈ pc.selecting ∨ endpoint ∈ s.mgr.ready := by
  cases h with
  | @giveUp pc outcome _ herror =>
    cases outcome with
    | selected result =>
      obtain ⟨error, rfl⟩ := herror
      simp [CallPc.selecting, Outcome.selecting] at hmem
    | _ => simp [CallPc.selecting, Outcome.selecting] at hmem
  | _ => simp_all [CallPc.selecting, Outcome.selecting]

/-- An assignment that a call sends is of an endpoint that the call holds. -/
theorem CallMove.assigns {c : CallId} {pc pc' : CallPc} {lane : LaneId} {epoch : ℕ}
    (h : CallMove s c pc (.send (.assign lane epoch)) pc') :
    ∃ endpoint ∈ pc.held, endpoint.lane = lane ∧ endpoint.epoch = epoch := by
  cases h
  exact ⟨_, List.mem_singleton_self _, rfl, rfl⟩

/-- An answered call holds no endpoint, and does not select one. -/
theorem Answered.held {result : Except Error Unit} {pc pc' : CallPc} (h : Answered result pc pc') :
    pc'.held = [] ∧ pc'.selecting = [] := by
  cases h <;> exact ⟨rfl, rfl⟩

/-- All the endpoints that are around are known. -/
structure EndpointsKnown (s : State) : Prop where
  ready : ∀ endpoint ∈ s.mgr.ready, Known s.mgr.lanes endpoint
  held : ∀ c, ∀ endpoint ∈ (s.calls c).held, Known s.mgr.lanes endpoint
  /-- What the manager is about to write is current. -/
  writing : ∀ ready job result, s.pc = .write ready job result →
    ∀ endpoint ∈ ready, Live s.mgr.lanes endpoint
  /-- No assignment in the queue is ahead of its lane. -/
  assigned : ∀ lane epoch, .assign lane epoch ∈ s.queue →
    ∃ lane' ∈ s.mgr.lanes, lane'.id = lane ∧ epoch ≤ lane'.epoch

/-- A known endpoint is not ahead of its lane. -/
theorem Known.epoch_le (h : Known lanes endpoint) :
    ∃ lane ∈ lanes, lane.id = endpoint.lane ∧ endpoint.epoch ≤ lane.epoch := by
  obtain ⟨lane, hmem, hid, hlt | rfl⟩ := h
  · exact ⟨lane, hmem, hid, hlt.le⟩
  · exact ⟨lane, hmem, hid, lane.endpoint_epoch.le⟩

/-- A move of a call keeps the endpoints known. -/
theorem EndpointsKnown.call {c : CallId} {effect : Effect} {pc' : CallPc} (hs : EndpointsKnown s)
    (hmove : CallMove s c (s.calls c) effect pc') :
    EndpointsKnown ((s.apply effect).setCall c pc') where
  ready endpoint hmem := by
    rw [State.setCall_mgr, State.apply_lanes]
    cases effect with
    | write ready =>
      obtain ⟨lane, snapshot, wait, hpc, -, rfl⟩ := hmove.writes
      -- What is written back was read, and is in the call's snapshot.
      refine hs.held c endpoint ?_
      rw [hpc]
      exact (ReadyLanes.mem_without.mp hmem).1
    | _ => exact hs.ready endpoint hmem
  held c' endpoint hmem := by
    rw [State.setCall_mgr, State.apply_lanes]
    rw [State.setCall_calls] at hmem
    split_ifs at hmem
    · rcases hmove.held hmem with hmem | hmem
      · exact hs.held c endpoint hmem
      · exact hs.ready endpoint hmem
    · exact hs.held c' endpoint (by simpa using hmem)
  writing := by simpa using hs.writing
  assigned lane epoch hmem := by
    rw [State.setCall_mgr, State.apply_lanes]
    rcases State.mem_apply_queue.mp hmem with hmem | rfl
    · exact hs.assigned lane epoch hmem
    · obtain ⟨endpoint, hheld, rfl, rfl⟩ := hmove.assigns
      exact (hs.held c endpoint hheld).epoch_le

/-- The manager publishes what it was about to write, or nothing, or it leaves the ready list as it
is. -/
theorem ManagerMove.ready {a : Action} (hmove : ManagerMove s a t) :
    t.mgr.ready = s.mgr.ready ∨ t.mgr.ready = [] ∨
      ∃ ready job result, s.pc = .write ready job result ∧ t.mgr.ready = ready ∧
        t.pc = .respond job result ∧ t.mgr.lanes = s.mgr.lanes ∧
        t.mgr.runtime = s.mgr.runtime := by
  cases hmove with
  | write hpc => exact .inr (.inr ⟨_, _, _, hpc, rfl, rfl, rfl, rfl⟩)
  | clear => exact .inr (.inl rfl)
  | haltClear => exact .inr (.inl rfl)
  | _ => exact .inl rfl

/-- The manager comes to write what it computes from its lanes. -/
theorem ManagerMove.writing {a : Action} {ready : ReadyLanes} {job : Job}
    {result : Except Error Unit} (hmove : ManagerMove s a t)
    (hpc' : t.pc = .write ready job result) :
    s.pc = .compute job result ∧ t = { s with pc := .write ready job result } ∧
      ready = readyLanes s.mgr.lanes s.mgr.unavailable := by
  cases hmove with
  | receiveAssign => split_ifs at hpc'
  | tick => split_ifs at hpc'
  | retire _ _ _ hpc => rcases hpc with rfl | rfl <;> simp at hpc'
  | haltTake _ hpc => rcases hpc with rfl | rfl <;> simp at hpc'
  | compute hpc => cases hpc'; exact ⟨hpc, rfl, rfl⟩
  | _ => simp at hpc'

/-- A move of the manager keeps the endpoints known. -/
theorem EndpointsKnown.manager {a : Action} (hs : EndpointsKnown s) (hmove : ManagerMove s a t) :
    EndpointsKnown t := by
  obtain ⟨cause, hmoves⟩ := hmove.lanes
  refine ⟨fun endpoint hmem => ?_, fun c endpoint hmem => ?_, fun ready job result hpc => ?_,
    fun lane epoch hmem => ?_⟩
  · rcases hmove.ready with heq | heq | ⟨ready, job, result, hpc, heq, -, hlanes, -⟩
    · exact (hs.ready endpoint (heq ▸ hmem)).moves hmoves
    · simp [heq] at hmem
    · exact hlanes ▸ (hs.writing ready job result hpc endpoint (heq ▸ hmem)).known
  · rcases hmove.calls c with heq | ⟨result, hanswered⟩
    · exact (hs.held c endpoint (heq ▸ hmem)).moves hmoves
    · simp [hanswered.held.1] at hmem
  · obtain ⟨-, rfl, rfl⟩ := hmove.writing hpc
    exact fun endpoint => live_of_mem_readyLanes
  · obtain ⟨lane', hmem', rfl, hepoch⟩ := hs.assigned lane epoch (hmove.queue hmem)
    obtain ⟨lane'', hmem'', hmove'⟩ := hmoves.exists_mem hmem'
    exact ⟨lane'', hmem'', hmove'.id_eq, hepoch.trans hmove'.epoch_le⟩

/-- Every step keeps the endpoints known. -/
theorem EndpointsKnown.step {a : Action} (hw : WellFormed s) (hs : EndpointsKnown s)
    (h : step s a = some t) : EndpointsKnown t := by
  rcases step_cases hw h with ⟨c, pc, effect, pc', rfl, hmove, rfl, -⟩ | hmove
  · exact hs.call hmove
  · exact hs.manager hmove

/-- The endpoints of a pool that has just been spawned are those of its lanes. -/
theorem Init.endpointsKnown (hs : Init s) : EndpointsKnown s := by
  obtain ⟨config, lanes, runtime, inst, instanceConfig, env, hconfig, hlanes, rfl⟩ := hs
  exact ⟨fun endpoint hmem => (live_of_mem_readyLanes hmem).known, by simp [spawn, CallPc.held],
    by simp [spawn], by simp [spawn]⟩

/-! ## The lanes of a list -/

/-- The endpoints of a list are of different lanes. -/
def ReadyLanes.Distinct (ready : ReadyLanes) : Prop := (ready.map (·.lane)).Nodup

/-- A list without one of its lanes has different lanes. -/
theorem ReadyLanes.Distinct.without {ready : ReadyLanes} (h : ready.Distinct) (lane : LaneId) :
    (ready.without lane).Distinct :=
  h.sublist (List.filter_sublist.map _)

/-- A lane has one endpoint in such a list. -/
theorem ReadyLanes.Distinct.eq_of_lane {ready : ReadyLanes} (h : ready.Distinct)
    {endpoint endpoint' : LaneEndpoint} (hmem : endpoint ∈ ready) (hmem' : endpoint' ∈ ready)
    (hlane : endpoint.lane = endpoint'.lane) : endpoint = endpoint' :=
  List.inj_on_of_nodup_map h hmem hmem' hlane

/-- The endpoints of numbered lanes are in ascending order of their lanes. -/
theorem pairwise_readyLanes {n : ℕ} {lanes : List Lane} (hnum : Numbered n lanes)
    (unavailable : Finset LaneId) :
    (readyLanes lanes unavailable).Pairwise fun endpoint endpoint' =>
      endpoint.lane.val < endpoint'.lane.val := by
  -- The ids ascend, and so do the lanes of the endpoints that are left.
  have hids : (lanes.map (·.id)).Pairwise fun id id' => id.val < id'.val := by
    rw [hnum]
    exact List.pairwise_map.mpr List.pairwise_lt_range
  rw [readyLanes, List.pairwise_map]
  simpa using (List.pairwise_map.mp hids).filter _

/-- What the manager publishes has different lanes. -/
theorem distinct_readyLanes {n : ℕ} {lanes : List Lane} (hnum : Numbered n lanes)
    (unavailable : Finset LaneId) : (readyLanes lanes unavailable).Distinct := by
  refine List.pairwise_map.mpr ((pairwise_readyLanes hnum unavailable).imp fun hlt heq => ?_)
  rw [heq] at hlt
  exact Nat.lt_irrefl _ hlt

/-- Every list that is around has different lanes. -/
structure DistinctLanes (s : State) : Prop where
  ready : s.mgr.ready.Distinct
  held : ∀ c, (s.calls c).held.Distinct
  writing : ∀ ready job result, s.pc = .write ready job result → ready.Distinct

/-- A call holds what it held before, or the published list, or one endpoint. -/
theorem CallMove.held_distinct {c : CallId} {pc pc' : CallPc} {effect : Effect}
    (h : CallMove s c pc effect pc') (hready : s.mgr.ready.Distinct) (hpc : pc.held.Distinct) :
    pc'.held.Distinct := by
  cases h with
  | nextRead => exact hready
  | rotateRead => exact hready
  | rotateMark => exact hpc
  | _ => simp [CallPc.held, ReadyLanes.Distinct]

/-- Every step keeps the lanes of the lists different. -/
theorem DistinctLanes.step {a : Action} (hw : WellFormed s) (hs : DistinctLanes s)
    (h : step s a = some t) : DistinctLanes t := by
  rcases step_cases hw h with ⟨c, pc, effect, pc', rfl, hmove, rfl, -⟩ | hmove
  · refine ⟨?_, fun c' => ?_, by simpa using hs.writing⟩
    · cases effect with
      | write ready =>
        obtain ⟨lane, snapshot, wait, hpc, -, rfl⟩ := hmove.writes
        have hsnapshot := hs.held c
        rw [hpc] at hsnapshot
        exact hsnapshot.without lane
      | _ => exact hs.ready
    · rw [State.setCall_calls]
      split_ifs
      · exact hmove.held_distinct hs.ready (hs.held c)
      · simpa using hs.held c'
  · refine ⟨?_, fun c => ?_, fun ready job result hpc => ?_⟩
    · rcases hmove.ready with heq | heq | ⟨ready, job, result, hpc, heq, -⟩
      · exact heq ▸ hs.ready
      · rw [heq]
        exact List.nodup_nil
      · exact heq ▸ hs.writing ready job result hpc
    · rcases hmove.calls c with heq | ⟨result, hanswered⟩
      · exact heq ▸ hs.held c
      · rw [hanswered.held.1]
        exact List.nodup_nil
    · obtain ⟨-, rfl, rfl⟩ := hmove.writing hpc
      exact distinct_readyLanes hw.numbered _

/-- A pool that has just been spawned has published different lanes. -/
theorem Init.distinctLanes (hs : Init s) : DistinctLanes s := by
  have hnum := hs.wellFormed.numbered
  obtain ⟨config, lanes, runtime, inst, instanceConfig, env, -, -, rfl⟩ := hs
  exact ⟨distinct_readyLanes hnum _, by simp [spawn, CallPc.held, ReadyLanes.Distinct],
    by simp [spawn]⟩

/-! ## Addresses -/

/-- The lane's endpoint is at the address of the manager's runtime, if the lane is ready. -/
def Lane.AtRuntime (runtime : RuntimeState) (lane : Lane) : Prop :=
  lane.state = .ready → lane.endpoint.addr = runtime.socksAddr

/-- A lane stays at the address of the runtime. -/
theorem LaneMove.atRuntime {lane lane' : Lane} (hmove : LaneMove runtime cause lane lane')
    (h : lane.AtRuntime runtime) : lane'.AtRuntime runtime := by
  cases hmove with
  | same eq => rw [eq]; exact h
  | counted _ _ eq => rw [eq]; exact h
  | renewed _ _ _ addr => exact fun _ => addr
  | disabled _ _ _ _ state => exact fun hready => absurd hready state

/-- Between the retirement of the lanes and the next instance, `restart` waits for Tor. -/
def ManagerPc.waiting : ManagerPc → Bool
  | .stop _ _ => true
  | .start _ _ => true
  | _ => false

/-- `restart` has a new instance, and has not yet published endpoints of it. -/
def ManagerPc.adopting : ManagerPc → Bool
  | .renew _ _ => true
  | .renewUnmark _ _ _ => true
  | .compute (.restart _) (.ok ()) => true
  | .write _ (.restart _) (.ok ()) => true
  | _ => false

/-- The ready lanes are at the address of the manager's runtime. While `restart` waits for Tor, no
lane is ready. -/
structure AtRuntime (s : State) : Prop where
  lanes : ∀ lane ∈ s.mgr.lanes, lane.AtRuntime s.mgr.runtime
  waiting : s.pc.waiting = true → ∀ lane ∈ s.mgr.lanes, lane.state ≠ .ready

/-- A move of the manager keeps the runtime, or no lane is ready. -/
theorem ManagerMove.runtime_eq {a : Action} (hmove : ManagerMove s a t) :
    t.mgr.runtime = s.mgr.runtime ∨
      (s.pc.waiting = true ∧ t.pc.adopting = true ∧ t.mgr.lanes = s.mgr.lanes) := by
  cases hmove with
  | start hpc => exact .inr ⟨by rw [hpc]; rfl, rfl, rfl⟩
  | _ => exact .inl rfl

/-- The manager comes to wait for Tor when no lane is ready, or it goes on waiting. -/
theorem ManagerMove.waiting {a : Action} (hmove : ManagerMove s a t) (h : t.pc.waiting = true) :
    (∀ lane ∈ t.mgr.lanes, lane.state ≠ .ready) ∨
      (s.pc.waiting = true ∧ t.mgr.lanes = s.mgr.lanes) := by
  cases hmove with
  | receiveAssign => split_ifs at h <;> simp [ManagerPc.waiting] at h
  | tick => split_ifs at h <;> simp [ManagerPc.waiting] at h
  | haltTake _ hpc' => rcases hpc' with rfl | rfl <;> simp [ManagerPc.waiting] at h
  | retire _ _ hready => exact .inl hready
  | stop hpc => exact .inr ⟨by rw [hpc]; rfl, rfl⟩
  | _ => simp [ManagerPc.waiting] at h

/-- Every step keeps the ready lanes at the address of the runtime. -/
theorem AtRuntime.step {a : Action} (hw : WellFormed s) (hs : AtRuntime s)
    (h : step s a = some t) : AtRuntime t := by
  rcases step_cases hw h with ⟨c, pc, effect, pc', -, -, rfl, -⟩ | hmove
  · exact ⟨by simpa using hs.lanes, by simpa using hs.waiting⟩
  · refine ⟨fun lane' hmem => ?_, fun hwaiting => ?_⟩
    · rcases hmove.runtime_eq with heq | ⟨hwaiting, -, hlanes⟩
      · obtain ⟨cause, hmoves⟩ := hmove.lanes
        obtain ⟨lane, hlane, hmove'⟩ := hmoves.of_mem hmem
        rw [heq]
        exact hmove'.atRuntime (hs.lanes lane hlane)
      · exact fun hready => absurd hready (hs.waiting hwaiting lane' (hlanes ▸ hmem))
    · rcases hmove.waiting hwaiting with hready | ⟨hwaiting, hlanes⟩
      · exact hready
      · exact hlanes ▸ hs.waiting hwaiting

/-- The lanes of a pool that has just been spawned are at the address of its runtime. -/
theorem Init.atRuntime (hs : Init s) : AtRuntime s := by
  obtain ⟨config, lanes, runtime, inst, instanceConfig, env, hconfig, hlanes, rfl⟩ := hs
  exact ⟨fun lane hlane _ => ((createLanes_spec hconfig hlanes).2 lane hlane).2.2.2,
    by simp [spawn, ManagerPc.waiting]⟩

/-! ## Runs without stale writes -/

/-- The endpoint is its lane's current one, at the address of the manager's runtime. -/
def State.Current (s : State) (endpoint : LaneEndpoint) : Prop :=
  ∃ lane ∈ s.mgr.lanes, endpoint = lane.endpoint ∧ endpoint.addr = s.mgr.runtime.socksAddr

/-- The step writes back no endpoint that has been replaced since the client read it, nor one of a
Tor instance that has, unless it is still published. -/
def keepsCurrent (s : State) : Action → Prop
  | .advance c =>
    ∀ lane snapshot wait, s.calls c = .rotateWrite lane snapshot wait →
      ∀ endpoint ∈ snapshot.without lane, endpoint ∈ s.mgr.ready ∨ s.Current endpoint
  | _ => True

/-- What is published is at the address of the manager's runtime, unless a new Tor instance is being
adopted. -/
def PublishedAtRuntime (s : State) : Prop :=
  s.pc.adopting = false → ∀ endpoint ∈ s.mgr.ready, endpoint.addr = s.mgr.runtime.socksAddr

/-- What a step that meets the guard publishes was published before it, or is current. -/
theorem published_cases {a : Action} (hw : WellFormed s) (hk : EndpointsKnown s) (ha : AtRuntime s)
    (h : step s a = some t) (hG : keepsCurrent s a) (hmem : endpoint ∈ t.mgr.ready) :
    endpoint ∈ s.mgr.ready ∨ (t.Current endpoint ∧ t.mgr.lanes = s.mgr.lanes) := by
  rcases step_cases hw h with ⟨c, pc, effect, pc', rfl, hmove, rfl, hadvance⟩ | hmove
  · cases effect with
    | write ready =>
      obtain ⟨lane, snapshot, wait, hpc, -, rfl⟩ := hmove.writes
      rcases hadvance with ⟨rfl, -⟩ | ⟨hfresh, -⟩
      · rcases hG lane snapshot wait hpc endpoint hmem with hready | hcurrent
        · exact .inl hready
        · exact .inr ⟨hcurrent, rfl⟩
      · simp [hfresh] at hpc
    | _ => exact .inl hmem
  · rcases hmove.ready with heq | heq | ⟨ready, job, result, hpc, heq, -, hlanes, hruntime⟩
    · exact .inl (heq ▸ hmem)
    · simp [heq] at hmem
    · obtain ⟨lane, hlane, hready, rfl⟩ := hk.writing _ job result hpc endpoint (heq ▸ hmem)
      exact .inr ⟨⟨lane, hlanes ▸ hlane, rfl, hruntime ▸ ha.lanes lane hlane hready⟩, hlanes⟩

/-- `restart` ends the adoption of a new instance by its publication. -/
theorem ManagerMove.adopting {a : Action} (hmove : ManagerMove s a t)
    (h : s.pc.adopting = true) (h' : t.pc.adopting = false) :
    ∃ ready job result, s.pc = .write ready job result ∧ t.mgr.ready = ready := by
  cases hmove with
  | write hpc => exact ⟨_, _, _, hpc, rfl⟩
  | @compute _ job result hpc =>
    rw [hpc] at h
    cases job <;> cases result <;> simp [ManagerPc.adopting] at h h'
  | renew => simp [ManagerPc.adopting] at h'
  | renewError => simp [ManagerPc.adopting] at h'
  | renewUnmark => simp [ManagerPc.adopting] at h'
  | renewed => simp [ManagerPc.adopting] at h'
  | _ => simp_all [ManagerPc.adopting]

/-- A step that meets the guard publishes endpoints of one Tor instance. -/
theorem PublishedAtRuntime.step {a : Action} (hw : WellFormed s) (hk : EndpointsKnown s)
    (ha : AtRuntime s) (hs : PublishedAtRuntime s) (h : step s a = some t)
    (hG : keepsCurrent s a) : PublishedAtRuntime t := by
  intro hadopting endpoint hmem
  rcases published_cases hw hk ha h hG hmem with hbefore | ⟨⟨lane, -, -, haddr⟩, -⟩
  swap
  · exact haddr
  rcases step_cases hw h with ⟨c, pc, effect, pc', -, -, rfl, -⟩ | hmove
  · simpa using hs (by simpa using hadopting) endpoint hbefore
  · rcases hmove.runtime_eq with hruntime | ⟨-, hadopting', -⟩
    · rw [hruntime]
      cases hcase : s.pc.adopting with
      | false => exact hs hcase endpoint hbefore
      | true =>
        -- The list that ends the adoption is of current endpoints, even of those from before it.
        obtain ⟨ready, job, result, hpc, hready⟩ := hmove.adopting hcase hadopting
        obtain ⟨lane, hlane, hstate, rfl⟩ :=
          hk.writing ready job result hpc endpoint (hready ▸ hmem)
        exact ha.lanes lane hlane hstate
    -- A change of the runtime starts an adoption.
    · simp [hadopting'] at hadopting

/-- A pool that has just been spawned has published the endpoints of its lanes. -/
theorem Init.publishedAtRuntime (hs : Init s) : PublishedAtRuntime s := by
  have ha := hs.atRuntime
  obtain ⟨config, lanes, runtime, inst, instanceConfig, env, hconfig, hlanes, rfl⟩ := hs
  intro _ endpoint hmem
  obtain ⟨lane, hlane, hready, rfl⟩ := live_of_mem_readyLanes hmem
  exact ha.lanes lane hlane hready

/-- What a selection picks from after a step, it picked from before, or it was published then. -/
theorem selecting_before {a : Action} {c : CallId} (hw : WellFormed s) (h : step s a = some t)
    (hmem : endpoint ∈ (t.calls c).selecting) :
    endpoint ∈ (s.calls c).selecting ∨ endpoint ∈ s.mgr.ready := by
  rcases step_cases hw h with ⟨c', pc, effect, pc', rfl, hmove, rfl, -⟩ | hmove
  · rw [State.setCall_calls] at hmem
    split_ifs at hmem with heq
    · subst heq
      exact hmove.selecting hmem
    · exact .inl (by simpa using hmem)
  · rcases hmove.calls c with heq | ⟨result, hanswered⟩
    · exact .inl (heq ▸ hmem)
    · simp [hanswered.held.2] at hmem

/-- An epoch of a lane, and the calls that have selected from what was published since, are not
behind an earlier publication of the lane. -/
structure AtLeast (lane : LaneId) (epoch : ℕ) (calls : Set CallId) (s : State) : Prop where
  lanes : ∀ lane' ∈ s.mgr.lanes, lane'.id = lane → epoch ≤ lane'.epoch
  ready : ∀ endpoint ∈ s.mgr.ready, endpoint.lane = lane → epoch ≤ endpoint.epoch
  selecting : ∀ c ∈ calls, ∀ endpoint ∈ (s.calls c).selecting, endpoint.lane = lane →
    epoch ≤ endpoint.epoch

/-- A step that meets the guard does not fall behind an earlier publication. -/
theorem AtLeast.step {lane : LaneId} {epoch : ℕ} {calls : Set CallId} {a : Action}
    (hw : WellFormed s) (hk : EndpointsKnown s) (ha : AtRuntime s) (hs : AtLeast lane epoch calls s)
    (h : step s a = some t) (hG : keepsCurrent s a) : AtLeast lane epoch calls t := by
  refine ⟨fun lane' hmem hid => ?_, fun endpoint hmem hid => ?_, fun c hc endpoint hmem hid => ?_⟩
  · rcases step_cases hw h with ⟨c, pc, effect, pc', -, -, rfl, -⟩ | hmove
    · exact hs.lanes lane' (by simpa using hmem) hid
    · obtain ⟨cause, hmoves⟩ := hmove.lanes
      obtain ⟨lane'', hmem'', hmove'⟩ := hmoves.of_mem hmem
      exact (hs.lanes lane'' hmem'' (hmove'.id_eq ▸ hid)).trans hmove'.epoch_le
  · rcases published_cases hw hk ha h hG hmem with hbefore | ⟨⟨lane', hmem', rfl, -⟩, hlanes⟩
    · exact hs.ready endpoint hbefore hid
    · rw [lane'.endpoint_epoch]
      exact hs.lanes lane' (hlanes ▸ hmem') (by simpa using hid)
  · rcases selecting_before hw h hmem with hmem | hmem
    · exact hs.selecting c hc endpoint hmem hid
    · exact hs.ready endpoint hmem hid

/-- What holds in every state of a run whose steps meet the guard. -/
structure Generations (s : State) : Prop where
  wellFormed : WellFormed s
  known : EndpointsKnown s
  distinct : DistinctLanes s
  atRuntime : AtRuntime s
  published : PublishedAtRuntime s

/-- Every step that meets the guard keeps it. -/
theorem Generations.step {a : Action} (hs : Generations s) (h : step s a = some t)
    (hG : keepsCurrent s a) : Generations t where
  wellFormed := hs.wellFormed.step h
  known := hs.known.step hs.wellFormed h
  distinct := hs.distinct.step hs.wellFormed h
  atRuntime := hs.atRuntime.step hs.wellFormed h
  published := hs.published.step hs.wellFormed hs.known hs.atRuntime h hG

/-- The state that a pool reaches by steps that meet the guard. -/
theorem generations_run (hs : Init s) (h : Reaches step keepsCurrent s t) : Generations t :=
  h.invariant (fun _ _ _ hG hstep hs => hs.step hstep hG)
    ⟨hs.wellFormed, hs.endpointsKnown, hs.distinctLanes, hs.atRuntime, hs.publishedAtRuntime⟩

/-- What is published at some moment bounds the rest of the run, for the lanes and the ready list,
and for the calls that have not started at that moment. -/
theorem atLeast_run {u : State} {endpoint : LaneEndpoint} (hs : Init s)
    (h : Reaches step keepsCurrent s t) (h' : Reaches step keepsCurrent t u)
    (hmem : endpoint ∈ t.mgr.ready) :
    AtLeast endpoint.lane endpoint.epoch {c | t.calls c = .fresh} u := by
  have ht := generations_run hs h
  -- The rest of the run keeps the bound, given what holds in each of its states.
  refine h'.invariant_of (J := Generations) ?_ ?_ ht ?_
  · exact fun _ _ _ hG hstep hs => hs.step hstep hG
  · exact fun _ _ _ hG hstep hJ hI => hI.step hJ.wellFormed hJ.known hJ.atRuntime hstep hG
  · refine ⟨fun lane hlane hid => ?_, fun endpoint' hmem' hid => ?_, fun c hc endpoint' hmem' => ?_⟩
    -- At the start, a published endpoint is not ahead of its lane, and is alone in its lane.
    · obtain ⟨lane', hlane', hid', hepoch⟩ := (ht.known.ready endpoint hmem).epoch_le
      rw [ht.wellFormed.numbered.eq_of_id hlane hlane' (hid.trans hid'.symm)]
      exact hepoch
    · rw [ht.distinct.ready.eq_of_lane hmem hmem' hid.symm]
    · have hfresh : t.calls c = .fresh := hc
      simp [hfresh, CallPc.selecting] at hmem'

/-- The address is the one of the manager's runtime in some state between `t` and `u`. -/
def AddrSince (t u : State) (addr : SocketAddr) : Prop :=
  ∃ v, Reaches step keepsCurrent t v ∧ Reaches step keepsCurrent v u ∧
    addr = v.mgr.runtime.socksAddr

/-- From a state on in which no new instance is being adopted, only addresses of that time are
published, or selected by the calls that had not started in it. -/
theorem addrSince_run {u : State} (hs : Init s) (h : Reaches step keepsCurrent s t)
    (h' : Reaches step keepsCurrent t u) (hadopting : t.pc.adopting = false) :
    (∀ endpoint ∈ u.mgr.ready, AddrSince t u endpoint.addr) ∧
      ∀ c, t.calls c = .fresh → ∀ endpoint ∈ (u.calls c).selecting,
        AddrSince t u endpoint.addr := by
  induction h' with
  | refl =>
    refine ⟨fun endpoint hmem => ?_, fun c hfresh endpoint hmem => ?_⟩
    · exact ⟨t, .refl, .refl, (generations_run hs h).published hadopting endpoint hmem⟩
    · simp [hfresh, CallPc.selecting] at hmem
  | @tail v w hrun hnext ih =>
    obtain ⟨a, hG, hstep⟩ := hnext
    have hv := generations_run hs (h.trans hrun)
    have hlonger {addr : SocketAddr} : AddrSince t v addr → AddrSince t w addr :=
      fun ⟨x, hx, hxv, haddr⟩ => ⟨x, hx, hxv.tail hG hstep, haddr⟩
    refine ⟨fun endpoint hmem => ?_, fun c hfresh endpoint hmem => ?_⟩
    · rcases published_cases hv.wellFormed hv.known hv.atRuntime hstep hG hmem with
        hbefore | ⟨⟨lane, -, -, haddr⟩, -⟩
      · exact hlonger (ih.1 endpoint hbefore)
      · exact ⟨w, Reaches.tail hrun hG hstep, .refl, haddr⟩
    · rcases selecting_before hv.wellFormed hstep hmem with hmem | hmem
      · exact hlonger (ih.2 c hfresh endpoint hmem)
      · exact hlonger (ih.1 endpoint hmem)

/-- Along every run of a pool whose steps meet the guard, the epochs of a lane's published
endpoints never decrease. A `next` or `for_key` that starts after an epoch was published returns
no endpoint of the lane with a smaller one. Once `restart` has published the endpoints of a new
Tor instance, no endpoint at another address is published, and a `next` or `for_key` that starts
then returns none at the address of an instance before it. -/
theorem epochs_run {u : State} (hs : Init s) (h : Reaches step keepsCurrent s t)
    (h' : Reaches step keepsCurrent t u) :
    (∀ endpoint ∈ t.mgr.ready, ∀ endpoint' ∈ u.mgr.ready, endpoint.lane = endpoint'.lane →
      endpoint.epoch ≤ endpoint'.epoch) ∧
    (∀ endpoint ∈ t.mgr.ready, ∀ c proxy, t.calls c = .fresh →
      u.calls c = .done (.selected (.ok proxy)) → proxy.inner.lane = endpoint.lane →
      endpoint.epoch ≤ proxy.inner.epoch) ∧
    (u.pc.adopting = false →
      ∀ endpoint ∈ u.mgr.ready, endpoint.addr = u.mgr.runtime.socksAddr) ∧
    (t.pc.adopting = false → ∀ c proxy, t.calls c = .fresh →
      u.calls c = .done (.selected (.ok proxy)) → AddrSince t u proxy.inner.addr) := by
  refine ⟨fun endpoint hmem endpoint' hmem' hlane => ?_,
    fun endpoint hmem c proxy hfresh hdone hlane => ?_,
    (generations_run hs (h.trans h')).published,
    fun hadopting c proxy hfresh hdone => ?_⟩
  · exact (atLeast_run hs h h' hmem).ready endpoint' hmem' hlane.symm
  · refine (atLeast_run hs h h' hmem).selecting c hfresh proxy.inner ?_ hlane
    rw [hdone]
    exact List.mem_singleton_self _
  · refine (addrSince_run hs h h' hadopting).2 c hfresh proxy.inner ?_
    rw [hdone]
    exact List.mem_singleton_self _

/-- The pool of two lanes before and after a client has written back its snapshot. -/
theorem epochs_run_twoLanes :
    ∃ t, Reaches step keepsCurrent twoLanePool t ∧ t.mgr.ready.map (·.epoch) = [1] ∧
      ∀ endpoint ∈ twoLanePool.mgr.ready, ∀ endpoint' ∈ t.mgr.ready,
        endpoint.lane = endpoint'.lane → endpoint.epoch ≤ endpoint'.epoch := by
  have hrun : Reaches step keepsCurrent twoLanePool _ :=
    (((Reaches.single (a := .start 0 (.rotate ⟨0⟩ false)) trivial rfl).tail (a := .advance 0)
      (by rintro _ _ _ ⟨⟩) rfl).tail (a := .advance 0)
      (by rintro _ _ _ ⟨⟩) rfl).tail (a := .advance 0)
      (by
        -- What the call writes back is the endpoint of lane 1, which is still published.
        rintro _ _ _ ⟨⟩ endpoint hmem
        obtain rfl : endpoint = (twoLanes.get ⟨1, by decide⟩).endpoint := List.mem_singleton.mp hmem
        exact .inl (by decide)) rfl
  exact ⟨_, hrun, by decide, (epochs_run twoLanePool_init .refl hrun).1⟩

/-- Two calls rotate the two lanes of a pool. The first one reads the ready list; the rotation of
the second one runs to its publication of lane 1 at epoch two; the first one marks and writes back
its snapshot, and a `next` that starts after that returns lane 1 at epoch one. -/
theorem stale_write_revives :
    Init twoLanePool ∧
    ∃ t u, run step twoLanePool
        [.start 0 (.rotate ⟨0⟩ false), .advance 0, .start 1 (.rotate ⟨1⟩ false), .advance 1,
          .advance 1, .advance 1, .advance 1, .receive twoLaneEnv, .work twoLaneEnv,
          .work twoLaneEnv, .work twoLaneEnv] = some t ∧
      run step t [.advance 0, .advance 0, .start 2 .next, .advance 2, .advance 2, .advance 2] =
        some u ∧
      t.mgr.ready.map (fun endpoint => (endpoint.lane, endpoint.epoch)) = [(⟨0⟩, 1), (⟨1⟩, 2)] ∧
      u.mgr.ready.map (fun endpoint => (endpoint.lane, endpoint.epoch)) = [(⟨1⟩, 1)] ∧
      ∃ proxy, u.calls 2 = .done (.selected (.ok proxy)) ∧
        proxy.inner.lane = ⟨1⟩ ∧ proxy.inner.epoch = 1 :=
  ⟨twoLanePool_init, _, _, rfl, rfl, by decide, by decide, _, rfl, rfl, rfl⟩

end Torlane
