import Torlane.Pool.Generations
import Torlane.Pool.Sequential
import Torlane.Pool.Service

/-!
# Restart

What `restart` promises. `Recovered` is the pool that it should leave behind: every lane is
published, one epoch further, with the new instance. `restart_recovers` says that it does so from
every reachable state, whatever earlier failures have left there, if the instance restarts and every
lane can be rotated: for the whole operation, and for its sections interleaved with other calls. The
invariant of the interleaved run is `Restoring`.

`restart` reports success without a look at the lanes, though: the loop over them ignores the
errors. `restart_ok_iff` says when its success means what it should.
-/

namespace Torlane

open Transition

/-- The lane is ready one epoch further, at the address. -/
structure Lane.Restored (socksAddr : SocketAddr) (lane lane' : Lane) : Prop where
  id : lane'.id = lane.id
  epoch : lane'.epoch = lane.epoch + 1
  state : lane'.state = .ready
  addr : lane'.endpoint.addr = socksAddr

/-- Every lane is restored with the instance, and all of them are published in ascending order. -/
structure Recovered (before : List Lane) (inst : TorInstance) (m : ManagerState) : Prop where
  held : m.inst = some inst
  lanes : List.Forall₂ (Lane.Restored inst.socksAddr) before m.lanes
  ready : m.ready = m.lanes.map (·.endpoint)
  ascending : m.ready.map (·.lane) = (List.range m.config.lanes).map LaneId.mk
  unavailable : m.unavailable = ∅

variable {s t u : State} {before lanes lanes' : List Lane}

/-- A lane that is regenerated is restored. -/
theorem Lane.Regenerated.restored {runtime : RuntimeState} {env : Env} {lane lane' : Lane}
    (h : lane.Regenerated runtime env lane') : lane.Restored runtime.socksAddr lane' := by
  obtain ⟨auth, -, hendpoint⟩ := h.endpoint
  exact ⟨h.id, h.epoch, h.state, by rw [hendpoint]⟩

/-- Where every lane is ready and none is marked, all of them are published. -/
theorem readyLanes_of_restored {socksAddr : SocketAddr}
    (h : List.Forall₂ (Lane.Restored socksAddr) before lanes) :
    readyLanes lanes ∅ = lanes.map (·.endpoint) := by
  unfold readyLanes
  congr 1
  refine List.filter_eq_self.mpr fun lane hmem => ?_
  obtain ⟨lane₀, -, hrestored⟩ := exists_of_forall₂ h hmem
  simp [hrestored.state]

/-- Restored lanes are numbered as before. -/
theorem numbered_of_restored {n : ℕ} {socksAddr : SocketAddr} (hnum : Numbered n before)
    (h : List.Forall₂ (Lane.Restored socksAddr) before lanes) : Numbered n lanes := by
  have hids : before.map (·.id) = lanes.map (·.id) :=
    map_eq_map_of_forall₂ (h.imp fun lane lane' h => h.id.symm)
  unfold Numbered
  rw [← hids]
  exact hnum

/-- A pool whose lanes are restored has recovered when they are published. -/
theorem recovered_of_restored {m : ManagerState} {inst : TorInstance}
    (hnum : Numbered m.config.lanes m.lanes) (hinst : m.inst = some inst)
    (hlanes : List.Forall₂ (Lane.Restored inst.socksAddr) before m.lanes)
    (hunavailable : m.unavailable = ∅) (hready : m.ready = m.lanes.map (·.endpoint)) :
    Recovered before inst m := by
  refine ⟨hinst, hlanes, hready, ?_, hunavailable⟩
  calc m.ready.map (·.lane) = m.lanes.map (·.id) := by
        rw [hready, List.map_map]
        exact List.map_congr_left fun lane _ => lane.endpoint_lane
    _ = (List.range m.config.lanes).map LaneId.mk := hnum

/-- Only lanes of the pool are marked. -/
def MarkedLanes (s : State) : Prop := ∀ id ∈ s.mgr.unavailable, id.val < s.mgr.config.lanes

/-- Every step marks lanes of the pool only. -/
theorem MarkedLanes.step {a : Action} (hw : WellFormed s) (hs : MarkedLanes s)
    (h : step s a = some t) : MarkedLanes t := by
  unfold MarkedLanes
  rw [config_eq hw h]
  intro id hid
  rcases step_cases hw h with ⟨c, pc, effect, pc', rfl, hmove, rfl, -⟩ | hmove
  · rw [State.setCall_mgr] at hid
    cases effect with
    | mark lane =>
      obtain ⟨snapshot, wait, hpc, -⟩ := hmove.marks
      rcases Finset.mem_insert.mp hid with rfl | hid
      · exact hw.called c id (by rw [hpc]; rfl)
      · exact hs id hid
    | unmark lane => exact hs id (Finset.mem_of_mem_erase hid)
    | _ => exact hs id hid
  · cases hmove with
    | unmark => exact hs id (Finset.mem_of_mem_erase hid)
    | renewUnmark => exact hs id (Finset.mem_of_mem_erase hid)
    | mark =>
      rcases Finset.mem_union.mp hid with hid | hid
      · exact hs id hid
      · obtain ⟨lane, hmem, rfl⟩ := List.mem_map.mp (List.mem_toFinset.mp hid)
        exact hw.numbered.lt hmem
    | _ => exact hs id hid

/-- A step leaves the configuration of the instance as it is. -/
theorem instanceConfig_eq {a : Action} (hw : WellFormed s) (h : step s a = some t) :
    t.mgr.instanceConfig = s.mgr.instanceConfig := by
  rcases step_cases hw h with ⟨c, pc, effect, pc', -, -, rfl, -⟩ | hmove
  · cases effect <;> rfl
  · cases hmove <;> rfl

/-- What holds in every state of a managed pool when it takes a restart off the queue. -/
structure Restartable (s : State) : Prop where
  wellFormed : WellFormed s
  marked : MarkedLanes s
  managed : s.mgr.instanceConfig.isSome

/-- Every reachable state of a managed pool can be restarted from. -/
theorem ManagedInit.restartable (hs : ManagedInit s) (h : Reaches step anyStep s t) :
    Restartable t := by
  refine h.invariant (I := Restartable) (fun s a t _ h hs => ⟨hs.wellFormed.step h,
    hs.marked.step hs.wellFormed h, ?_⟩) ?_
  · rw [instanceConfig_eq hs.wellFormed h]
    exact hs.managed
  · obtain ⟨hinit, inst, -, -, hconfig⟩ := hs
    refine ⟨hinit.wellFormed, ?_, hconfig⟩
    obtain ⟨config, lanes, runtime, inst, instanceConfig, env, -, -, rfl⟩ := hinit
    simp [MarkedLanes, spawn]

/-! ## The whole operation -/

/-- Lanes that can be rotated are restored, whatever state they were in. -/
theorem restored_of_renew (m : ManagerState) {env : Env}
    (hrenew : ∀ lane ∈ lanes, CanRenew env lane) :
    List.Forall₂ (Lane.Restored m.runtime.socksAddr) lanes
      (lanes.map fun lane => (m.renew env { lane with state := .retiring }).1) := by
  refine forall₂_map_self fun lane hmem => ?_
  have hsucceeds : Succeeds m.runtime env (fun _ => True) lane _ :=
    m.renew_succeeds lane.assignments .retiring trivial
  exact (hsucceeds.regenerated trivial (hrenew lane hmem)).restored

/-- `restart` recovers the pool where its new instance starts and every lane can be rotated. -/
theorem restart_recovered (hs : Restartable s) {env : Env} {socksAddr : SocketAddr}
    (hstop : s.mgr.inst.isSome → env.stop = .ok ()) (hstart : env.start = .ok socksAddr)
    (hrenew : ∀ lane ∈ s.mgr.lanes, CanRenew env lane) :
    ∃ m inst, s.mgr.restart env = (m, .ok ()) ∧ inst.socksAddr = socksAddr ∧
      Recovered s.mgr.lanes inst m := by
  have hnum := hs.wellFormed.numbered
  obtain ⟨config, hconfig⟩ := Option.isSome_iff_exists.mp hs.managed
  obtain ⟨m, heq, hconf, hruntime, hinst, hlanes, hmarked, hunmarked⟩ :=
    ManagerState.restart_eq hnum hconfig hstop hstart
  have hrestored : List.Forall₂ (Lane.Restored socksAddr) s.mgr.lanes m.lanes := by
    have hrestored := restored_of_renew m hrenew
    rw [hruntime] at hrestored
    rw [hlanes]
    exact hrestored
  -- Every mark is of a lane of the pool, and was taken back with the lane's rotation.
  have hunavailable : m.unavailable = ∅ := by
    refine Finset.eq_empty_of_forall_notMem fun id hid => ?_
    have hlt : id.val < s.mgr.config.lanes := by
      rcases hmarked id hid with hid | hid
      · exact hs.marked id hid
      · obtain ⟨lane, hmem, rfl⟩ := List.mem_map.mp hid
        exact hnum.lt hmem
    obtain ⟨lane, hmem, rfl⟩ := hnum.exists_lane hlt
    exact (hunmarked lane hmem).mp hid (hrenew lane hmem)
  refine ⟨m.publishReady, ⟨config.id, socksAddr⟩, heq, rfl, ?_⟩
  have hnum' : Numbered m.config.lanes m.lanes := by
    rw [hconf]
    exact numbered_of_restored hnum hrestored
  refine recovered_of_restored hnum' hinst hrestored hunavailable ?_
  show readyLanes m.lanes m.unavailable = m.lanes.map (·.endpoint)
  rw [hunavailable]
  exact readyLanes_of_restored hrestored

/-! ## The sections, interleaved with other calls -/

/-- While the restart runs, no call is inside `queue_rotation`, and what the manager asks of the
outside world succeeds. -/
def restartsAlone (s : State) (a : Action) : Prop :=
  (∀ c, (s.calls c).rotates = none) ∧
    match a with
    | .receive _ => False
    | .tick _ => False
    | .work env =>
      match s.pc with
      | .stop _ _ => env.stop = .ok ()
      | .start _ _ => ∃ socksAddr, env.start = .ok socksAddr
      | .renew _ (id :: _) => ∃ bytes, env.random id = .ok bytes
      | _ => True
    | _ => True

/-- The lane has not been rotated yet, and can be. -/
structure Lane.Waiting (lane lane' : Lane) : Prop where
  id : lane'.id = lane.id
  epoch : lane'.epoch = lane.epoch
  bound : lane.epoch + 1 < 2^64

/-- How far the lane is, with the ids that are left to the loop of `restart`. -/
structure Lane.Restoring (socksAddr : SocketAddr) (left : List LaneId) (lane lane' : Lane) :
    Prop where
  waiting : lane.id ∈ left → lane.Waiting lane'
  restored : lane.id ∉ left → lane.Restored socksAddr lane'

/-- How far the restart of the call is, by where the manager stands in it. -/
inductive Restoring (before : List Lane) (call : CallId) (m : ManagerState) : ManagerPc → Prop
  | clear {config} (hmarked : ∀ id ∈ m.unavailable, id ∈ before.map (·.id))
      (hlanes : m.lanes = before) : Restoring before call m (.clear config call)
  | mark {config} (hmarked : ∀ id ∈ m.unavailable, id ∈ before.map (·.id))
      (hlanes : m.lanes = before) : Restoring before call m (.mark config call)
  | retire {config} (hmarked : ∀ id, id ∈ m.unavailable ↔ id ∈ before.map (·.id))
      (hlanes : m.lanes = before) : Restoring before call m (.retire config call)
  | stop {config} (hmarked : ∀ id, id ∈ m.unavailable ↔ id ∈ before.map (·.id))
      (hlanes : List.Forall₂ Lane.Waiting before m.lanes) :
      Restoring before call m (.stop config call)
  | start {config} (hmarked : ∀ id, id ∈ m.unavailable ↔ id ∈ before.map (·.id))
      (hlanes : List.Forall₂ Lane.Waiting before m.lanes) :
      Restoring before call m (.start config call)
  | renew {ids inst} (hinst : m.inst = some inst) (hruntime : m.runtime = ⟨inst.id, inst.socksAddr⟩)
      (hnodup : ids.Nodup) (hmarked : ∀ id, id ∈ m.unavailable ↔ id ∈ ids)
      (hlanes : List.Forall₂ (Lane.Restoring inst.socksAddr ids) before m.lanes) :
      Restoring before call m (.renew call ids)
  | renewUnmark {id ids inst} (hinst : m.inst = some inst)
      (hruntime : m.runtime = ⟨inst.id, inst.socksAddr⟩) (hnodup : (id :: ids).Nodup)
      (hmarked : ∀ id', id' ∈ m.unavailable ↔ id' ∈ id :: ids)
      (hlanes : List.Forall₂ (Lane.Restoring inst.socksAddr ids) before m.lanes) :
      Restoring before call m (.renewUnmark call id ids)
  | compute {inst} (hinst : m.inst = some inst) (hmarked : m.unavailable = ∅)
      (hlanes : List.Forall₂ (Lane.Restored inst.socksAddr) before m.lanes) :
      Restoring before call m (.compute (.restart call) (.ok ()))
  | write {inst} (hinst : m.inst = some inst) (hmarked : m.unavailable = ∅)
      (hlanes : List.Forall₂ (Lane.Restored inst.socksAddr) before m.lanes) :
      Restoring before call m (.write (m.lanes.map (·.endpoint)) (.restart call) (.ok ()))
  | respond {inst} (h : Recovered before inst m) :
      Restoring before call m (.respond (.restart call) (.ok ()))
  | answered : Restoring before call m .idle

/-- A call outside `queue_rotation` leaves the manager's state as it is. -/
theorem CallMove.mgr_eq {c : CallId} {effect : Effect} {pc' : CallPc}
    (hmove : CallMove s c (s.calls c) effect pc') (hrotates : (s.calls c).rotates = none) :
    (s.apply effect).mgr = s.mgr := by
  cases effect with
  | mark lane =>
    obtain ⟨snapshot, wait, hpc, -⟩ := hmove.marks
    simp [hpc, CallPc.rotates] at hrotates
  | write ready =>
    obtain ⟨lane, snapshot, wait, hpc, -⟩ := hmove.writes
    simp [hpc, CallPc.rotates] at hrotates
  | unmark lane =>
    generalize s.calls c = pc at hmove hrotates
    cases hmove
    simp [CallPc.rotates] at hrotates
  | _ => rfl

/-- The lane keeps its id. -/
theorem Lane.Restoring.id {socksAddr : SocketAddr} {left : List LaneId} {lane lane' : Lane}
    (h : lane.Restoring socksAddr left lane') : lane'.id = lane.id := by
  by_cases hmem : lane.id ∈ left
  · exact (h.waiting hmem).id
  · exact (h.restored hmem).id

/-- The lane whose turn it is can be rotated. -/
theorem Lane.Restoring.canRenew {socksAddr : SocketAddr} {left : List LaneId} {lane lane' : Lane}
    {env : Env} (h : lane.Restoring socksAddr left lane') (hmem : lane'.id ∈ left)
    (hrandom : ∃ bytes, env.random lane'.id = .ok bytes) : CanRenew env lane' := by
  rw [h.id] at hmem
  have hwaiting := h.waiting hmem
  refine ⟨?_, hrandom⟩
  rw [hwaiting.epoch]
  exact hwaiting.bound

/-- One lane of the loop of `restart` is restored, and the others are as far as they were. -/
theorem restoring_renew {m : ManagerState} {inst : TorInstance} {env : Env} {id : LaneId}
    {ids : List LaneId} (hruntime : m.runtime = ⟨inst.id, inst.socksAddr⟩)
    (hrandom : ∃ bytes, env.random id = .ok bytes) (hnew : id ∉ ids)
    (hlanes : List.Forall₂ (Lane.Restoring inst.socksAddr (id :: ids)) before lanes) :
    List.Forall₂ (Lane.Restoring inst.socksAddr ids) before
      (lanes.map fun lane => if lane.id = id then (m.renew env lane).1 else lane) := by
  refine List.forall₂_map_right_iff.mpr (hlanes.imp fun lane lane' h => ?_)
  by_cases hid : lane'.id = id
  · have hrenew : CanRenew env lane' := by
      refine h.canRenew ?_ (by rw [hid]; exact hrandom)
      rw [hid]
      exact List.mem_cons_self
    have hrestored := (m.renew_regenerated hrenew).restored
    have hwaiting := h.waiting (by rw [← h.id, hid]; exact List.mem_cons_self)
    rw [hruntime] at hrestored
    rw [if_pos hid]
    refine ⟨fun hmem => ?_, fun _ => ⟨hrestored.id.trans h.id, ?_, hrestored.state,
      hrestored.addr⟩⟩
    · rw [← h.id, hid] at hmem
      exact absurd hmem hnew
    · rw [hrestored.epoch, hwaiting.epoch]
  · have hid' : lane.id ≠ id := by
      rw [← h.id]
      exact hid
    rw [if_neg hid]
    exact ⟨fun hmem => h.waiting (List.mem_cons_of_mem id hmem),
      fun hmem => h.restored (by simpa [hid'] using hmem)⟩

/-- A section of the restart takes it one step further. -/
theorem Restoring.work {call : CallId} {env : Env} (hw : WellFormed s)
    (hbound : ∀ lane ∈ before, lane.epoch + 1 < 2^64)
    (hs : Restoring before call s.mgr s.pc) (hG : restartsAlone s (.work env))
    (h : work s env = some t) : Restoring before call t.mgr t.pc := by
  have hG := hG.2
  unfold Torlane.work at h
  generalize hpc : s.pc = pc at hs
  simp only [hpc] at h hG
  cases hs with
  | clear hmarked hlanes =>
    obtain rfl := Option.some.inj h
    exact .mark hmarked hlanes
  | mark hmarked hlanes =>
    obtain rfl := Option.some.inj h
    refine .retire (fun id => ?_) hlanes
    show id ∈ s.mgr.unavailable ∪ (s.mgr.lanes.map (·.id)).toFinset ↔ _
    rw [hlanes, Finset.mem_union, List.mem_toFinset]
    exact ⟨fun hid => hid.elim (hmarked id) fun hid => hid, .inr⟩
  | retire hmarked hlanes =>
    obtain rfl := Option.some.inj h
    have hwaiting : List.Forall₂ Lane.Waiting before
        ((s.mgr.setStates .retiring).takeInstance).lanes := by
      show List.Forall₂ Lane.Waiting before (s.mgr.lanes.map _)
      rw [hlanes]
      exact forall₂_map_self fun lane hmem => ⟨rfl, rfl, hbound lane hmem⟩
    show Restoring before call ((s.mgr.setStates .retiring).takeInstance) (ite ..)
    split_ifs
    · exact .stop hmarked hwaiting
    · exact .start hmarked hwaiting
  | stop hmarked hlanes =>
    simp only [hG] at h
    obtain rfl := Option.some.inj h
    exact .start hmarked hlanes
  | start hmarked hlanes =>
    obtain ⟨socksAddr, hstart⟩ := hG
    simp only [hstart] at h
    obtain rfl := Option.some.inj h
    have hids : s.mgr.lanes.map (·.id) = before.map (·.id) :=
      map_eq_map_of_forall₂ (hlanes.imp fun lane lane' h => h.id).flip
    refine .renew rfl rfl (ManagerState.nodup_ids hw.numbered) (fun id => ?_) ?_
    · rw [hids]
      exact hmarked id
    · -- Every lane is still left.
      have hmem : List.Forall₂ (fun lane lane' => lane ∈ before ∧ lane.Waiting lane') before
          s.mgr.lanes := (List.forall₂_and_left _ _).mpr ⟨fun lane hmem => hmem, hlanes⟩
      refine hmem.imp fun lane lane' h => ⟨fun _ => h.2, fun hnot => absurd ?_ hnot⟩
      rw [hids]
      exact List.mem_map_of_mem h.1
  | @renew ids inst hinst hruntime hnodup hmarked hlanes =>
    cases ids with
    | nil =>
      obtain rfl := Option.some.inj h
      refine .compute hinst (Finset.eq_empty_of_forall_notMem fun id hid => ?_) ?_
      · simpa using (hmarked id).mp hid
      · exact hlanes.imp fun lane lane' h => h.restored (List.not_mem_nil)
    | cons id ids =>
      obtain ⟨hnew, -⟩ := List.nodup_cons.mp hnodup
      obtain ⟨lane, hmem, hid⟩ := hw.numbered.exists_lane
        (hw.renewing id (by rw [hpc]; exact List.mem_cons_self))
      obtain ⟨lane₀, -, hlane⟩ := exists_of_forall₂ hlanes hmem
      have hrenew : CanRenew env lane :=
        hlane.canRenew (by rw [hid]; exact List.mem_cons_self) (by rw [hid]; exact hG)
      have hresult := (s.mgr.canRenew_iff env lane).mp hrenew
      simp only [ManagerState.renewLane_eq hw.numbered env hmem hid, hresult, decide_true, if_true]
        at h
      obtain rfl := Option.some.inj h
      exact .renewUnmark hinst hruntime hnodup hmarked
        (restoring_renew hruntime hG hnew hlanes)
  | @renewUnmark id ids inst hinst hruntime hnodup hmarked hlanes =>
    obtain rfl := Option.some.inj h
    obtain ⟨hnew, hnodup⟩ := List.nodup_cons.mp hnodup
    refine .renew hinst hruntime hnodup (fun id' => ?_) hlanes
    show id' ∈ s.mgr.unavailable.erase id ↔ id' ∈ ids
    rw [Finset.mem_erase, hmarked id', List.mem_cons]
    constructor
    · rintro ⟨hne, heq | hmem⟩
      · exact absurd heq hne
      · exact hmem
    · intro hmem
      exact ⟨fun heq => hnew (heq ▸ hmem), .inr hmem⟩
  | compute hinst hmarked hlanes =>
    obtain rfl := Option.some.inj h
    show Restoring before call s.mgr
      (.write (readyLanes s.mgr.lanes s.mgr.unavailable) (.restart call) (.ok ()))
    rw [hmarked, readyLanes_of_restored hlanes]
    exact .write hinst hmarked hlanes
  | write hinst hmarked hlanes =>
    obtain rfl := Option.some.inj h
    exact .respond (recovered_of_restored hw.numbered hinst hlanes hmarked rfl)
  | respond hrecovered =>
    obtain rfl := Option.some.inj h
    exact .answered
  | answered => simp at h

/-- Every step that meets the guard takes the restart further, or leaves it where it is. -/
theorem Restoring.step {call : CallId} {a : Action} (hw : WellFormed s)
    (hbound : ∀ lane ∈ before, lane.epoch + 1 < 2^64)
    (hs : Restoring before call s.mgr s.pc) (hG : restartsAlone s a) (h : step s a = some t) :
    Restoring before call t.mgr t.pc := by
  cases a with
  | work env => exact hs.work hw hbound hG h
  | receive env => exact hG.2.elim
  | tick env => exact hG.2.elim
  | _ =>
    rcases step_cases hw h with ⟨c, pc, effect, pc', rfl, hmove, rfl, -⟩ | hmove
    · rw [State.setCall_mgr, hmove.mgr_eq (hG.1 c)]
      simpa using hs
    · cases hmove

/-- The manager's own steps lead from the loop of `restart` to its response. -/
theorem exists_works_renew (s : State) (env : Env) (call : CallId) (ids : List LaneId) :
    ∃ t, Works env { s with pc := .renew call ids } t ∧
      t.pc = .respond (.restart call) (.ok ()) := by
  have hloop := works_renew s env call ids
  exact ⟨_, hloop.trans (Works.head rfl (Works.head rfl .refl)), rfl⟩

/-- Where Tor starts, the manager's own steps lead from its start to the response. -/
theorem exists_works_start (s : State) {env : Env} {socksAddr : SocketAddr}
    (hstart : env.start = .ok socksAddr) (config : InstanceConfig) (call : CallId) :
    ∃ t, Works env { s with pc := .start config call } t ∧
      t.pc = .respond (.restart call) (.ok ()) := by
  obtain ⟨t, hworks, hpc⟩ := exists_works_renew
    { s with mgr := s.mgr.adopt ⟨config.id, socksAddr⟩ } env call (s.mgr.lanes.map (·.id))
  refine ⟨t, Works.head ?_ hworks, hpc⟩
  simp only [Torlane.work, hstart]

/-- Wherever the manager stands in a restart, its own steps lead to the response. -/
theorem Restoring.exists_works {call : CallId} (hs : Restoring before call s.mgr s.pc)
    (hidle : s.pc ≠ .idle) {env : Env} (hstop : env.stop = .ok ()) {socksAddr : SocketAddr}
    (hstart : env.start = .ok socksAddr) :
    ∃ t, Works env s t ∧ t.pc = .respond (.restart call) (.ok ()) := by
  have hhead {s t : State} (h : Torlane.work s env = some t)
      (hrest : ∃ u, Works env t u ∧ u.pc = .respond (.restart call) (.ok ())) :
      ∃ u, Works env s u ∧ u.pc = .respond (.restart call) (.ok ()) := by
    obtain ⟨u, hworks, hpc⟩ := hrest
    exact ⟨u, Works.head h hworks, hpc⟩
  -- The sections, from the last one to the first one.
  have hstart' (s : State) (config : InstanceConfig) := exists_works_start s hstart config call
  have hstop' (s : State) (config : InstanceConfig) :
      ∃ t, Works env { s with pc := .stop config call } t ∧
        t.pc = .respond (.restart call) (.ok ()) :=
    hhead (by simp only [Torlane.work, hstop]) (hstart' s config)
  have hretire (s : State) (config : InstanceConfig) :
      ∃ t, Works env { s with pc := .retire config call } t ∧
        t.pc = .respond (.restart call) (.ok ()) := by
    let retired := { s with mgr := (s.mgr.setStates .retiring).takeInstance }
    refine hhead rfl ?_
    cases hinst : s.mgr.inst with
    | none => simpa [retired, hinst] using hstart' retired config
    | some inst => simpa [retired, hinst] using hstop' retired config
  have hmark (s : State) (config : InstanceConfig) :
      ∃ t, Works env { s with pc := .mark config call } t ∧
        t.pc = .respond (.restart call) (.ok ()) :=
    hhead rfl (hretire { s with mgr := s.mgr.markAll } config)
  have hat {pc : ManagerPc} (hpc : s.pc = pc) : s = { s with pc } := by
    rw [← hpc]
  generalize hpc : s.pc = pc at hs hidle
  rw [hat hpc]
  cases hs with
  | clear => exact hhead rfl (hmark { s with mgr := s.mgr.clearReady } _)
  | mark => exact hmark s _
  | retire => exact hretire s _
  | stop => exact hstop' s _
  | start => exact hstart' s _
  | renew => exact exists_works_renew s env call _
  | @renewUnmark id ids =>
    exact hhead rfl (exists_works_renew { s with mgr := s.mgr.unmark id } env call ids)
  | compute => exact ⟨_, Works.head rfl (Works.head rfl .refl), rfl⟩
  | write => exact ⟨_, Works.head rfl .refl, rfl⟩
  | respond => exact ⟨_, .refl, rfl⟩
  | answered => exact absurd rfl hidle

/-- The restart begins with the lanes as they are. -/
theorem restoring_receive (hs : Restartable s) (queue : List ManagerCommand) (env : Env)
    (call : CallId) :
    Restoring s.mgr.lanes call (receive { s with queue } env (.restart call)).mgr
      (receive { s with queue } env (.restart call)).pc := by
  obtain ⟨config, hconfig⟩ := Option.isSome_iff_exists.mp hs.managed
  simp only [receive, hconfig]
  refine .clear (fun id hid => ?_) rfl
  obtain ⟨lane, hmem, hlane⟩ := hs.wellFormed.numbered.exists_lane (hs.marked id hid)
  rw [← hlane]
  exact List.mem_map_of_mem hmem

/-- A restart of a managed pool recovers it, from every reachable state, if no lane's epoch is the
last one, the instance that is held stops, the new one starts, and the credentials of every lane are
generated. The first part is about `restart` as a whole. The second part is about its sections,
interleaved with steps of any other calls outside `queue_rotation`: the manager can always go on to
its response, and whenever it responds, the response is `Ok` and the pool has recovered. -/
theorem restart_recovers (hs : ManagedInit s) (h : Reaches step anyStep s t)
    (hbound : ∀ lane ∈ t.mgr.lanes, lane.epoch + 1 < 2^64) :
    (∀ env socksAddr, (t.mgr.inst.isSome → env.stop = .ok ()) → env.start = .ok socksAddr →
      (∀ lane ∈ t.mgr.lanes, ∃ bytes, env.random lane.id = .ok bytes) →
      ∃ m inst, t.mgr.restart env = (m, .ok ()) ∧ inst.socksAddr = socksAddr ∧
        Recovered t.mgr.lanes inst m) ∧
    ∀ env call rest t' u, t.queue = .restart call :: rest → step t (.receive env) = some t' →
      Reaches step restartsAlone t' u →
      (∀ job result, u.pc = .respond job result →
        job = .restart call ∧ result = .ok () ∧ ∃ inst, Recovered t.mgr.lanes inst u.mgr) ∧
      (u.pc ≠ .idle → ∀ env socksAddr, env.stop = .ok () → env.start = .ok socksAddr →
        ∃ v, Works env u v ∧ v.pc = .respond (.restart call) (.ok ())) := by
  have hrestartable := hs.restartable h
  constructor
  · intro env socksAddr hstop hstart hrandom
    exact restart_recovered hrestartable hstop hstart fun lane hmem =>
      ⟨hbound lane hmem, hrandom lane hmem⟩
  · intro env call rest t' u hqueue hreceive hrun
    have ht' : t' = receive { t with queue := rest } env (.restart call) := by
      simp only [step, hqueue] at hreceive
      split at hreceive
      · next command rest' hpc hcons =>
        obtain ⟨rfl, rfl⟩ := List.cons_eq_cons.mp hcons
        exact (Option.some.inj hreceive).symm
      · cases hreceive
    have hw : WellFormed t' := hrestartable.wellFormed.step hreceive
    have hstart : Restoring t.mgr.lanes call t'.mgr t'.pc := by
      rw [ht']
      exact restoring_receive hrestartable rest env call
    have hu : Restoring t.mgr.lanes call u.mgr u.pc :=
      hrun.invariant_of (I := fun u => Restoring t.mgr.lanes call u.mgr u.pc)
        (fun _ _ _ _ h hw => hw.step h) (fun _ _ _ hG h hw hs => hs.step hw hbound hG h) hw hstart
    constructor
    · intro job result hpc
      rw [hpc] at hu
      cases hu with
      | respond hrecovered => exact ⟨rfl, rfl, _, hrecovered⟩
    · intro hidle env socksAddr hstop hstart
      exact hu.exists_works hidle hstop hstart

/-- The pool of two lanes recovers after a restart that has failed. -/
theorem restart_recovers_twoLanes :
    ∃ t, run step twoLanePool failedRestart = some t ∧ t.mgr.inst = none ∧
      t.mgr.lanes.map (·.state) = [.failed, .failed] ∧
      ∃ m inst, t.mgr.restart twoLaneEnv = (m, .ok ()) ∧ inst.socksAddr = twoLaneAddr ∧
        Recovered t.mgr.lanes inst m := by
  have hrun : run step twoLanePool failedRestart = some _ := rfl
  refine ⟨_, hrun, rfl, by decide, ?_⟩
  refine (restart_recovers twoLanePool_managed (reaches_of_run hrun) (by decide)).1 twoLaneEnv
    twoLaneAddr (fun _ => rfl) rfl fun _ _ => ⟨_, rfl⟩

/-! ## The reported success -/

/-- What the success of a restart should mean: every lane is ready one epoch further, at the new
address; and where a lane cannot be rotated, there is no success. -/
def ReportsRestart (m : ManagerState) (env : Env) : Prop :=
  ((m.restart env).2 = .ok () → ∃ socksAddr, env.start = .ok socksAddr ∧
    List.Forall₂ (Lane.Restored socksAddr) m.lanes (m.restart env).1.lanes) ∧
  ((∃ lane ∈ m.lanes, ¬ CanRenew env lane) → (m.restart env).2 ≠ .ok ())

/-- In every reachable state, `restart` reports its success as it should if and only if it fails
before it comes to the lanes, or every lane can be rotated. -/
theorem restart_ok_iff (hs : Init s) (h : Reaches step anyStep s t) (env : Env) :
    ReportsRestart t.mgr env ↔
      ¬ t.mgr.Restarts env ∨ ∀ lane ∈ t.mgr.lanes, CanRenew env lane := by
  have hw : WellFormed t := hs.wellFormed.reaches h
  by_cases hrestarts : t.mgr.Restarts env
  · obtain ⟨hconfig, hstop, socksAddr, hstart⟩ := hrestarts
    obtain ⟨config, hconfig'⟩ := Option.isSome_iff_exists.mp hconfig
    obtain ⟨m, heq, -, hruntime, -, hlanes, -⟩ :=
      ManagerState.restart_eq hw.numbered hconfig' hstop hstart
    have hok : (t.mgr.restart env).2 = .ok () := by rw [heq]
    constructor
    · intro hreports
      right
      by_contra hall
      simp only [not_forall] at hall
      obtain ⟨lane, hmem, hrenew⟩ := hall
      exact hreports.2 ⟨lane, hmem, hrenew⟩ hok
    · intro hcondition
      have hall := hcondition.resolve_left fun hnot => hnot ⟨hconfig, hstop, socksAddr, hstart⟩
      constructor
      · intro _
        refine ⟨socksAddr, hstart, ?_⟩
        have hrestored := restored_of_renew m hall
        rw [hruntime, ← hlanes] at hrestored
        rw [heq]
        exact hrestored
      · rintro ⟨lane, hmem, hrenew⟩
        exact absurd (hall lane hmem) hrenew
  · -- Without a new instance there is no success.
    obtain ⟨error, herror⟩ := (ManagerState.restart_error hrestarts).1
    refine iff_of_true ⟨fun hok => ?_, fun _ hok => ?_⟩ (.inl hrestarts)
    · rw [herror] at hok
      cases hok
    · rw [herror] at hok
      cases hok

/-- The random source fails for lane 0. -/
def drainedEnv : Env where
  now := 0
  random id := if id = ⟨0⟩ then .error .unavailable else .ok (Vector.replicate 32 0)
  stop := .ok ()
  start := .ok twoLaneAddr

/-- The pool of two lanes, whose lanes can all be rotated, reports its restart as it should. -/
theorem restart_ok_iff_twoLanes : ReportsRestart twoLanePool.mgr twoLaneEnv :=
  (restart_ok_iff twoLanePool_init .refl twoLaneEnv).mpr
    (.inr fun lane hmem => ⟨by revert lane; decide, _, rfl⟩)

/-- A restart reports its success though lane 0 could not be rotated. -/
theorem restart_ignores_failure :
    Init twoLanePool ∧ (twoLanePool.mgr.restart drainedEnv).2 = .ok () ∧
      (twoLanePool.mgr.restart drainedEnv).1.lanes.map (·.state) = [.failed, .ready] ∧
      ¬ ReportsRestart twoLanePool.mgr drainedEnv := by
  have hok : (twoLanePool.mgr.restart drainedEnv).2 = .ok () := rfl
  refine ⟨twoLanePool_init, hok, by decide, fun hreports => ?_⟩
  have hmem : twoLanes.get ⟨0, by decide⟩ ∈ twoLanePool.mgr.lanes := List.get_mem ..
  refine hreports.2 ⟨_, hmem, ?_⟩ hok
  rintro ⟨-, bytes, hbytes⟩
  cases hbytes

end Torlane
