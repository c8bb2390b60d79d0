import Torlane.Pool.Moves

/-!
# Generations

A lane's generation is its epoch, with the endpoint and the creation time that belong to it. Each
operation of the manager chooses the lanes that it rotates by a rule of its own, and all of them
rotate by `renew`. `Succeeds` says what becomes of a lane then: a chosen lane that can be rotated is
regenerated, and every other lane keeps its generation. `generations_step` is the result for the
whole operations, with the rules in `Operation.chooses`; `regenerates_step` is the weaker one for
each step of the interleaved system.
-/

namespace Torlane

open Transition

/-- The lane is still at its generation. -/
structure Lane.Kept (lane lane' : Lane) : Prop where
  id : lane'.id = lane.id
  epoch : lane'.epoch = lane.epoch
  endpoint : lane'.endpoint = lane.endpoint
  createdAt : lane'.createdAt = lane.createdAt

/-- The lane is at its next generation, which was just made for the runtime. -/
structure Lane.Regenerated (runtime : RuntimeState) (env : Env) (lane lane' : Lane) : Prop where
  id : lane'.id = lane.id
  epoch : lane'.epoch = lane.epoch + 1
  endpoint : ∃ auth, generateLaneAuth lane.id (lane.epoch + 1) (env.random lane.id) = .ok auth ∧
    lane'.endpoint = ⟨lane.id, lane.epoch + 1, runtime.id, runtime.socksAddr, auth⟩
  assignments : lane'.assignments = 0
  createdAt : lane'.createdAt = env.now
  state : lane'.state = .ready

/-- What becomes of a lane where an operation rotates the lanes that it chooses. -/
structure Succeeds (runtime : RuntimeState) (env : Env) (chosen : Lane → Prop) (lane lane' : Lane) :
    Prop where
  regenerated : chosen lane → CanRenew env lane → lane.Regenerated runtime env lane'
  kept : ¬ (chosen lane ∧ CanRenew env lane) → lane.Kept lane'

variable {runtime : RuntimeState} {env : Env} {chosen : Lane → Prop} {lane lane' : Lane}
  {lanes lanes' : List Lane}

/-- A lane that is left as it is keeps its generation. -/
theorem Lane.Kept.refl (lane : Lane) : lane.Kept lane := ⟨rfl, rfl, rfl, rfl⟩

/-- No lane is both kept and regenerated. -/
theorem Lane.Regenerated.not_kept (h : lane.Regenerated runtime env lane') : ¬ lane.Kept lane' := by
  intro hkept
  have hepoch := h.epoch
  have hepoch' := hkept.epoch
  omega

/-- A lane that is not chosen keeps its generation if it is left as it is. -/
theorem Succeeds.of_not_chosen (hchosen : ¬ chosen lane) (h : lane.Kept lane') :
    Succeeds runtime env chosen lane lane' :=
  ⟨fun hlane => absurd hlane hchosen, fun _ => h⟩

/-- A lane that an operation leaves or rotates is either kept or regenerated. -/
theorem Succeeds.kept_or_regenerated (h : Succeeds runtime env chosen lane lane') :
    lane.Kept lane' ∨ lane.Regenerated runtime env lane' := by
  by_cases hrenew : chosen lane ∧ CanRenew env lane
  · exact .inr (h.regenerated hrenew.1 hrenew.2)
  · exact .inl (h.kept hrenew)

/-- A lane is regenerated if and only if it is chosen and can be rotated. -/
theorem Succeeds.regenerated_iff (h : Succeeds runtime env chosen lane lane') :
    lane.Regenerated runtime env lane' ↔ chosen lane ∧ CanRenew env lane := by
  constructor
  · intro hregenerated
    by_contra hrenew
    exact hregenerated.not_kept (h.kept hrenew)
  · intro hrenew
    exact h.regenerated hrenew.1 hrenew.2

namespace ManagerState

variable {s : ManagerState}

/-- A rotation keeps the lane's id. -/
theorem renew_id (s : ManagerState) (env : Env) (lane : Lane) :
    (s.renew env lane).1.id = lane.id := by
  have hselects : (Cause.rotate lane.id).selects lane := rfl
  exact (s.renew_move env lane.assignments hselects).id_eq

/-- A rotation regenerates a lane that can be rotated. -/
theorem renew_regenerated (s : ManagerState) (h : CanRenew env lane) :
    lane.Regenerated s.runtime env (s.renew env lane).1 := by
  rcases rotateLane_cases lane s.runtime.socksAddr s.runtime.id env.now (env.random lane.id) with
    ⟨bytes, auth, -, -, hauth, heq⟩ | ⟨error, hnot, -⟩
  · simp only [renew, heq]
    exact ⟨rfl, rfl, ⟨auth, hauth, rfl⟩, rfl, rfl, rfl⟩
  · exact absurd ⟨h.2, h.1⟩ hnot

/-- A rotation of a chosen lane, whatever its state and count. -/
theorem renew_succeeds (s : ManagerState) (assignments : ℕ) (state : LaneState)
    (hchosen : chosen lane) :
    Succeeds s.runtime env chosen lane (s.renew env { lane with assignments, state }).1 := by
  constructor
  -- Neither field is read by a rotation that succeeds.
  · intro _ hrenew
    have h : Lane.Regenerated s.runtime env { lane with assignments, state }
        (s.renew env { lane with assignments, state }).1 := s.renew_regenerated hrenew
    exact ⟨h.id, h.epoch, h.endpoint, h.assignments, h.createdAt, h.state⟩
  · intro hnot
    have hrenew : ¬ CanRenew env { lane with assignments, state } := fun h => hnot ⟨hchosen, h⟩
    obtain ⟨error, heq⟩ := s.renew_error hrenew
    rw [heq]
    exact ⟨rfl, rfl, rfl, rfl⟩

/-- Replacing the chosen lane by a successor of it. -/
theorem setLane_succeeds {n : ℕ} (hnum : Numbered n s.lanes) (hmem : lane ∈ s.lanes)
    (hid : lane'.id = lane.id) (hchosen : ∀ other, chosen other → other.id = lane.id)
    (h : Succeeds runtime env chosen lane lane') :
    List.Forall₂ (Succeeds runtime env chosen) s.lanes (s.setLane lane').lanes := by
  unfold setLane
  refine forall₂_map_self fun other hother => ?_
  split_ifs with heq
  · obtain rfl : other = lane := hnum.eq_of_id hother hmem (heq.trans hid)
    exact h
  · refine .of_not_chosen (fun hlane => heq ?_) (.refl other)
    rw [hid]
    exact hchosen other hlane

/-! ## The operations -/

/-- The new instance of a restart starts: there is a configuration to start it from, and if an
instance is still held, it stops. -/
def Restarts (s : ManagerState) (env : Env) : Prop :=
  s.instanceConfig.isSome ∧ (s.inst.isSome → env.stop = .ok ()) ∧
    ∃ socksAddr, env.start = .ok socksAddr

end ManagerState

/-- The operations in which the manager rotates lanes. -/
inductive Operation where
  | assign (id : LaneId) (epoch : ℕ)
  | rotate (id : LaneId)
  | restart
  | tick

/-- The lanes that an operation has a reason to rotate. -/
def Operation.chooses (s : ManagerState) (env : Env) : Operation → Lane → Prop
  | .assign id epoch, lane =>
    lane.id = id ∧ lane.epoch = epoch ∧ lane.state = .ready ∧
      ∃ maximum, s.config.rotation.assignmentLimit = some maximum ∧
        maximum.toNat ≤ saturatingAdd lane.assignments 1
  | .rotate id, lane => lane.id = id
  | .restart, _ => s.Restarts env
  | .tick, lane =>
    lane.state = .ready ∧ ∃ ttl, s.config.rotation.duration = some ttl ∧
      ttl ≤ env.now - lane.createdAt

namespace ManagerState

variable {s : ManagerState}

/-- The manager's state after an operation. -/
def perform (s : ManagerState) (env : Env) : Operation → ManagerState
  | .assign id epoch => s.assign env id epoch
  | .rotate id => (s.rotate env id).1
  | .restart => (s.restart env).1
  | .tick => s.rotateExpired env

/-- `assign` rotates the lane that it counts up, if that completes the limit. -/
theorem assignLanes_succeeds {n : ℕ} (hnum : Numbered n s.lanes) (env : Env) (id : LaneId)
    (epoch : ℕ) :
    (s.assignLanes env id epoch).1.runtime = s.runtime ∧
      List.Forall₂ (Succeeds s.runtime env ((Operation.assign id epoch).chooses s env)) s.lanes
        (s.assignLanes env id epoch).1.lanes := by
  have hid {lane other : Lane} (hselects : (Cause.assign id epoch).selects lane)
      (hother : (Operation.assign id epoch).chooses s env other) : other.id = lane.id :=
    hother.1.trans hselects.1.symm
  rcases s.assignLanes_cases env id epoch with
    ⟨heq, hnone⟩ | ⟨maximum, hmax, lane, hmem, hselects, ⟨hlt, heq⟩ | ⟨hle, heq⟩⟩
  · rw [heq]
    refine ⟨rfl, List.forall₂_same.mpr fun other hother => ?_⟩
    refine .of_not_chosen ?_ (.refl other)
    rintro ⟨hid, hepoch, hready, maximum, hmax, -⟩
    exact hnone (by simp [hmax]) other hother ⟨hid, hepoch, hready⟩
  · rw [heq]
    refine ⟨rfl, setLane_succeeds hnum hmem rfl (fun _ => hid hselects) ?_⟩
    -- The count stays below the limit.
    refine .of_not_chosen ?_ ⟨rfl, rfl, rfl, rfl⟩
    rintro ⟨-, -, -, maximum', hmax', hle⟩
    obtain rfl : maximum = maximum' := Option.some.inj (hmax.symm.trans hmax')
    have hcount : saturatingAdd lane.assignments 1 < maximum.toNat := hlt
    omega
  · rw [heq]
    have hchosen : (Operation.assign id epoch).chooses s env lane :=
      ⟨hselects.1, hselects.2.1, hselects.2.2, maximum, hmax, hle⟩
    have hrenew : Succeeds s.runtime env ((Operation.assign id epoch).chooses s env) lane
        (s.renew env (counted lane)).1 := s.renew_succeeds _ lane.state hchosen
    have hlane : (s.renew env (counted lane)).1.id = lane.id := s.renew_id env (counted lane)
    exact ⟨rfl, setLane_succeeds hnum hmem hlane (fun _ => hid hselects) hrenew⟩

/-- `rotate` rotates the lane that it names, if there is one. -/
theorem rotateLanes_succeeds {n : ℕ} (hnum : Numbered n s.lanes) (env : Env) (id : LaneId) :
    (s.rotateLanes env id = none ∧ ∀ lane ∈ s.lanes, lane.id ≠ id) ∨
      ∃ s' result, s.rotateLanes env id = some (s', result) ∧ s'.runtime = s.runtime ∧
        List.Forall₂ (Succeeds s.runtime env (·.id = id)) s.lanes s'.lanes := by
  unfold rotateLanes
  cases hfind : s.lanes.find? (·.id = id) with
  | none =>
    refine .inl ⟨rfl, fun lane hmem hid => ?_⟩
    simpa [hid] using List.find?_eq_none.mp hfind lane hmem
  | some lane =>
    have hid : lane.id = id := by simpa using List.find?_some hfind
    have hrenew : Succeeds s.runtime env (·.id = id) lane (s.renew env lane).1 :=
      s.renew_succeeds lane.assignments lane.state hid
    refine .inr ⟨s.setLane (s.renew env lane).1, _, rfl, rfl, ?_⟩
    exact setLane_succeeds hnum (List.mem_of_find?_eq_some hfind) (s.renew_id env lane)
      (fun other hother => hother.trans hid.symm) hrenew

/-- `rotate_expired` rotates the lanes that are as old as the configured duration. -/
theorem expireLanes_succeeds (s : ManagerState) (env : Env) :
    (s.expireLanes env).1.runtime = s.runtime ∧
      List.Forall₂ (Succeeds s.runtime env (Operation.tick.chooses s env)) s.lanes
        (s.expireLanes env).1.lanes := by
  cases httl : s.config.rotation.duration with
  | none =>
    simp only [expireLanes, httl]
    refine ⟨trivial, List.forall₂_same.mpr fun lane _ => .of_not_chosen ?_ (.refl lane)⟩
    rintro ⟨-, ttl, hsome, -⟩
    simp [httl] at hsome
  | some ttl =>
    simp only [expireLanes, httl]
    refine ⟨trivial, forall₂_map_self fun lane _ => ?_⟩
    split_ifs with hexpired
    · exact s.renew_succeeds lane.assignments lane.state ⟨hexpired.1, ttl, httl, hexpired.2⟩
    · refine .of_not_chosen ?_ (.refl lane)
      rintro ⟨hready, ttl', httl', hage⟩
      obtain rfl : ttl = ttl' := Option.some.inj (httl.symm.trans httl')
      exact hexpired ⟨hready, hage⟩

/-- One lane of the loop of `restart` rotates the lane with the id, and nothing else. -/
theorem renewLane_eq {n : ℕ} (hnum : Numbered n s.lanes) (env : Env) {id : LaneId}
    (hmem : lane ∈ s.lanes) (hid : lane.id = id) :
    s.renewLane env id =
      ({ s with lanes := s.lanes.map fun lane =>
          if lane.id = id then (s.renew env lane).1 else lane },
        decide ((s.renew env lane).2 = .ok ())) := by
  obtain ⟨other, hfind⟩ := Option.isSome_iff_exists.mp
    (List.find?_isSome (p := (·.id = id)).mpr ⟨lane, hmem, by simpa using hid⟩)
  -- The numbering makes the lane that the search finds the one with the id.
  obtain rfl : other = lane := by
    have hother : other.id = id := by simpa using List.find?_some hfind
    exact hnum.eq_of_id (List.mem_of_find?_eq_some hfind) hmem (hother.trans hid.symm)
  have hset : s.setLane (s.renew env other).1 =
      { s with lanes := s.lanes.map fun lane =>
          if lane.id = id then (s.renew env lane).1 else lane } := by
    unfold setLane
    congr 1
    refine List.map_congr_left fun lane hlane => ?_
    rw [s.renew_id env other, hid]
    split_ifs with heq
    · rw [hnum.eq_of_id hlane hmem (heq.trans hid.symm)]
    · rfl
  have hrotate : s.rotateLanes env id =
      some (s.setLane (s.renew env other).1, (s.renew env other).2) := by
    unfold rotateLanes
    rw [hfind]
    rfl
  unfold renewLane
  rw [hrotate, hset]
  cases (s.renew env other).2 with
  | ok => rfl
  | error error => rfl

/-- The loop of `restart` rotates the lanes that are left to it, and takes back the marks of those
that it could rotate. -/
theorem renewLanes_eq {n : ℕ} (hnum : Numbered n s.lanes) (env : Env) {ids : List LaneId}
    (hnodup : ids.Nodup) (hids : ∀ id ∈ ids, id.val < n) :
    ∃ unavailable : Finset LaneId,
      s.renewLanes env ids =
        { s with
          lanes := s.lanes.map fun lane => if lane.id ∈ ids then (s.renew env lane).1 else lane
          unavailable } ∧
      unavailable ⊆ s.unavailable ∧
      ∀ lane ∈ s.lanes, lane.id ∈ unavailable ↔
        lane.id ∈ s.unavailable ∧ ¬ (lane.id ∈ ids ∧ CanRenew env lane) := by
  induction ids generalizing s with
  | nil =>
    refine ⟨s.unavailable, ?_, subset_rfl, by simp⟩
    simp [renewLanes]
  | cons id ids ih =>
    obtain ⟨hnew, hnodup⟩ := List.nodup_cons.mp hnodup
    obtain ⟨lane, hmem, hid⟩ := hnum.exists_lane (hids id List.mem_cons_self)
    let rotated (lane : Lane) := if lane.id = id then (s.renew env lane).1 else lane
    have hrotated (lane : Lane) : (rotated lane).id = lane.id := by
      simp only [rotated]
      split_ifs
      · exact s.renew_id env lane
      · rfl
    -- The loop goes on from the state in which this lane has been rotated.
    let next : ManagerState :=
      { s with
        lanes := s.lanes.map rotated
        unavailable := if (s.renew env lane).2 = .ok () then s.unavailable.erase id
          else s.unavailable }
    have hnext : s.renewLanes env (id :: ids) = next.renewLanes env ids := by
      rw [renewLanes, renewLane_eq hnum env hmem hid]
      simp only [next, decide_eq_true_eq]
      split_ifs <;> rfl
    have hnum' : Numbered n next.lanes := by
      unfold Numbered
      rw [← hnum, List.map_map]
      exact List.map_congr_left fun lane _ => hrotated lane
    obtain ⟨unavailable, heq, hsub, hiff⟩ :=
      ih hnum' hnodup fun id' hid' => hids id' (List.mem_cons_of_mem id hid')
    refine ⟨unavailable, ?_, ?_, ?_⟩
    · rw [hnext, heq]
      show ({ next with lanes := _, unavailable := _ } : ManagerState) = _
      congr 1
      rw [List.map_map]
      refine List.map_congr_left fun other _ => ?_
      simp only [Function.comp_apply, hrotated, List.mem_cons]
      -- A lane that has been rotated is not among the ones that are left.
      by_cases hother : other.id = id
      · simp [hother, hnew, rotated]
      · simp only [rotated, hother, false_or, if_false]
        rfl
    · refine hsub.trans ?_
      simp only [next]
      split_ifs
      · exact Finset.erase_subset id s.unavailable
      · exact subset_rfl
    · intro other hother
      have hlater := hiff (rotated other) (List.mem_map_of_mem hother)
      rw [hrotated] at hlater
      rw [hlater]
      by_cases hsame : other.id = id
      · obtain rfl : other = lane := hnum.eq_of_id hother hmem (hsame.trans hid.symm)
        have hrenew := s.canRenew_iff env other
        simp only [next, hsame, hnew, List.mem_cons, true_or, true_and, false_and,
          not_false_eq_true, and_true, hrenew]
        split_ifs with hresult <;> simp [hresult]
      · have hrotated : rotated other = other := if_neg hsame
        simp only [next, hrotated, List.mem_cons, hsame, false_or]
        split_ifs <;> simp [hsame]

/-- The ids of numbered lanes are different. -/
theorem nodup_ids {n : ℕ} {lanes : List Lane} (hnum : Numbered n lanes) :
    (lanes.map (·.id)).Nodup := by
  rw [hnum]
  exact List.nodup_range.map fun _ _ => LaneId.mk.inj

/-- `restart` with a new instance that starts: every lane is rotated with the new runtime, and what
is published are the lanes that could be rotated. -/
theorem restart_eq {n : ℕ} (hnum : Numbered n s.lanes) {config : InstanceConfig}
    (hconfig : s.instanceConfig = some config) (hstop : s.inst.isSome → env.stop = .ok ())
    {socksAddr : SocketAddr} (hstart : env.start = .ok socksAddr) :
    ∃ s' : ManagerState, s.restart env = (s'.publishReady, .ok ()) ∧ s'.config = s.config ∧
      s'.runtime = ⟨config.id, socksAddr⟩ ∧ s'.inst = some ⟨config.id, socksAddr⟩ ∧
      s'.lanes = s.lanes.map (fun lane => (s'.renew env { lane with state := .retiring }).1) ∧
      (∀ id ∈ s'.unavailable, id ∈ s.unavailable ∨ id ∈ s.lanes.map (·.id)) ∧
      ∀ lane ∈ s.lanes, lane.id ∈ s'.unavailable ↔ ¬ CanRenew env lane := by
  let before := (s.clearReady.markAll.setStates .retiring).adopt ⟨config.id, socksAddr⟩
  have hbefore : Numbered n before.lanes := by
    unfold Numbered
    rw [← hnum]
    simp [before, setStates, markAll, clearReady, adopt]
  have hids : before.lanes.map (·.id) = s.lanes.map (·.id) := hbefore.trans hnum.symm
  obtain ⟨unavailable, heq, hsub, hiff⟩ := renewLanes_eq hbefore env (nodup_ids hbefore)
    fun id hid => by
      obtain ⟨lane, hmem, rfl⟩ := List.mem_map.mp hid
      exact hbefore.lt hmem
  have hmem {lane : Lane} (hlane : lane ∈ s.lanes) : lane.id ∈ before.lanes.map (·.id) := by
    rw [hids]
    exact List.mem_map_of_mem hlane
  refine ⟨before.renewLanes env (before.lanes.map (·.id)), ?_, ?_⟩
  · have hstopped : (if s.inst.isSome then env.stop else .ok ()) = .ok () := by
      split_ifs with hinst
      · exact hstop hinst
      · rfl
    have hheld : (s.clearReady.markAll.setStates .retiring).inst = s.inst := rfl
    unfold restart
    simp only [hconfig, hheld, hstopped, hstart]
    rfl
  · rw [heq]
    refine ⟨rfl, rfl, rfl, ?_, ?_, ?_⟩
    · show (s.lanes.map fun lane => { lane with state := .retiring }).map _ = _
      rw [List.map_map]
      refine List.map_congr_left fun lane hlane => ?_
      rw [Function.comp_apply, if_pos (hmem hlane)]
      rfl
    · intro id hid
      have hbefore : id ∈ s.unavailable ∪ (s.lanes.map (·.id)).toFinset := hsub hid
      simpa using hbefore
    · intro lane hlane
      have hretired : { lane with state := .retiring } ∈ before.lanes :=
        List.mem_map.mpr ⟨lane, hlane, rfl⟩
      have hmarked : lane.id ∈ before.unavailable :=
        Finset.mem_union_right _ (List.mem_toFinset.mpr (List.mem_map_of_mem hlane))
      have hlane' := hiff _ hretired
      simp only [hmarked, hmem hlane, true_and] at hlane'
      exact hlane'

/-- `restart` without a new instance that starts: it returns an error, and of the lanes, only their
states have changed. -/
theorem restart_error (h : ¬ s.Restarts env) :
    (∃ error, (s.restart env).2 = .error error) ∧
      List.Forall₂ Lane.Kept s.lanes (s.restart env).1.lanes := by
  have hkept (state : LaneState) : List.Forall₂ Lane.Kept s.lanes (s.setStates state).lanes :=
    forall₂_map_self fun _ _ => ⟨rfl, rfl, rfl, rfl⟩
  have hheld : (s.clearReady.markAll.setStates .retiring).inst = s.inst := rfl
  unfold restart
  cases hconfig : s.instanceConfig with
  | none => exact ⟨⟨_, rfl⟩, List.forall₂_same.mpr fun lane _ => .refl lane⟩
  | some config =>
    simp only [hheld]
    cases hstop : (if s.inst.isSome then env.stop else .ok ()) with
    | error error => exact ⟨⟨_, rfl⟩, hkept .retiring⟩
    | ok =>
      cases hstart : env.start with
      | error error =>
        refine ⟨⟨_, rfl⟩, ?_⟩
        -- The lanes are put into one state after the other.
        show List.Forall₂ Lane.Kept s.lanes ((s.lanes.map _).map _)
        rw [List.map_map]
        exact hkept .failed
      | ok socksAddr =>
        refine absurd ⟨by simp [hconfig], fun hinst => ?_, socksAddr, hstart⟩ h
        rwa [if_pos hinst] at hstop

/-- `restart` rotates every lane, if its new instance starts. -/
theorem restart_succeeds {n : ℕ} (hnum : Numbered n s.lanes) (env : Env) :
    List.Forall₂ (Succeeds (s.restart env).1.runtime env (Operation.restart.chooses s env)) s.lanes
      (s.restart env).1.lanes := by
  by_cases hrestarts : s.Restarts env
  · obtain ⟨hconfig, hstop, socksAddr, hstart⟩ := hrestarts
    obtain ⟨config, hconfig'⟩ := Option.isSome_iff_exists.mp hconfig
    obtain ⟨s', heq, -, -, -, hlanes, -⟩ := restart_eq hnum hconfig' hstop hstart
    rw [heq]
    show List.Forall₂ (Succeeds s'.runtime env _) s.lanes s'.lanes
    rw [hlanes]
    refine forall₂_map_self fun lane _ => ?_
    exact s'.renew_succeeds lane.assignments .retiring ⟨hconfig, hstop, socksAddr, hstart⟩
  · exact (restart_error hrestarts).2.imp fun lane lane' h => .of_not_chosen hrestarts h

/-- What an operation does to the lanes: the lanes that it chooses are rotated with the runtime
that the manager has afterwards. -/
theorem perform_succeeds {n : ℕ} (hnum : Numbered n s.lanes) (env : Env) (op : Operation) :
    List.Forall₂ (Succeeds (s.perform env op).runtime env (op.chooses s env)) s.lanes
      (s.perform env op).lanes := by
  cases op with
  | assign id epoch =>
    obtain ⟨hruntime, h⟩ := assignLanes_succeeds hnum env id epoch
    have heq : (s.assign env id epoch).runtime = (s.assignLanes env id epoch).1.runtime ∧
        (s.assign env id epoch).lanes = (s.assignLanes env id epoch).1.lanes := by
      unfold assign
      split <;> simp [*, publishReady]
    show List.Forall₂ (Succeeds (s.assign env id epoch).runtime env _) s.lanes
      (s.assign env id epoch).lanes
    rw [heq.1, heq.2, hruntime]
    exact h
  | rotate id =>
    show List.Forall₂ (Succeeds (s.rotate env id).1.runtime env _) s.lanes
      (s.rotate env id).1.lanes
    unfold rotate
    rcases rotateLanes_succeeds hnum env id with
      ⟨heq, hnone⟩ | ⟨s', result, heq, hruntime, h⟩
    · rw [heq]
      exact List.forall₂_same.mpr fun lane hmem => .of_not_chosen (hnone lane hmem) (.refl lane)
    · rw [← hruntime] at h
      rw [heq]
      cases result with
      | ok => exact h
      | error error => exact h
  | restart => exact restart_succeeds hnum env
  | tick =>
    obtain ⟨hruntime, h⟩ := s.expireLanes_succeeds env
    have heq : (s.rotateExpired env).runtime = (s.expireLanes env).1.runtime ∧
        (s.rotateExpired env).lanes = (s.expireLanes env).1.lanes := by
      unfold rotateExpired
      split <;> simp [*, publishReady]
    show List.Forall₂ (Succeeds (s.rotateExpired env).runtime env _) s.lanes
      (s.rotateExpired env).lanes
    rw [heq.1, heq.2, hruntime]
    exact h

end ManagerState

/-! ## The steps of the system -/

variable {s t : State}

/-- Each lane is left at its generation, or regenerated for the manager's runtime. -/
def Regenerates (m m' : ManagerState) : Prop :=
  List.Forall₂ (fun lane lane' =>
    lane.Kept lane' ∨ ∃ env, lane.Regenerated m'.runtime env lane') m.lanes m'.lanes

namespace Regenerates

variable {m m' : ManagerState}

/-- An update that leaves the generations. -/
theorem of_kept (h : List.Forall₂ Lane.Kept m.lanes m'.lanes) : Regenerates m m' :=
  h.imp fun _ _ => .inl

/-- An update that leaves the lanes. -/
theorem of_eq (h : m'.lanes = m.lanes) : Regenerates m m' := by
  refine of_kept ?_
  rw [h]
  exact List.forall₂_same.mpr fun lane _ => .refl lane

/-- An update that rotates some of the lanes. -/
theorem of_succeeds (hruntime : m'.runtime = m.runtime)
    (h : List.Forall₂ (Succeeds m.runtime env chosen) m.lanes m'.lanes) : Regenerates m m' := by
  unfold Regenerates
  rw [hruntime]
  exact h.imp fun _ _ h => h.kept_or_regenerated.imp_right fun h => ⟨env, h⟩

/-- An update that puts the lanes into one state. -/
theorem of_setStates (state : LaneState) (h : m'.lanes = (m.setStates state).lanes) :
    Regenerates m m' := by
  refine of_kept ?_
  rw [h]
  exact forall₂_map_self fun _ _ => ⟨rfl, rfl, rfl, rfl⟩

end Regenerates

/-- A command that is taken off the queue leaves each lane, or regenerates it. -/
theorem regenerates_receive {n : ℕ} (hnum : Numbered n s.mgr.lanes) (env : Env)
    (command : ManagerCommand) : Regenerates s.mgr (receive s env command).mgr := by
  cases command with
  | assign id epoch =>
    obtain ⟨hruntime, h⟩ := ManagerState.assignLanes_succeeds hnum env id epoch
    exact .of_succeeds hruntime h
  | rotate id response =>
    rcases ManagerState.rotateLanes_succeeds hnum env id with
      ⟨heq, -⟩ | ⟨m, result, heq, hruntime, h⟩
    · simp only [receive, heq]
      exact .of_eq rfl
    · cases result with
      | ok =>
        simp only [receive, heq]
        exact .of_succeeds hruntime h
      | error error =>
        simp only [receive, heq]
        exact .of_succeeds hruntime h
  | restart call =>
    cases hconfig : s.mgr.instanceConfig with
    | none =>
      simp only [receive, hconfig]
      exact .of_eq rfl
    | some config =>
      simp only [receive, hconfig]
      exact .of_eq rfl
  | shutdown call => exact .of_eq rfl

/-- A section of a command leaves each lane, or regenerates it. -/
theorem regenerates_work (hw : WellFormed s) (h : work s env = some t) :
    Regenerates s.mgr t.mgr := by
  unfold work at h
  cases hpc : s.pc with
  | respond job result =>
    obtain ⟨calls, heq, -⟩ := s.deliver_eq job.response result
    simp only [hpc, heq, Option.some.injEq] at h
    subst h
    exact .of_eq rfl
  | haltRespond call result =>
    obtain ⟨calls, heq, -⟩ := s.deliver_eq (some call) result
    simp only [hpc, heq, Option.some.injEq] at h
    subst h
    exact .of_eq rfl
  | retire config call =>
    simp only [hpc, Option.some.injEq] at h
    subst h
    exact .of_setStates .retiring rfl
  | stop config call =>
    simp only [hpc] at h
    split at h <;> cases h <;> exact .of_eq rfl
  | start config call =>
    simp only [hpc] at h
    split at h
    · cases h
      exact .of_setStates .failed rfl
    · cases h
      exact .of_eq rfl
  | renew call ids =>
    cases ids with
    | nil =>
      simp only [hpc, Option.some.injEq] at h
      subst h
      exact .of_eq rfl
    | cons id ids =>
      -- The loop visits the lanes of the pool only.
      obtain ⟨lane, hmem, hid⟩ := hw.numbered.exists_lane
        (hw.renewing id (by rw [hpc]; exact List.mem_cons_self))
      have heq := ManagerState.renewLane_eq hw.numbered env hmem hid
      simp only [hpc, heq, Option.some.injEq] at h
      subst h
      have hstep (other : Lane) : Succeeds s.mgr.runtime env (·.id = id) other
          (if other.id = id then (s.mgr.renew env other).1 else other) := by
        split_ifs with hother
        · exact s.mgr.renew_succeeds other.assignments other.state hother
        · exact .of_not_chosen hother (.refl other)
      exact .of_succeeds rfl (forall₂_map_self fun other _ => hstep other)
  | idle => simp [hpc] at h
  | finished => simp [hpc] at h
  | _ =>
    simp only [hpc, Option.some.injEq] at h
    subst h
    exact .of_eq rfl

/-- Every step of the system leaves each lane at its generation, or regenerates it. -/
theorem regenerates_step {a : Action} (hw : WellFormed s) (h : step s a = some t) :
    Regenerates s.mgr t.mgr := by
  cases a with
  | start c op =>
    simp only [step] at h
    split at h
    · cases h
      exact .of_eq (by simp)
    · cases h
  | advance c =>
    obtain ⟨⟨effect, pc⟩, -, rfl⟩ := Option.map_eq_some_iff.mp h
    exact .of_eq (by simp)
  | receive env =>
    simp only [step] at h
    split at h
    · next command rest hpc hqueue =>
      cases h
      exact regenerates_receive (s := { s with queue := rest }) hw.numbered env command
    · cases h
  | tick env =>
    simp only [step] at h
    split at h
    · cases h
      obtain ⟨hruntime, h⟩ := s.mgr.expireLanes_succeeds env
      exact .of_succeeds hruntime h
    · cases h
  | work env => exact regenerates_work hw h

/-- In every reachable state, every operation of the manager leaves each lane at its generation, or
regenerates it. It regenerates a lane if and only if it has a reason to rotate the lane and the lane
can be rotated. -/
theorem generations_step {s t : State} (hs : Init s) (h : Reaches step anyStep s t) (env : Env)
    (op : Operation) :
    List.Forall₂ (fun lane lane' =>
      (lane.Kept lane' ∨ lane.Regenerated (t.mgr.perform env op).runtime env lane') ∧
      (lane.Regenerated (t.mgr.perform env op).runtime env lane' ↔
        op.chooses t.mgr env lane ∧ CanRenew env lane))
      t.mgr.lanes (t.mgr.perform env op).lanes := by
  have hw : WellFormed t := hs.wellFormed.reaches h
  exact (ManagerState.perform_succeeds hw.numbered env op).imp fun lane lane' h =>
    ⟨h.kept_or_regenerated, h.regenerated_iff⟩

/-- A rotation of lane 1 in a pool of two lanes that has just been spawned. -/
theorem generations_step_twoLanes :
    List.Forall₂ (fun lane lane' =>
      (lane.Kept lane' ∨
        lane.Regenerated (twoLanePool.mgr.perform twoLaneEnv (.rotate ⟨1⟩)).runtime twoLaneEnv
          lane') ∧
      (lane.Regenerated (twoLanePool.mgr.perform twoLaneEnv (.rotate ⟨1⟩)).runtime twoLaneEnv
          lane' ↔
        (Operation.rotate ⟨1⟩).chooses twoLanePool.mgr twoLaneEnv lane ∧
          CanRenew twoLaneEnv lane))
      twoLanePool.mgr.lanes (twoLanePool.mgr.perform twoLaneEnv (.rotate ⟨1⟩)).lanes :=
  generations_step twoLanePool_init .refl twoLaneEnv (.rotate ⟨1⟩)

end Torlane
