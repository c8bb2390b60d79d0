import Mathlib.Data.List.Forall2
import Torlane.Pool.Manager

/-!
# What the manager does to a lane

Every update of the manager's lanes takes each lane to a successor, in place. `Cause` is what makes
the manager update its lanes, with the lanes that it selects, and `LaneMove` says what can become of
a lane: it stays as it is, it is counted up, it is renewed (ready at the next epoch, with a new
endpoint at the manager's SOCKS address), or it is disabled (no longer ready, at the same epoch and
endpoint). Only a selected lane is counted up or renewed. The updates of the single operations are
instances of it, and so the facts that hold along every run, such as that the ids stay the same and
that epochs do not decrease, are proved about `LaneMove` once.
-/

namespace Torlane

/-- What makes the manager update its lanes. -/
inductive Cause where
  /-- An assignment of one epoch of a lane. -/
  | assign (id : LaneId) (epoch : ℕ)
  /-- A rotation of one lane, by `rotate` or in the loop of `restart`. -/
  | rotate (id : LaneId)
  /-- The timer. -/
  | expire (ttl : ℕ) (env : Env)
  /-- `restart` puts every lane into one state. -/
  | disable

/-- The lanes that the cause selects for a rotation, or for a count. -/
def Cause.selects : Cause → Lane → Prop
  | .assign id epoch, lane => lane.id = id ∧ lane.epoch = epoch ∧ lane.state = .ready
  | .rotate id, lane => lane.id = id
  | .expire ttl env, lane => ManagerState.expired ttl env lane
  | .disable, _ => False

/-- What can become of a lane in one update. -/
inductive LaneMove (runtime : RuntimeState) (cause : Cause) (lane lane' : Lane) : Prop
  | same (eq : lane' = lane)
  | counted {id : LaneId} {epoch : ℕ} (by_assign : cause = .assign id epoch)
      (selected : cause.selects lane)
      (eq : lane' = { lane with assignments := saturatingAdd lane.assignments 1 })
  | renewed (selected : cause.selects lane) (id : lane'.id = lane.id)
      (epoch : lane'.epoch = lane.epoch + 1) (addr : lane'.endpoint.addr = runtime.socksAddr)
      (state : lane'.state = .ready) (assignments : lane'.assignments = 0)
  | disabled (selected : cause.selects lane ∨ cause = .disable) (id : lane'.id = lane.id)
      (epoch : lane'.epoch = lane.epoch) (endpoint : lane'.endpoint = lane.endpoint)
      (state : lane'.state ≠ .ready)

/-- A list of lanes after an update of each of them. -/
abbrev LaneMoves (runtime : RuntimeState) (cause : Cause) : List Lane → List Lane → Prop :=
  List.Forall₂ (LaneMove runtime cause)

variable {runtime : RuntimeState} {cause : Cause} {lane lane' : Lane} {lanes lanes' : List Lane}

namespace LaneMove

/-- A lane may stay as it is. -/
theorem refl (lane : Lane) : LaneMove runtime cause lane lane := .same rfl

/-- An update keeps the lane's id. -/
theorem id_eq (h : LaneMove runtime cause lane lane') : lane'.id = lane.id := by
  cases h with
  | same eq => rw [eq]
  | counted _ _ eq => rw [eq]
  | renewed _ id => exact id
  | disabled _ id => exact id

/-- An update keeps the lane's epoch and endpoint, or it renews the lane. -/
theorem kept_or_renewed (h : LaneMove runtime cause lane lane') :
    (lane'.epoch = lane.epoch ∧ lane'.endpoint = lane.endpoint) ∨
      (lane'.epoch = lane.epoch + 1 ∧ lane'.endpoint.addr = runtime.socksAddr) := by
  cases h with
  | same eq => exact .inl ⟨by rw [eq], by rw [eq]⟩
  | counted _ _ eq => exact .inl ⟨by rw [eq], by rw [eq]⟩
  | renewed _ _ epoch addr => exact .inr ⟨epoch, addr⟩
  | disabled _ _ epoch endpoint => exact .inl ⟨epoch, endpoint⟩

/-- An update does not decrease the lane's epoch. -/
theorem epoch_le (h : LaneMove runtime cause lane lane') : lane.epoch ≤ lane'.epoch := by
  rcases h.kept_or_renewed with ⟨hepoch, -⟩ | ⟨hepoch, -⟩ <;> omega

/-- A lane that is ready after an update was ready before it, unless the update was a rotation of
this lane. -/
theorem ready_before (h : LaneMove runtime cause lane lane') (hready : lane'.state = .ready) :
    lane.state = .ready ∨ cause = .rotate lane.id := by
  cases h with
  | same eq => exact .inl (eq ▸ hready)
  | counted _ _ eq => rw [eq] at hready; exact .inl hready
  | renewed selected =>
    cases cause with
    -- `assign` and `rotate_expired` select ready lanes only; `rotate` does not look at the state.
    | assign => exact .inl selected.2.2
    | rotate id => exact .inr (congrArg Cause.rotate selected.symm)
    | expire => exact .inl selected.1
    | disable => exact selected.elim
  | disabled _ _ _ _ state => exact absurd hready state

/-- A rotation of another lane leaves the lane as it is. -/
theorem eq_of_ne {id : LaneId} (h : LaneMove runtime (.rotate id) lane lane')
    (hid : lane.id ≠ id) : lane' = lane := by
  cases h with
  | same eq => exact eq
  | counted _ selected => exact absurd selected hid
  | renewed selected => exact absurd selected hid
  | disabled selected =>
    rcases selected with selected | hcause
    · exact absurd selected hid
    · cases hcause

end LaneMove

/-! ## Lists, element by element -/

section

variable {α β γ : Type*} {R : α → β → Prop} {as : List α} {bs : List β}

/-- A list is related to its image. -/
theorem forall₂_map_self {f : α → β} (h : ∀ a ∈ as, R a (f a)) : List.Forall₂ R as (as.map f) :=
  List.forall₂_map_right_iff.mpr (List.forall₂_same.mpr h)

/-- Lists whose elements have the same images have the same image. -/
theorem map_eq_map_of_forall₂ {f : α → γ} {g : β → γ}
    (h : List.Forall₂ (fun a b => f a = g b) as bs) : as.map f = bs.map g := by
  rw [← List.forall₂_eq_eq_eq, List.forall₂_map_left_iff, List.forall₂_map_right_iff]
  exact h

/-- Every element of the second list is paired with an element of the first one. -/
theorem exists_of_forall₂ {b : β} (h : List.Forall₂ R as bs) (hb : b ∈ bs) : ∃ a ∈ as, R a b := by
  induction h with
  | nil => simp at hb
  | cons hab _ ih =>
    rcases List.mem_cons.mp hb with rfl | hb
    · exact ⟨_, List.mem_cons_self, hab⟩
    · obtain ⟨a, ha, hab⟩ := ih hb
      exact ⟨a, List.mem_cons_of_mem _ ha, hab⟩

/-- A successful `mapM` pairs every element with its result. -/
theorem forall₂_of_mapM_ok {ε : Type*} {f : α → Except ε β}
    (h : as.mapM f = .ok bs) : List.Forall₂ (fun a b => f a = .ok b) as bs := by
  induction as generalizing bs with
  | nil =>
    obtain rfl : bs = [] := by simpa [pure, Except.pure] using h.symm
    exact .nil
  | cons a as ih =>
    rw [List.mapM_cons] at h
    cases ha : f a with
    | error error => simp [ha, bind, Except.bind] at h
    | ok b =>
      cases has : as.mapM f with
      | error error => simp [ha, has, bind, Except.bind] at h
      | ok rest =>
        obtain rfl : b :: rest = bs := by
          simpa [ha, has, bind, Except.bind, pure, Except.pure] using h
        exact .cons ha (ih has)

end

/-! ## The updates of all lanes -/

/-- Every lane is updated by the function that the list is mapped with. -/
theorem laneMoves_map {f : Lane → Lane} (h : ∀ lane ∈ lanes, LaneMove runtime cause lane (f lane)) :
    LaneMoves runtime cause lanes (lanes.map f) := forall₂_map_self h

/-- The lanes may stay as they are. -/
theorem LaneMoves.refl (lanes : List Lane) : LaneMoves runtime cause lanes lanes :=
  List.forall₂_same.mpr fun lane _ => LaneMove.refl lane

/-- The ids stay the same, in the same order. -/
theorem LaneMoves.map_id (h : LaneMoves runtime cause lanes lanes') :
    lanes'.map (·.id) = lanes.map (·.id) :=
  map_eq_map_of_forall₂ (h.imp fun _ _ hmove => hmove.id_eq).flip

/-- Every lane after the update comes from one before it. -/
theorem LaneMoves.of_mem (h : LaneMoves runtime cause lanes lanes') (hmem : lane' ∈ lanes') :
    ∃ lane ∈ lanes, LaneMove runtime cause lane lane' := exists_of_forall₂ h hmem

/-- A rotation leaves the other lanes as they are. -/
theorem LaneMoves.mem_of_ne {id : LaneId} (h : LaneMoves runtime (.rotate id) lanes lanes')
    (hmem : lane' ∈ lanes') (hid : lane'.id ≠ id) : lane' ∈ lanes := by
  obtain ⟨lane, hlane, hmove⟩ := h.of_mem hmem
  obtain rfl := hmove.eq_of_ne (hmove.id_eq ▸ hid)
  exact hlane

/-- Every lane before the update has a successor after it. -/
theorem LaneMoves.exists_mem (h : LaneMoves runtime cause lanes lanes') (hmem : lane ∈ lanes) :
    ∃ lane' ∈ lanes', LaneMove runtime cause lane lane' := exists_of_forall₂ (.flip h) hmem

/-- Lanes are numbered from zero, in order. -/
def Numbered (n : ℕ) (lanes : List Lane) : Prop := lanes.map (·.id) = (List.range n).map LaneId.mk

/-- The lanes of a numbering have different ids. -/
theorem Numbered.eq_of_id {n : ℕ} (h : Numbered n lanes) (hlane : lane ∈ lanes)
    (hlane' : lane' ∈ lanes) (hid : lane.id = lane'.id) : lane = lane' := by
  -- Different numbers make different ids.
  have hnodup : (lanes.map (·.id)).Nodup := by
    rw [h]
    exact List.nodup_range.map fun _ _ => LaneId.mk.inj
  exact List.inj_on_of_nodup_map hnodup hlane hlane' hid

/-- A number below the count is the id of a lane. -/
theorem Numbered.exists_lane {n : ℕ} (h : Numbered n lanes) {id : LaneId} (hid : id.val < n) :
    ∃ lane ∈ lanes, lane.id = id := by
  have hmem : id ∈ lanes.map (·.id) := by
    rw [h]
    exact List.mem_map.mpr ⟨id.val, List.mem_range.mpr hid, rfl⟩
  exact List.mem_map.mp hmem

/-- The id of a lane is a number below the count. -/
theorem Numbered.lt {n : ℕ} (h : Numbered n lanes) (hlane : lane ∈ lanes) : lane.id.val < n := by
  have hmem : lane.id ∈ (List.range n).map LaneId.mk := by
    rw [← h]
    exact List.mem_map_of_mem hlane
  obtain ⟨k, hk, heq⟩ := List.mem_map.mp hmem
  rw [← heq]
  exact List.mem_range.mp hk

/-- Updates keep the numbering. -/
theorem Numbered.moves {n : ℕ} (h : Numbered n lanes)
    (hmoves : LaneMoves runtime cause lanes lanes') :
    Numbered n lanes' := hmoves.map_id.trans h

/-- What `Lane::new` returns. -/
theorem Lane.new_ok {id : LaneId} {socksAddr : SocketAddr} {instanceId : InstanceId} {now : ℕ}
    {random : Except SysError RandomBytes}
    (h : Lane.new id socksAddr instanceId now random = .ok lane) :
    ∃ auth, generateLaneAuth id 1 random = .ok auth ∧
      lane = { id, epoch := 1, endpoint := ⟨id, 1, instanceId, socksAddr, auth⟩, createdAt := now
               assignments := 0, state := .ready
               endpoint_lane := rfl, endpoint_epoch := rfl } := by
  unfold Lane.new at h
  cases hauth : generateLaneAuth id 1 random with
  | error error => simp [hauth] at h
  | ok auth =>
    simp only [hauth, Except.ok.injEq] at h
    exact ⟨auth, rfl, h.symm⟩

/-- The lanes that `createLanes` returns are numbered, ready, at epoch one, and unassigned. -/
theorem createLanes_spec {config : PoolConfig} {socksAddr : SocketAddr} {instanceId : InstanceId}
    {env : Env} (hconfig : config.validate = .ok ())
    (h : createLanes config socksAddr instanceId env = .ok lanes) :
    Numbered config.lanes lanes ∧
      ∀ lane ∈ lanes, lane.state = .ready ∧ lane.epoch = 1 ∧ lane.assignments = 0 ∧
        lane.endpoint.addr = socksAddr := by
  have hmax : config.lanes ≤ 65536 := (PoolConfig.validate_ok hconfig).2.1
  have hall := forall₂_of_mapM_ok h
  constructor
  · have hids : lanes.map (·.id) = (List.range config.lanes).map fun n => ⟨n % 2^32⟩ := by
      refine map_eq_map_of_forall₂ (hall.flip.imp fun lane n hnew => ?_)
      obtain ⟨auth, -, rfl⟩ := Lane.new_ok hnew
      rfl
    -- No id is truncated, since there are at most `maxLanes` of them.
    rw [Numbered, hids]
    refine List.map_congr_left fun n hn => ?_
    rw [Nat.mod_eq_of_lt (by have := List.mem_range.mp hn; omega)]
  · intro lane hlane
    obtain ⟨n, -, hnew⟩ := exists_of_forall₂ hall hlane
    obtain ⟨auth, -, rfl⟩ := Lane.new_ok hnew
    exact ⟨rfl, rfl, rfl, rfl⟩

/-! ## The updates of the operations -/

/-- Both conditions on which a lane can be rotated: its epoch can be incremented, and the random
source answers. -/
def CanRenew (env : Env) (lane : Lane) : Prop :=
  lane.epoch + 1 < 2^64 ∧ ∃ bytes, env.random lane.id = .ok bytes

namespace ManagerState

variable {s : ManagerState} {env : Env}

/-- A lane that can be rotated is ready at its next epoch afterwards, with an endpoint of the
manager's runtime. -/
theorem renew_ok (s : ManagerState) (h : CanRenew env lane) :
    ∃ lane', s.renew env lane = (lane', .ok ()) ∧ lane'.id = lane.id ∧
      lane'.epoch = lane.epoch + 1 ∧ lane'.state = .ready ∧ lane'.assignments = 0 ∧
      lane'.createdAt = env.now ∧ lane'.endpoint.addr = s.runtime.socksAddr ∧
      lane'.endpoint.instanceId = s.runtime.id := by
  rcases rotateLane_cases lane s.runtime.socksAddr s.runtime.id env.now (env.random lane.id) with
    ⟨bytes, auth, -, -, -, heq⟩ | ⟨error, hnot, -⟩
  · simp only [renew, heq]
    exact ⟨_, rfl, rfl, rfl, rfl, rfl, rfl, rfl, rfl⟩
  · exact absurd ⟨h.2, h.1⟩ hnot

/-- A lane that cannot be rotated is failed afterwards, and is otherwise as it was. -/
theorem renew_error (s : ManagerState) (h : ¬ CanRenew env lane) :
    ∃ error, s.renew env lane = ({ lane with state := .failed }, .error error) := by
  rcases rotateLane_cases lane s.runtime.socksAddr s.runtime.id env.now (env.random lane.id) with
    ⟨bytes, auth, hrandom, hepoch, -, -⟩ | ⟨error, -, heq⟩
  · exact absurd ⟨hepoch, bytes, hrandom⟩ h
  · exact ⟨error, by simp only [renew, heq]⟩

/-- A rotation of a selected lane is one update of it, whatever its assignment count. -/
theorem renew_move (s : ManagerState) (env : Env) (assignments : ℕ)
    (hselects : cause.selects lane) :
    LaneMove s.runtime cause lane (s.renew env { lane with assignments }).1 := by
  by_cases h : CanRenew env { lane with assignments }
  -- A success resets the count, so that the one it started from does not matter.
  · obtain ⟨lane', heq, hid, hepoch, hstate, hassignments, -, haddr, -⟩ := s.renew_ok h
    rw [heq]
    exact .renewed hselects hid hepoch haddr hstate hassignments
  · obtain ⟨error, heq⟩ := s.renew_error h
    rw [heq]
    exact .disabled (.inl hselects) rfl rfl rfl (by simp)

/-- A lane is ready after a rotation if and only if the rotation succeeded. -/
theorem renew_ready (s : ManagerState) (env : Env) (lane : Lane) :
    (s.renew env lane).1.state = .ready ↔ (s.renew env lane).2 = .ok () := by
  by_cases h : CanRenew env lane
  · obtain ⟨lane', heq, -, -, hstate, -⟩ := s.renew_ok h
    simp [heq, hstate]
  · obtain ⟨error, heq⟩ := s.renew_error h
    simp [heq]

/-- A lane can be rotated if and only if its rotation succeeds. -/
theorem canRenew_iff (s : ManagerState) (env : Env) (lane : Lane) :
    CanRenew env lane ↔ (s.renew env lane).2 = .ok () := by
  by_cases h : CanRenew env lane
  · obtain ⟨lane', heq, -⟩ := s.renew_ok h
    simp [heq, h]
  · obtain ⟨error, heq⟩ := s.renew_error h
    simp [heq, h]

/-- Replacing a lane by a successor of it updates the lanes. -/
theorem setLane_moves {n : ℕ} (hnum : Numbered n s.lanes) (hmem : lane ∈ s.lanes)
    (hmove : LaneMove runtime cause lane lane') :
    LaneMoves runtime cause s.lanes (s.setLane lane').lanes := by
  refine laneMoves_map fun other hother => ?_
  split_ifs with hid
  -- The numbering makes the lane with this id the only one.
  · have heq : other = lane := hnum.eq_of_id hother hmem (hid.trans hmove.id_eq)
    exact heq ▸ hmove
  · exact .refl other

/-- The lane after one more assignment. -/
def counted (lane : Lane) : Lane := { lane with assignments := saturatingAdd lane.assignments 1 }

/-- What `assign` can do before it publishes: nothing, where there is no limit or no selected lane;
else it counts the selected lane up, and rotates it if that reaches the limit. -/
theorem assignLanes_cases (s : ManagerState) (env : Env) (id : LaneId) (epoch : ℕ) :
    (s.assignLanes env id epoch = (s, false) ∧ (s.config.rotation.assignmentLimit ≠ none →
      ∀ lane ∈ s.lanes, ¬ (Cause.assign id epoch).selects lane)) ∨
    ∃ maximum, s.config.rotation.assignmentLimit = some maximum ∧
      ∃ lane ∈ s.lanes, (Cause.assign id epoch).selects lane ∧
        (((counted lane).assignments < maximum.toNat ∧
            s.assignLanes env id epoch = (s.setLane (counted lane), false)) ∨
          (maximum.toNat ≤ (counted lane).assignments ∧
            s.assignLanes env id epoch = (s.setLane (s.renew env (counted lane)).1, true))) := by
  cases hmax : s.config.rotation.assignmentLimit with
  | none => exact .inl ⟨by simp only [assignLanes, hmax], fun h => absurd rfl h⟩
  | some maximum =>
    cases hfind : s.lanes.find? fun lane =>
        lane.id = id ∧ lane.epoch = epoch ∧ lane.state = .ready with
    | none =>
      refine .inl ⟨by simp only [assignLanes, hmax, hfind], fun _ lane hmem hselects => ?_⟩
      simpa [hselects.1, hselects.2.1, hselects.2.2] using List.find?_eq_none.mp hfind lane hmem
    | some lane =>
      have hselects : (Cause.assign id epoch).selects lane := by
        simpa [Cause.selects] using List.find?_some hfind
      refine .inr ⟨maximum, rfl, lane, List.mem_of_find?_eq_some hfind, hselects, ?_⟩
      by_cases hlt : (counted lane).assignments < maximum.toNat
      · exact .inl ⟨hlt, by simp only [assignLanes, hmax, hfind]; exact if_pos hlt⟩
      · exact .inr ⟨Nat.le_of_not_lt hlt, by simp only [assignLanes, hmax, hfind]; exact if_neg hlt⟩

/-- `assign` updates the lanes, and before it publishes it touches nothing else. -/
theorem assignLanes_moves {n : ℕ} (hnum : Numbered n s.lanes) (env : Env) (id : LaneId)
    (epoch : ℕ) :
    ∃ lanes' publish, s.assignLanes env id epoch = ({ s with lanes := lanes' }, publish) ∧
      LaneMoves s.runtime (.assign id epoch) s.lanes lanes' := by
  rcases s.assignLanes_cases env id epoch with
    ⟨heq, -⟩ | ⟨maximum, -, lane, hmem, hselects, ⟨-, heq⟩ | ⟨-, heq⟩⟩
  · exact ⟨s.lanes, false, heq, .refl _⟩
  · exact ⟨_, false, heq, setLane_moves hnum hmem (.counted rfl hselects rfl)⟩
  · exact ⟨_, true, heq, setLane_moves hnum hmem (s.renew_move env _ hselects)⟩

/-- Lanes with the same ids, states, and endpoints are published alike. -/
theorem readyLanes_congr {lanes lanes' : List Lane} {unavailable : Finset LaneId}
    (h : List.Forall₂ (fun lane lane' =>
      lane'.id = lane.id ∧ lane'.state = lane.state ∧ lane'.endpoint = lane.endpoint)
      lanes lanes') :
    readyLanes lanes' unavailable = readyLanes lanes unavailable := by
  unfold readyLanes
  induction h with
  | nil => rfl
  | cons heq _ ih =>
    obtain ⟨hid, hstate, hendpoint⟩ := heq
    rw [List.filter_cons, List.filter_cons, hid, hstate]
    split_ifs
    · rw [List.map_cons, List.map_cons, hendpoint, ih]
    · exact ih

/-- Where `assign` does not publish, it has not changed what there is to publish. -/
theorem assignLanes_quiet {n : ℕ} (hnum : Numbered n s.lanes) {id : LaneId} {epoch : ℕ}
    {s' : ManagerState} (h : s.assignLanes env id epoch = (s', false))
    (unavailable : Finset LaneId) :
    readyLanes s'.lanes unavailable = readyLanes s.lanes unavailable := by
  rcases s.assignLanes_cases env id epoch with
    ⟨heq, -⟩ | ⟨maximum, -, lane, hmem, hselects, ⟨-, heq⟩ | ⟨-, heq⟩⟩
  · obtain rfl : s = s' := congrArg Prod.fst (heq.symm.trans h)
    rfl
  · obtain rfl : s.setLane (counted lane) = s' := congrArg Prod.fst (heq.symm.trans h)
    -- Only a count has changed, which is not published.
    refine readyLanes_congr (forall₂_map_self fun other hother => ?_)
    split_ifs with hid
    · obtain rfl : other = lane := hnum.eq_of_id hother hmem hid
      exact ⟨rfl, rfl, rfl⟩
    · exact ⟨rfl, rfl, rfl⟩
  · simp [heq] at h

/-- Where `rotate_expired` does not publish, it has not changed what there is to publish. -/
theorem expireLanes_quiet {s' : ManagerState} (h : s.expireLanes env = (s', false)) : s' = s := by
  unfold expireLanes at h
  split at h
  · exact (congrArg Prod.fst h).symm
  · next ttl httl =>
    obtain ⟨rfl, hany⟩ := Prod.mk.inj h
    -- `changed` is false only where no lane has expired.
    have hnone : ∀ lane ∈ s.lanes, ¬ expired ttl env lane := by simpa using hany
    congr 1
    rw [List.map_congr_left fun lane hmem => if_neg (hnone lane hmem)]
    exact List.map_id' s.lanes

/-- `rotate_expired` leaves a lane that has not expired. -/
theorem mem_expireLanes {publish : Bool}
    (h : s.expireLanes env = ({ s with lanes := lanes' }, publish))
    (hmem : lane ∈ s.lanes)
    (hexpired : ∀ ttl, s.config.rotation.duration = some ttl → ¬ expired ttl env lane) :
    lane ∈ lanes' := by
  unfold expireLanes at h
  split at h
  · obtain rfl : s.lanes = lanes' := congrArg (·.1.lanes) h
    exact hmem
  · next ttl httl =>
    obtain rfl := congrArg (·.1.lanes) h
    exact List.mem_map.mpr ⟨lane, hmem, if_neg (hexpired ttl httl)⟩

/-- `rotate` of an existing lane updates the lanes, and before it edits `unavailable` it touches
nothing else. The result is `Ok` if and only if the lane can be rotated; the lane is ready
afterwards if and only if it is, and then it is at its next epoch. -/
theorem rotateLanes_moves {n : ℕ} (hnum : Numbered n s.lanes) (env : Env) {id : LaneId}
    (hid : id.val < n) :
    ∃ lanes' result, s.rotateLanes env id = some ({ s with lanes := lanes' }, result) ∧
      LaneMoves s.runtime (.rotate id) s.lanes lanes' ∧
      (∀ lane' ∈ lanes', lane'.id = id → (lane'.state = .ready ↔ result = .ok ())) ∧
      (result = .ok () → ∀ lane' ∈ lanes', lane'.id = id →
        ∃ lane ∈ s.lanes, lane.id = id ∧ lane'.epoch = lane.epoch + 1) ∧
      ∀ lane ∈ s.lanes, lane.id = id → (CanRenew env lane ↔ result = .ok ()) := by
  -- The id is below the count, so that the search finds a lane.
  obtain ⟨lane, hfind⟩ : ∃ lane, s.lanes.find? (·.id = id) = some lane := by
    obtain ⟨lane, hmem, hlane⟩ := hnum.exists_lane hid
    exact Option.isSome_iff_exists.mp (List.find?_isSome.mpr ⟨lane, hmem, by simpa using hlane⟩)
  have hlane : lane.id = id := by simpa using List.find?_some hfind
  have hmove : LaneMove s.runtime (.rotate id) lane (s.renew env lane).1 :=
    s.renew_move env lane.assignments hlane
  -- The lane with the id is the one that was replaced.
  have hset : ∀ lane' ∈ (s.setLane (s.renew env lane).1).lanes, lane'.id = id →
      lane' = (s.renew env lane).1 := by
    intro lane' hmem hid'
    obtain ⟨other, -, rfl⟩ := List.mem_map.mp hmem
    refine if_pos ?_
    split_ifs at hid' with heq
    · exact heq
    · rw [hid', hmove.id_eq, hlane]
  refine ⟨(s.setLane (s.renew env lane).1).lanes, (s.renew env lane).2, ?_,
    setLane_moves hnum (List.mem_of_find?_eq_some hfind) hmove, ?_, ?_, ?_⟩
  · simp only [rotateLanes, hfind, Option.map_some]
    rfl
  · intro lane' hmem hid'
    rw [hset lane' hmem hid']
    exact s.renew_ready env lane
  · intro hok lane' hmem hid'
    refine ⟨lane, List.mem_of_find?_eq_some hfind, hlane, ?_⟩
    rw [hset lane' hmem hid']
    -- An `Ok` excludes the case in which the lane keeps its epoch.
    by_cases hrenew : CanRenew env lane
    · obtain ⟨lane'', heq, -, hepoch, -⟩ := s.renew_ok hrenew
      rw [heq]
      exact hepoch
    · obtain ⟨error, heq⟩ := s.renew_error hrenew
      simp [heq] at hok
  · intro other hmem hid'
    obtain rfl : other = lane :=
      hnum.eq_of_id hmem (List.mem_of_find?_eq_some hfind) (hid'.trans hlane.symm)
    exact s.canRenew_iff env other

/-- One lane of the loop of `restart` updates the lanes, and before the edit of `unavailable` it
touches nothing else. The lane is ready afterwards if and only if it was rotated. -/
theorem renewLane_moves {n : ℕ} (hnum : Numbered n s.lanes) (env : Env) {id : LaneId}
    (hid : id.val < n) :
    ∃ lanes' renewed, s.renewLane env id = ({ s with lanes := lanes' }, renewed) ∧
      LaneMoves s.runtime (.rotate id) s.lanes lanes' ∧
      ∀ lane' ∈ lanes', lane'.id = id → (lane'.state = .ready ↔ renewed = true) := by
  obtain ⟨lanes', result, heq, hmoves, hready, -⟩ := rotateLanes_moves hnum env hid
  cases result with
  | ok => exact ⟨lanes', true, by simp [renewLane, heq], hmoves, by simpa using hready⟩
  | error => exact ⟨lanes', false, by simp [renewLane, heq], hmoves, by simpa using hready⟩

/-- `rotate_expired` updates the lanes, and before it publishes it touches nothing else. -/
theorem expireLanes_moves (s : ManagerState) (env : Env) :
    ∃ ttl lanes' publish, s.expireLanes env = ({ s with lanes := lanes' }, publish) ∧
      LaneMoves s.runtime (.expire ttl env) s.lanes lanes' := by
  fun_cases expireLanes s env with
  | case1 => exact ⟨0, s.lanes, false, rfl, .refl _⟩
  | case2 ttl httl =>
    refine ⟨ttl, _, _, rfl, laneMoves_map fun lane _ => ?_⟩
    split_ifs with hexpired
    · exact s.renew_move env lane.assignments hexpired
    · exact .refl lane

/-- Putting every lane into a state other than ready updates the lanes. -/
theorem setStates_moves {state : LaneState} (hstate : state ≠ .ready) :
    LaneMoves runtime .disable s.lanes (s.setStates state).lanes :=
  laneMoves_map fun _ _ => .disabled (.inr rfl) rfl rfl rfl hstate

end ManagerState

end Torlane
