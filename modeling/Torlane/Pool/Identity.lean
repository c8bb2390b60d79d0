import Torlane.Pool.Epochs
import Torlane.Pool.Generations

/-!
# Identities

Tor isolates streams by their SOCKS credentials, and so an identity of the pool is a username. The
username is printed from the lane id and the epoch with fixed widths that a larger number
overflows; `laneUsername_inj` says that no two pairs share one nevertheless, since a hyphen ends the
first number. With epochs that only move forward, no identity is used twice: `identities_run`.
-/

namespace Torlane

open Transition Text

/-- The username of a lane epoch, `lane-{:06}-{:08}`. -/
def laneUsername (id : LaneId) (epoch : ℕ) : Text :=
  "lane-".toList ++ zeroPadded 6 id.val ++ ['-'] ++ zeroPadded 8 epoch

/-- A text of digits ends at the first hyphen. -/
theorem digits_append_inj {a b c d : Text} (ha : ∀ x ∈ a, x.isDigit = true)
    (hb : ∀ x ∈ b, x.isDigit = true) (h : a ++ '-' :: c = b ++ '-' :: d) : a = b ∧ c = d := by
  have hhyphen {digits : Text} (hdigits : ∀ x ∈ digits, x.isDigit = true) : '-' ∉ digits :=
    fun hmem => absurd (hdigits '-' hmem) (by decide)
  exact append_cons_inj_of_notMem (hhyphen ha) (hhyphen hb) h

/-- The username determines the lane and the epoch. -/
theorem laneUsername_inj {id id' : LaneId} {epoch epoch' : ℕ}
    (h : laneUsername id epoch = laneUsername id' epoch') : id = id' ∧ epoch = epoch' := by
  have htext (id : LaneId) (epoch : ℕ) : laneUsername id epoch =
      "lane-".toList ++ (zeroPadded 6 id.val ++ '-' :: zeroPadded 8 epoch) := by
    unfold laneUsername
    rw [List.append_assoc, List.append_assoc, List.singleton_append]
  have hsplit : zeroPadded 6 id.val ++ '-' :: zeroPadded 8 epoch =
      zeroPadded 6 id'.val ++ '-' :: zeroPadded 8 epoch' := by
    rw [htext, htext] at h
    exact List.append_cancel_left h
  obtain ⟨hid, hepoch⟩ := digits_append_inj (fun _ => isDigit_of_mem_zeroPadded)
    (fun _ => isDigit_of_mem_zeroPadded) hsplit
  have hval : id.val = id'.val := zeroPadded_inj hid
  constructor
  · calc id = ⟨id.val⟩ := rfl
      _ = ⟨id'.val⟩ := by rw [hval]
      _ = id' := rfl
  · exact zeroPadded_inj hepoch

/-- Generated credentials have the username of their lane epoch, whatever bytes are drawn. -/
theorem generateLaneAuth_username {id : LaneId} {epoch : ℕ} {random : Except SysError RandomBytes}
    {auth : SocksAuth} (h : generateLaneAuth id epoch random = .ok auth) :
    auth.username = laneUsername id epoch := by
  unfold generateLaneAuth at h
  cases random with
  | error error => simp at h
  | ok bytes =>
    obtain rfl := Except.ok.inj h
    rfl

/-- The endpoint has the username of its lane epoch. -/
def LaneEndpoint.Identified (endpoint : LaneEndpoint) : Prop :=
  endpoint.auth.username = laneUsername endpoint.lane endpoint.epoch

variable {s t u : State}

/-- The username of an identified lane. -/
theorem LaneEndpoint.Identified.username {lane : Lane} (h : lane.endpoint.Identified) :
    lane.endpoint.auth.username = laneUsername lane.id lane.epoch := by
  unfold Identified at h
  rw [h, lane.endpoint_lane, lane.endpoint_epoch]

/-- A new lane has a username of its own. -/
theorem Lane.new_identified {id : LaneId} {socksAddr : SocketAddr} {instanceId : InstanceId}
    {now : ℕ} {random : Except SysError RandomBytes} {lane : Lane}
    (h : Lane.new id socksAddr instanceId now random = .ok lane) : lane.endpoint.Identified := by
  obtain ⟨auth, hauth, rfl⟩ := Lane.new_ok h
  exact generateLaneAuth_username hauth

/-- The lanes that are created have usernames of their own. -/
theorem createLanes_identified {config : PoolConfig} {socksAddr : SocketAddr}
    {instanceId : InstanceId} {env : Env} {lanes : List Lane}
    (h : createLanes config socksAddr instanceId env = .ok lanes) :
    ∀ lane ∈ lanes, lane.endpoint.Identified := by
  intro lane hmem
  obtain ⟨id, -, hnew⟩ := exists_of_forall₂ (forall₂_of_mapM_ok h) hmem
  exact Lane.new_identified hnew

/-- A lane that is left or regenerated has a username of its own. -/
theorem Regenerates.identified {m m' : ManagerState} (hmoves : Regenerates m m')
    (h : ∀ lane ∈ m.lanes, lane.endpoint.Identified) :
    ∀ lane ∈ m'.lanes, lane.endpoint.Identified := by
  intro lane' hmem'
  obtain ⟨lane, hmem, hkept | ⟨env, hregenerated⟩⟩ := exists_of_forall₂ hmoves hmem'
  · rw [hkept.endpoint]
    exact h lane hmem
  · obtain ⟨auth, hauth, hendpoint⟩ := hregenerated.endpoint
    rw [hendpoint]
    exact generateLaneAuth_username hauth

/-- An endpoint stays known along every run. -/
theorem known_run {endpoint : LaneEndpoint} (hw : WellFormed t) (h : Reaches step anyStep t u)
    (hknown : Known t.mgr.lanes endpoint) : Known u.mgr.lanes endpoint := by
  refine h.invariant_of (I := fun s => Known s.mgr.lanes endpoint)
    (fun _ _ _ _ h hw => hw.step h) (fun s a t _ h hw hknown => ?_) hw hknown
  rcases step_cases hw h with ⟨c, pc, effect, pc', -, -, rfl, -⟩ | hmove
  · simpa using hknown
  · obtain ⟨cause, hmoves⟩ := hmove.lanes
    exact hknown.moves hmoves

/-- Generated credentials with one username are of one lane and one epoch. -/
theorem generateLaneAuth_inj {id id' : LaneId} {epoch epoch' : ℕ}
    {random random' : Except SysError RandomBytes} {auth auth' : SocksAuth}
    (h : generateLaneAuth id epoch random = .ok auth)
    (h' : generateLaneAuth id' epoch' random' = .ok auth')
    (husername : auth.username = auth'.username) : id = id' ∧ epoch = epoch' := by
  rw [generateLaneAuth_username h, generateLaneAuth_username h'] at husername
  exact laneUsername_inj husername

/-- No identity is used twice. A pair of a lane id and an epoch determines the endpoint, at whatever
times of a run it is looked up, and the endpoints of different pairs have different usernames. The
usernames themselves are different for any numbers, within the printed widths or not. -/
theorem identities_run (hs : Init s) (h : Reaches step anyStep s t) (h' : Reaches step anyStep t u)
    {lane lane' : Lane} (hmem : lane ∈ t.mgr.lanes) (hmem' : lane' ∈ u.mgr.lanes) :
    ((lane.id, lane.epoch) = (lane'.id, lane'.epoch) → lane.endpoint = lane'.endpoint) ∧
      ((lane.id, lane.epoch) ≠ (lane'.id, lane'.epoch) →
        lane.endpoint.auth.username ≠ lane'.endpoint.auth.username) ∧
      ∀ id id' epoch epoch' random random' auth auth',
        generateLaneAuth id epoch random = .ok auth →
        generateLaneAuth id' epoch' random' = .ok auth' →
        (id, epoch) ≠ (id', epoch') → auth.username ≠ auth'.username := by
  have hw : WellFormed t := hs.wellFormed.reaches h
  have hw' : WellFormed u := hw.reaches h'
  have hidentified {v : State} (hv : Reaches step anyStep s v) :
      ∀ lane ∈ v.mgr.lanes, lane.endpoint.Identified := by
    refine hv.invariant_of (I := fun v => ∀ lane ∈ v.mgr.lanes, lane.endpoint.Identified)
      (fun _ _ _ _ h hw => hw.step h) (fun _ _ _ _ h hw hv => (regenerates_step hw h).identified hv)
      hs.wellFormed ?_
    obtain ⟨config, lanes, runtime, inst, instanceConfig, env, -, hlanes, rfl⟩ := hs
    exact createLanes_identified hlanes
  refine ⟨fun hpair => ?_, fun hpair husername => ?_, ?_⟩
  · obtain ⟨hid, hepoch⟩ := Prod.mk.inj hpair
    obtain ⟨lane'', hmem'', hid'', hcases⟩ := known_run hw h' (known_endpoint hmem)
    obtain rfl : lane'' = lane' := hw'.numbered.eq_of_id hmem'' hmem'
      (hid''.trans (lane.endpoint_lane.trans hid))
    -- The lane has not left the epoch, and so it has kept the endpoint.
    rcases hcases with hlt | heq
    · rw [lane.endpoint_epoch] at hlt
      omega
    · exact heq
  · have hname : laneUsername lane.id lane.epoch = laneUsername lane'.id lane'.epoch :=
      calc laneUsername lane.id lane.epoch = lane.endpoint.auth.username :=
            (hidentified h lane hmem).username.symm
        _ = lane'.endpoint.auth.username := husername
        _ = laneUsername lane'.id lane'.epoch := (hidentified (h.trans h') lane' hmem').username
    obtain ⟨hid, hepoch⟩ := laneUsername_inj hname
    exact hpair (Prod.ext hid hepoch)
  · intro id id' epoch epoch' random random' auth auth' hauth hauth' hpair husername
    obtain ⟨hid, hepoch⟩ := generateLaneAuth_inj hauth hauth' husername
    exact hpair (Prod.ext hid hepoch)

/-- The lanes of a pool of two lanes before and after a rotation of lane 1. -/
theorem identities_run_twoLanes :
    ∃ t, run step twoLanePool [.start 0 (.rotate ⟨1⟩ false), .advance 0, .advance 0, .advance 0,
        .advance 0, .receive twoLaneEnv] = some t ∧
      t.mgr.lanes.map (·.epoch) = [1, 2] ∧
      ∀ lane ∈ twoLanePool.mgr.lanes, ∀ lane' ∈ t.mgr.lanes,
        (lane.id, lane.epoch) ≠ (lane'.id, lane'.epoch) →
          lane.endpoint.auth.username ≠ lane'.endpoint.auth.username := by
  have hrun : run step twoLanePool [.start 0 (.rotate ⟨1⟩ false), .advance 0, .advance 0,
      .advance 0, .advance 0, .receive twoLaneEnv] = some _ := rfl
  exact ⟨_, hrun, by decide, fun lane hmem lane' hmem' =>
    (identities_run twoLanePool_init .refl (reaches_of_run hrun) hmem hmem').2.1⟩

end Torlane
