import Mathlib.Data.List.Iterate
import Torlane.Pool.Convergence
import Torlane.Rotation

/-!
# Round robin

`Pool::next` takes a turn of the cursor, which wraps at the width of the machine's word. In a part
of a run in which the published list does not change, the calls of `next` take consecutive turns,
in whatever order the clients make their steps (`Turns`), so that the lanes are returned equally
often (`next_balanced`).
-/

namespace Torlane

open Transition

/-- The pool is open, and this is its published list. -/
structure State.Serves (ready : ReadyLanes) (s : State) : Prop where
  ready : s.mgr.ready = ready
  closed : s.closed = false
  dropped : s.receiverDropped = false

/-- The call is inside of `next`, and has not taken its turn. -/
def CallPc.Waits (ready : ReadyLanes) (pc : CallPc) : Prop := pc = .nextRead ∨ pc = .nextCount ready

/-- The call has taken its turn. -/
def CallPc.Took (endpoint : LaneEndpoint) (pc : CallPc) : Prop :=
  pc = .pick endpoint ∨ pc = .done (.selected (.ok ⟨endpoint⟩))

/-- The calls of `next` that a step starts. -/
def nextStarts (_ : State) : Action → List CallId
  | .start c .next => [c]
  | _ => []

/-- What calls of `next` have returned. -/
def State.returned (s : State) (calls : List CallId) : List LaneEndpoint :=
  calls.filterMap fun c =>
    match s.calls c with
    | .done (.selected (.ok proxy)) => some proxy.inner
    | _ => none

/-- Where the calls of `next` stand that have been started since the cursor was at `start`: `taken`
has those that have taken a turn, in the order of the turns, with what they have taken. -/
structure Turns (ready : ReadyLanes) (start : ℕ) (started : List CallId)
    (taken : List (CallId × LaneEndpoint)) (s : State) : Prop where
  cursor : s.cursor = (start + taken.length) % 2^64
  endpoints : (taken.map fun p => some p.2) =
    (Rotation.turns (2^64) ready.length start taken.length).map (ready[·]?)
  nodup : started.Nodup
  nodup_taken : (taken.map (·.1)).Nodup
  /-- A call that has been started has taken its turn, or will take one. -/
  of_started : ∀ c ∈ started, (s.calls c).Waits ready ∨ c ∈ taken.map (·.1)
  of_taken : ∀ p ∈ taken, p.1 ∈ started ∧ (s.calls p.1).Took p.2
  /-- No other call takes a turn. -/
  others : ∀ c ∉ started, s.calls c ≠ .nextRead ∧ ∀ ready, s.calls c ≠ .nextCount ready

variable {s t : State} {ready : ReadyLanes} {start : ℕ} {started : List CallId}
  {taken : List (CallId × LaneEndpoint)} {c : CallId}

/-! ## One step -/

/-- Only a call of `next` that has read the list moves the cursor. -/
theorem CallMove.of_count {pc pc' : CallPc} (hmove : CallMove s c pc .count pc') :
    ∃ ready, pc = .nextCount ready := by
  cases hmove with
  | nextCount => exact ⟨_, rfl⟩

/-- A call comes to wait for its turn from the start of `next`. -/
theorem CallMove.not_waits {pc pc' : CallPc} {effect : Effect}
    (hmove : CallMove s c pc effect pc') (hpc : pc ≠ .fresh) (hread : pc ≠ .nextRead) :
    pc' ≠ .nextRead ∧ ∀ ready, pc' ≠ .nextCount ready := by
  cases hmove with
  | startNext => exact absurd rfl hpc
  | nextRead => exact absurd rfl hread
  | _ => simp

/-- The cursor moves where a call takes its turn. -/
theorem State.apply_cursor {effect : Effect} (h : effect ≠ .count) :
    (s.apply effect).cursor = s.cursor := by
  cases effect with
  | count => exact absurd rfl h
  | _ => rfl

/-- The manager does not move the cursor. -/
theorem ManagerMove.cursor {a : Action} (hmove : ManagerMove s a t) : t.cursor = s.cursor := by
  cases hmove <;> rfl

/-- The calls of `next` go on from where they stand, if neither they nor the cursor move. -/
theorem Turns.frame (hs : Turns ready start started taken s) (hcursor : t.cursor = s.cursor)
    (hstarted : ∀ c ∈ started, t.calls c = s.calls c)
    (hothers : ∀ c ∉ started, t.calls c ≠ .nextRead ∧ ∀ ready, t.calls c ≠ .nextCount ready) :
    Turns ready start started taken t where
  cursor := hcursor.trans hs.cursor
  endpoints := hs.endpoints
  nodup := hs.nodup
  nodup_taken := hs.nodup_taken
  of_started c hc := hstarted c hc ▸ hs.of_started c hc
  of_taken p hp := ⟨(hs.of_taken p hp).1, hstarted p.1 (hs.of_taken p hp).1 ▸ (hs.of_taken p hp).2⟩
  others := hothers

/-- A call that has been started is neither fresh nor waiting for a response. -/
theorem Turns.started_cases (hs : Turns ready start started taken s) (hc : c ∈ started) :
    (s.calls c).Waits ready ∨ ∃ endpoint, (c, endpoint) ∈ taken ∧ (s.calls c).Took endpoint := by
  rcases hs.of_started c hc with hwaits | htaken
  · exact .inl hwaits
  · obtain ⟨⟨c', endpoint⟩, hp, rfl⟩ := List.mem_map.mp htaken
    exact .inr ⟨endpoint, hp, (hs.of_taken _ hp).2⟩

/-- A move of the manager does not move the calls of `next`. -/
theorem Turns.manager {a : Action} (hs : Turns ready start started taken s)
    (hmove : ManagerMove s a t) : Turns ready start started taken t := by
  refine hs.frame hmove.cursor (fun c hc => ?_) fun c hc => ?_
  · rcases hmove.calls c with heq | ⟨result, hanswered⟩
    · exact heq
    · -- A call that is answered waits for a response.
      generalize hpc : s.calls c = pc at hanswered
      generalize t.calls c = pc' at hanswered
      have hcases := hs.started_cases hc
      rw [hpc] at hcases
      cases hanswered <;> simp [CallPc.Waits, CallPc.Took] at hcases
  · rcases hmove.calls c with heq | ⟨result, hanswered⟩
    · rw [heq]
      exact hs.others c hc
    · generalize s.calls c = pc at hanswered
      generalize t.calls c = pc' at hanswered
      cases hanswered <;> simp

/-- A move of another call does not move the calls of `next`. -/
theorem Turns.other {effect : Effect} {pc' : CallPc} (hs : Turns ready start started taken s)
    (hc : c ∉ started) (heffect : effect ≠ .count)
    (hpc' : pc' ≠ .nextRead ∧ ∀ ready, pc' ≠ .nextCount ready) :
    Turns ready start started taken ((s.apply effect).setCall c pc') := by
  refine hs.frame (State.apply_cursor heffect) (fun c' hc' => ?_) fun c' hc' => ?_
  · have hne : c' ≠ c := fun h => hc (h ▸ hc')
    rw [State.setCall_calls, if_neg hne, State.apply_calls]
  · rw [State.setCall_calls]
    split_ifs
    · exact hpc'
    · rw [State.apply_calls]
      exact hs.others c' hc'

/-- A fresh call has not been started. -/
theorem Turns.notMem_of_fresh (hs : Turns ready start started taken s)
    (hfresh : s.calls c = .fresh) : c ∉ started := by
  intro hc
  rcases hs.started_cases hc with h | ⟨endpoint, -, h⟩
  · simp [CallPc.Waits, hfresh] at h
  · simp [CallPc.Took, hfresh] at h

/-- A call of `next` that starts on an open pool waits for its turn. -/
theorem Turns.startNext (hs : Turns ready start started taken s) (hfresh : s.calls c = .fresh) :
    Turns ready start (started ++ [c]) taken (s.setCall c .nextRead) := by
  have hc : c ∉ started := hs.notMem_of_fresh hfresh
  have hkept {c' : CallId} (hc' : c' ∈ started) :
      (s.setCall c .nextRead).calls c' = s.calls c' := by
    have hne : c' ≠ c := fun h => hc (h ▸ hc')
    rw [State.setCall_calls, if_neg hne]
  have hnodup : (started ++ [c]).Nodup :=
    (List.perm_append_singleton c started).nodup_iff.mpr (List.nodup_cons.mpr ⟨hc, hs.nodup⟩)
  refine ⟨hs.cursor, hs.endpoints, hnodup, hs.nodup_taken, fun c' hc' => ?_, fun p hp => ?_,
    fun c' hc' => ?_⟩
  · rcases List.mem_append.mp hc' with hc' | hc'
    · rw [hkept hc']
      exact hs.of_started c' hc'
    · obtain rfl := List.mem_singleton.mp hc'
      exact .inl (.inl (by rw [State.setCall_calls, if_pos rfl]))
  · obtain ⟨hmem, htook⟩ := hs.of_taken p hp
    exact ⟨List.mem_append_left _ hmem, by rw [hkept hmem]; exact htook⟩
  · obtain ⟨hold, hnew⟩ := not_or.mp (mt List.mem_append.mpr hc')
    rw [State.setCall_calls, if_neg (by simpa using hnew)]
    exact hs.others c' hold

/-- A call that reads the list goes on waiting for its turn, and one that has taken its turn returns
what it has taken. -/
theorem Turns.advance {effect : Effect} {pc' : CallPc} (hs : Turns ready start started taken s)
    (hc : c ∈ started) (heffect : effect ≠ .count)
    (hwaits : (s.calls c).Waits ready → pc'.Waits ready)
    (htook : ∀ endpoint, (s.calls c).Took endpoint → pc'.Took endpoint) :
    Turns ready start started taken ((s.apply effect).setCall c pc') := by
  have hcalls (c' : CallId) : ((s.apply effect).setCall c pc').calls c' =
      if c' = c then pc' else s.calls c' := by
    rw [State.setCall_calls, State.apply_calls]
  refine ⟨(State.apply_cursor heffect).trans hs.cursor, hs.endpoints, hs.nodup, hs.nodup_taken,
    fun c' hc' => ?_, fun p hp => ?_, fun c' hc' => ?_⟩
  · rw [hcalls]
    split_ifs with heq
    · rw [heq] at hc' ⊢
      exact (hs.of_started c hc').imp_left hwaits
    · exact hs.of_started c' hc'
  · refine ⟨(hs.of_taken p hp).1, ?_⟩
    rw [hcalls]
    split_ifs with heq
    · exact htook p.2 (heq ▸ (hs.of_taken p hp).2)
    · exact (hs.of_taken p hp).2
  · have hne : c' ≠ c := fun h => hc' (h ▸ hc)
    rw [hcalls, if_neg hne]
    exact hs.others c' hc'

/-- A call that takes its turn takes the endpoint of the turn. -/
theorem Turns.take {endpoint : LaneEndpoint} (hs : Turns ready start started taken s)
    (hc : c ∈ started) (hpc : s.calls c = .nextCount ready)
    (hnext : ready.next s.cursor = some endpoint) :
    Turns ready start started (taken ++ [(c, endpoint)])
      ((s.apply .count).setCall c (.pick endpoint)) := by
  have hnot : c ∉ taken.map (·.1) := by
    intro htaken
    obtain ⟨p, hp, rfl⟩ := List.mem_map.mp htaken
    have htook := (hs.of_taken p hp).2
    simp [CallPc.Took, hpc] at htook
  have hcalls (c' : CallId) : ((s.apply .count).setCall c (.pick endpoint)).calls c' =
      if c' = c then .pick endpoint else s.calls c' := by
    rw [State.setCall_calls, State.apply_calls]
  refine ⟨?_, ?_, hs.nodup, ?_, fun c' hc' => ?_, fun p hp => ?_, fun c' hc' => ?_⟩
  · show fetchAdd 64 s.cursor = _
    rw [fetchAdd, hs.cursor, Nat.mod_add_mod, List.length_append, List.length_singleton,
      Nat.add_assoc]
  · have hturn : ready[(start + taken.length) % 2^64 % ready.length]? = some endpoint := by
      rw [← hs.cursor]
      exact hnext
    rw [List.map_append, hs.endpoints, List.length_append, List.length_singleton,
      Rotation.turns_succ, List.map_append, List.map_singleton, List.map_singleton, hturn]
  · rw [List.map_append, List.map_singleton]
    exact (List.perm_append_singleton c _).nodup_iff.mpr
      (List.nodup_cons.mpr ⟨hnot, hs.nodup_taken⟩)
  · rw [hcalls, List.map_append, List.mem_append]
    split_ifs with heq
    · exact .inr (.inr (List.mem_singleton.mpr heq))
    · exact (hs.of_started c' hc').imp_right .inl
  · rw [hcalls]
    rcases List.mem_append.mp hp with hp | hp
    · have hne : p.1 ≠ c := fun h => hnot (h ▸ List.mem_map_of_mem hp)
      rw [if_neg hne]
      exact hs.of_taken p hp
    · obtain rfl := List.mem_singleton.mp hp
      exact ⟨hc, by rw [if_pos rfl]; exact .inl rfl⟩
  · have hne : c' ≠ c := fun h => hc' (h ▸ hc)
    rw [hcalls, if_neg hne]
    exact hs.others c' hc'

/-- A step of a call that is not one of the calls of `next` that count does not move them. -/
theorem Turns.advance_other {pc' : CallPc} {effect : Effect}
    (hs : Turns ready start started taken s) (hc : c ∉ started) (hfresh : s.calls c ≠ .fresh)
    (hmove : CallMove s c (s.calls c) effect pc') :
    Turns ready start started taken ((s.apply effect).setCall c pc') := by
  obtain ⟨hread, hcount⟩ := hs.others c hc
  refine hs.other hc ?_ (hmove.not_waits hfresh hread)
  rintro rfl
  obtain ⟨ready, hpc⟩ := hmove.of_count
  exact hcount ready hpc

/-- A step of a call of `next` that counts. -/
theorem Turns.advance_started {pc' : CallPc} {effect : Effect} (hserves : s.Serves ready)
    (hne : ready ≠ []) (hs : Turns ready start started taken s) (hc : c ∈ started)
    (hstep : callStep s c (s.calls c) = some (effect, pc')) :
    ∃ taken, Turns ready start started taken ((s.apply effect).setCall c pc') := by
  rcases hs.started_cases hc with (hpc | hpc) | ⟨endpoint, -, hpc | hpc⟩
  · -- The call reads the list.
    rw [hpc, callStep, hserves.ready, if_neg hne] at hstep
    obtain ⟨rfl, rfl⟩ := Prod.mk.inj (Option.some.inj hstep)
    exact ⟨taken, hs.advance hc (by simp) (fun _ => .inr rfl) (by simp [CallPc.Took, hpc])⟩
  · -- The call takes its turn.
    rw [hpc, callStep] at hstep
    obtain ⟨endpoint, hnext, heq⟩ := Option.map_eq_some_iff.mp hstep
    obtain ⟨rfl, rfl⟩ := Prod.mk.inj heq
    exact ⟨_, hs.take hc hpc hnext⟩
  · -- The call returns, since the manager is there to be told of it.
    have hdropped : ¬ s.receiverDropped = true := by simp [hserves.dropped]
    rw [hpc, callStep, if_neg hdropped] at hstep
    obtain ⟨rfl, rfl⟩ := Prod.mk.inj (Option.some.inj hstep)
    refine ⟨taken, hs.advance hc (by simp) (by simp [CallPc.Waits, hpc]) fun endpoint' htook => ?_⟩
    obtain rfl : endpoint = endpoint' := by simpa [CallPc.Took, hpc] using htook
    exact .inr rfl
  · rw [hpc, callStep] at hstep
    cases hstep

/-- The first step of another operation is no step of `next`. -/
theorem startCall_not_waits {op : Op} (hop : op ≠ .next) (s : State) :
    (startCall s op).1 ≠ .count ∧ (startCall s op).2 ≠ .nextRead ∧
      ∀ ready, (startCall s op).2 ≠ .nextCount ready := by
  cases op with
  | next => exact absurd rfl hop
  | _ => simp only [startCall]; split_ifs <;> simp

/-- The first step of a call. -/
theorem Turns.startOp {op : Op} {effect : Effect} {pc' : CallPc} (hserves : s.Serves ready)
    (hs : Turns ready start started taken s) (hfresh : s.calls c = .fresh)
    (hstart : startCall s op = (effect, pc')) :
    Turns ready start (started ++ nextStarts s (.start c op)) taken
      ((s.apply effect).setCall c pc') := by
  by_cases hop : op = .next
  · subst hop
    have hopen : ¬ s.closed = true := by simp [hserves.closed]
    rw [startCall, if_neg hopen] at hstart
    obtain ⟨rfl, rfl⟩ := Prod.mk.inj hstart
    exact hs.startNext hfresh
  · have hnone : nextStarts s (.start c op) = [] := by
      cases op with
      | next => exact absurd rfl hop
      | _ => rfl
    obtain ⟨heffect, hpc'⟩ := startCall_not_waits hop s
    rw [hstart] at heffect hpc'
    rw [hnone, List.append_nil]
    exact hs.other (hs.notMem_of_fresh hfresh) heffect hpc'

/-- Every step of an open pool that keeps its list keeps the order of the turns. -/
theorem Turns.step {a : Action} (hw : WellFormed s) (hserves : s.Serves ready) (hne : ready ≠ [])
    (hs : Turns ready start started taken s) (h : Torlane.step s a = some t) :
    ∃ taken, Turns ready start (started ++ nextStarts s a) taken t := by
  rcases step_cases hw h with ⟨c, pc, effect, pc', hpc, hmove, rfl, ⟨rfl, hstep⟩ |
    ⟨rfl, op, rfl, hstart⟩⟩ | hmove
  · have hnone : nextStarts s (.advance c) = [] := rfl
    rw [hnone, List.append_nil]
    by_cases hc : c ∈ started
    · exact hs.advance_started hserves hne hc (hpc ▸ hstep)
    · have hfresh : s.calls c ≠ .fresh := by
        rintro hfresh
        rw [← hpc, hfresh, callStep] at hstep
        cases hstep
      exact ⟨taken, hs.advance_other hc hfresh (hpc ▸ hmove)⟩
  · exact ⟨taken, hs.startOp hserves hpc hstart⟩
  · refine ⟨taken, ?_⟩
    have hnone : nextStarts s a = [] := by cases hmove <;> rfl
    rw [hnone, List.append_nil]
    exact hs.manager hmove

/-! ## Runs -/

/-- Published lists have different lanes. -/
theorem distinct_run {s₀ : State} (hinit : Init s₀) (h : Reaches Torlane.step anyStep s₀ s) :
    s.mgr.ready.Distinct :=
  (h.invariant_of (fun _ _ _ _ h hw => hw.step h) (fun _ _ _ _ h hw hs => hs.step hw h)
    hinit.wellFormed hinit.distinctLanes).ready

/-- In a part of a run in which the pool is open and its list does not change, the calls of `next`
take consecutive turns. -/
theorem turns_run {as : List Action} (hw : WellFormed s) (hne : ready ≠ [])
    (hcursor : s.cursor < 2^64)
    (hnone : ∀ c, s.calls c ≠ .nextRead ∧ ∀ ready, s.calls c ≠ .nextCount ready)
    (hserves : Always Torlane.step (State.Serves ready) s as)
    (hrun : run Torlane.step s as = some t) :
    ∃ taken, Turns ready s.cursor (observed Torlane.step nextStarts s as) taken t := by
  have hstart : Turns ready s.cursor [] [] s :=
    ⟨(Nat.mod_eq_of_lt hcursor).symm, rfl, List.nodup_nil, List.nodup_nil, by simp, by simp,
      fun c _ => hnone c⟩
  have hend : WellFormed t ∧ ∃ taken, Turns ready s.cursor
      ([] ++ observed Torlane.step nextStarts s as) taken t := hserves.observed_invariant
    (I := fun u started => WellFormed u ∧ ∃ taken, Turns ready s.cursor started taken u)
    (fun u a v started hserves _ h ⟨hw, taken, hs⟩ => ⟨hw.step h, hs.step hw hserves hne h⟩)
    ⟨hw, [], hstart⟩ hrun
  rw [List.nil_append] at hend
  exact hend.2

/-- The calls of `next` that have all returned are those that have taken a turn. -/
theorem Turns.started_perm (hs : Turns ready start started taken t)
    (hdone : ∀ c ∈ started, ∃ outcome, t.calls c = .done outcome) :
    started.Perm (taken.map (·.1)) := by
  refine (List.perm_ext_iff_of_nodup hs.nodup hs.nodup_taken).mpr fun c => ⟨fun hc => ?_, ?_⟩
  · refine (hs.of_started c hc).resolve_left fun hwaits => ?_
    obtain ⟨outcome, hdone⟩ := hdone c hc
    rcases hwaits with h | h <;> rw [h] at hdone <;> cases hdone
  · intro hc
    obtain ⟨p, hp, rfl⟩ := List.mem_map.mp hc
    exact (hs.of_taken p hp).1

/-- They have returned what they have taken. -/
theorem Turns.returned_perm (hs : Turns ready start started taken t)
    (hdone : ∀ c ∈ started, ∃ outcome, t.calls c = .done outcome) :
    (t.returned started).Perm (taken.map (·.2)) := by
  have hreturned : ∀ p ∈ taken, t.calls p.1 = .done (.selected (.ok ⟨p.2⟩)) := by
    intro p hp
    obtain ⟨hmem, hpick | hok⟩ := hs.of_taken p hp
    · obtain ⟨outcome, hdone⟩ := hdone p.1 hmem
      rw [hpick] at hdone
      cases hdone
    · exact hok
  refine ((hs.started_perm hdone).filterMap _).trans (List.Perm.of_eq ?_)
  rw [List.filterMap_map, ← List.filterMap_eq_map]
  refine List.filterMap_congr fun p hp => ?_
  simp [hreturned p hp]

/-- What is taken is in the list. -/
theorem Turns.mem_ready (hs : Turns ready start started taken t) {endpoint : LaneEndpoint}
    (h : endpoint ∈ taken.map (·.2)) : endpoint ∈ ready := by
  obtain ⟨p, hp, rfl⟩ := List.mem_map.mp h
  have hmem : some p.2 ∈ taken.map fun p => some p.2 := List.mem_map_of_mem hp
  rw [hs.endpoints] at hmem
  obtain ⟨i, -, hget⟩ := List.mem_map.mp hmem
  exact List.mem_of_getElem? hget

/-! ## Balance -/

/-- How often one of `n` lanes may be returned by `k` calls, from a cursor that wraps at `m`. -/
structure Balanced (m n start k count : ℕ) : Prop where
  straight : start + k ≤ m → k / n ≤ count ∧ count ≤ (k + (n - 1)) / n
  wrapped : m < start + k → k / n - 1 ≤ count ∧ count ≤ (k + (n - 1)) / n + 1

/-- The turns of a counter are balanced. -/
theorem balanced_turns {m n r k : ℕ} (hr : r < n) (hstart : start < m) (hk : k ≤ m) :
    Balanced m n start k ((Rotation.turns m n start k).count r) where
  straight hwrap := Rotation.count_turns hr hwrap
  wrapped hwrap := Rotation.count_turns_of_wrap hr hstart hk hwrap

/-- A lane of the list has one place in it, so that it is taken as often as the turn of this place
comes. -/
theorem ReadyLanes.Distinct.count_eq (hd : ready.Distinct) {endpoints : List LaneEndpoint}
    {turns : List ℕ} (h : endpoints.map some = turns.map (ready[·]?)) {lane : LaneId}
    (hlane : ready.offers lane) :
    ∃ r < ready.length, (endpoints.map (·.lane)).count lane = turns.count r := by
  obtain ⟨endpoint, hmem, rfl⟩ := hlane
  obtain ⟨r, hr, hget⟩ := List.getElem_of_mem hmem
  refine ⟨r, hr, ?_⟩
  have hlanes : (endpoints.map (·.lane)).map some = turns.map ((ready.map (·.lane))[·]?) := by
    have hmap := congrArg (List.map (Option.map LaneEndpoint.lane)) h
    simpa [List.map_map, Function.comp_def] using hmap
  have hplace : (ready.map (·.lane))[r]? = some endpoint.lane := by
    rw [List.getElem?_map, List.getElem?_eq_getElem hr, hget, Option.map_some]
  calc (endpoints.map (·.lane)).count endpoint.lane
      = ((endpoints.map (·.lane)).map some).count (some endpoint.lane) :=
        (List.count_map_of_injective _ _ (Option.some_injective _) _).symm
    _ = (turns.map ((ready.map (·.lane))[·]?)).count (some endpoint.lane) := by rw [hlanes]
    _ = turns.count r := by
        unfold List.count
        rw [List.countP_map]
        refine List.countP_congr fun i _ => ?_
        have hinj : (ready.map (·.lane))[r]? = (ready.map (·.lane))[i]? ↔ r = i :=
          List.getElem?_inj (by simpa using hr) hd
        rw [Function.comp_apply, beq_iff_eq, beq_iff_eq, ← hplace, eq_comm, hinj, eq_comm]

/-- The values that the cursor has at `k` calls in a row. -/
def cursors (bits start k : ℕ) : List ℕ := List.iterate (fetchAdd bits) start k

/-- The values of the cursor count up, and wrap at the width of the word. -/
theorem cursors_eq {bits k : ℕ} (hstart : start < 2^bits) :
    cursors bits start k = (List.range k).map fun i => (start + i) % 2^bits := by
  have hvalue (i : ℕ) : (fetchAdd bits)^[i] start = (start + i) % 2^bits := by
    induction i with
    | zero => exact (Nat.mod_eq_of_lt hstart).symm
    | succ i ih => rw [Function.iterate_succ_apply', ih, fetchAdd, Nat.mod_add_mod, Nat.add_assoc]
  unfold cursors
  rw [← List.range_map_iterate]
  exact List.map_congr_left fun i _ => hvalue i

/-- At every value of a cursor of any width, `next` takes an endpoint of the list, and the lanes are
taken equally often in a row of calls. -/
theorem next_cursors {bits k : ℕ} (hne : ready ≠ []) (hd : ready.Distinct)
    (hstart : start < 2^bits) (hk : k ≤ 2^bits) :
    ∃ endpoints : List LaneEndpoint,
      (cursors bits start k).map ready.next = endpoints.map some ∧
        ∀ lane, ready.offers lane →
          Balanced (2^bits) ready.length start k ((endpoints.map (·.lane)).count lane) := by
  have hpos : 0 < ready.length := List.length_pos_iff.mpr hne
  have hturns : (cursors bits start k).map ready.next =
      (Rotation.turns (2^bits) ready.length start k).map (ready[·]?) := by
    rw [cursors_eq hstart, Rotation.turns, List.map_map, List.map_map]
    rfl
  have hendpoints : (cursors bits start k).map ready.next =
      ((cursors bits start k).map fun cursor =>
        ready.get ⟨cursor % ready.length, Nat.mod_lt _ hpos⟩).map some := by
    rw [List.map_map]
    exact List.map_congr_left fun cursor _ => List.getElem?_eq_getElem _
  refine ⟨_, hendpoints, fun lane hlane => ?_⟩
  obtain ⟨r, hr, hcount⟩ := hd.count_eq (hendpoints.symm.trans hturns) hlane
  rw [hcount]
  exact balanced_turns hr hstart hk

/-- Round robin is balanced. For a cursor of any width, from any value, a row of calls takes its
endpoints from the list, and its lanes equally often. And so do the calls of any clients in a part
of a run in which the pool is open, its list does not change, and only these calls take turns: each
of them returns an endpoint of the list. -/
theorem next_balanced :
    (∀ (bits start k : ℕ) (ready : ReadyLanes), ready ≠ [] → ready.Distinct → start < 2^bits →
      k ≤ 2^bits → ∃ endpoints : List LaneEndpoint,
        (cursors bits start k).map ready.next = endpoints.map some ∧
          ∀ lane, ready.offers lane →
            Balanced (2^bits) ready.length start k ((endpoints.map (·.lane)).count lane)) ∧
    (∀ (s₀ s t : State) (start : ℕ) (as : List Action), Init s₀ → Reaches step anyStep s₀ s →
      let began := { s with cursor := start }
      let ready := s.mgr.ready
      let calls := observed step nextStarts began as
      ready ≠ [] → start < 2^64 →
      (∀ c, s.calls c ≠ .nextRead ∧ ∀ ready, s.calls c ≠ .nextCount ready) →
      Always step (State.Serves ready) began as → run step began as = some t →
      (∀ c ∈ calls, ∃ outcome, t.calls c = .done outcome) → calls.length ≤ 2^64 →
      (t.returned calls).length = calls.length ∧ (∀ endpoint ∈ t.returned calls, endpoint ∈ ready) ∧
        ∀ lane, ready.offers lane → Balanced (2^64) ready.length start calls.length
          (((t.returned calls).map (·.lane)).count lane)) := by
  refine ⟨fun bits start k ready hne hd hstart hk => next_cursors hne hd hstart hk, ?_⟩
  intro s₀ s t start as hinit hreaches began ready calls hne hstart hnone hserves hrun hdone hk
  have hw : WellFormed began := by
    obtain ⟨hnumbered, hqueued, hcalled, hrenewing, hdropped, hundone⟩ :=
      hinit.wellFormed.reaches hreaches
    exact ⟨hnumbered, hqueued, hcalled, hrenewing, hdropped, hundone⟩
  obtain ⟨taken, hturns⟩ := turns_run hw hne hstart hnone hserves hrun
  have hreturned : (t.returned calls).Perm (taken.map (·.2)) := hturns.returned_perm hdone
  have hlength : calls.length = taken.length := by
    rw [(hturns.started_perm hdone).length_eq, List.length_map]
  refine ⟨?_, fun endpoint hmem => hturns.mem_ready (hreturned.mem_iff.mp hmem),
    fun lane hlane => ?_⟩
  · rw [hreturned.length_eq, List.length_map, hlength]
  · have hd : ready.Distinct := distinct_run hinit hreaches
    have hendpoints : (taken.map (·.2)).map some =
        (Rotation.turns (2^64) ready.length start taken.length).map (ready[·]?) := by
      rw [List.map_map]
      exact hturns.endpoints
    obtain ⟨r, hr, hcount⟩ := hd.count_eq hendpoints hlane
    rw [(hreturned.map _).count_eq, hcount, hlength]
    exact balanced_turns hr hstart (hlength ▸ hk)

/-- Two calls of `next` that overlap. -/
def twoCalls : List Action :=
  [.start 0 .next, .start 1 .next, .advance 1, .advance 0, .advance 0, .advance 1, .advance 1,
    .advance 0]

/-- The pool of two lanes, with the largest value of the cursor. -/
def atLastCursor : State := { twoLanePool with cursor := 2^64 - 1 }

/-- The pool after the two calls. -/
def afterTwoCalls : State := (run step atLastCursor twoCalls).getD atLastCursor

/-- The calls take their turns at the largest value of the cursor and behind its wrap, and so does
a row of calls with a cursor of two bits. -/
theorem next_balanced_twoCalls :
    (∃ endpoints : List LaneEndpoint,
      (cursors 2 3 4).map twoLanePool.mgr.ready.next = endpoints.map some ∧
        Balanced 4 2 3 4 ((endpoints.map (·.lane)).count ⟨1⟩)) ∧
    run step atLastCursor twoCalls = some afterTwoCalls ∧
      (afterTwoCalls.returned [0, 1]).map (·.lane) = [⟨1⟩, ⟨0⟩] ∧
      Balanced (2^64) 2 (2^64 - 1) 2
        (((afterTwoCalls.returned [0, 1]).map (·.lane)).count ⟨1⟩) := by
  have hdistinct : twoLanePool.mgr.ready.Distinct := by
    unfold ReadyLanes.Distinct
    decide
  obtain ⟨endpoints, hendpoints, hbalanced⟩ := next_balanced.1 2 3 4 twoLanePool.mgr.ready
    (by decide) hdistinct (by decide) (by decide)
  refine ⟨⟨endpoints, hendpoints, hbalanced ⟨1⟩ (by decide)⟩, ?_⟩
  have hrun : run step atLastCursor twoCalls = some afterTwoCalls := rfl
  have hserves : Always step (State.Serves twoLanePool.mgr.ready) atLastCursor twoCalls :=
    .of_step ⟨rfl, rfl, rfl⟩ rfl <| .of_step ⟨rfl, rfl, rfl⟩ rfl <|
    .of_step ⟨rfl, rfl, rfl⟩ rfl <| .of_step ⟨rfl, rfl, rfl⟩ rfl <|
    .of_step ⟨rfl, rfl, rfl⟩ rfl <| .of_step ⟨rfl, rfl, rfl⟩ rfl <|
    .of_step ⟨rfl, rfl, rfl⟩ rfl <| .of_step ⟨rfl, rfl, rfl⟩ rfl ⟨rfl, rfl, rfl⟩
  have hdone : ∀ c ∈ [0, 1], ∃ outcome, afterTwoCalls.calls c = .done outcome :=
    List.forall_mem_cons.mpr ⟨⟨_, rfl⟩, List.forall_mem_singleton.mpr ⟨_, rfl⟩⟩
  refine ⟨hrun, rfl, ?_⟩
  exact (next_balanced.2 twoLanePool twoLanePool _ (2^64 - 1) twoCalls twoLanePool_init .refl
    (by decide) (by decide) (fun c => ⟨nofun, nofun⟩) hserves hrun hdone (by decide)).2.2 ⟨1⟩
      (by decide)

end Torlane
