import Torlane.Pool.LaneMoves
import Torlane.Pool.System

/-!
# The moves of the system

What a step of the system can do, said once. `CallMove` lists the moves of a call, and `ManagerMove`
those of the manager. `step_cases` takes a step apart into one of them, and every invariant of the
system is derived from the two lists. `WellFormed` is what the lists rest on: the lanes keep their
numbering, so that a rotation names a lane that exists.
-/

namespace Torlane

/-! ## Calls -/

/-- The outcome is an error. -/
def Outcome.isError : Outcome → Prop
  | .selected result => ∃ error, result = .error error
  | .rotated _ result => ∃ error, result = .error error
  | .restarted result => ∃ error, result = .error error
  | .shutdown result => ∃ error, result = .error error

/-- The endpoints that a call holds: a snapshot of the ready list, or what it picked from one. -/
def CallPc.held : CallPc → ReadyLanes
  | .nextCount ready => ready
  | .pick endpoint => [endpoint]
  | .rotateMark _ snapshot _ => snapshot
  | .rotateWrite _ snapshot _ => snapshot
  | _ => []

/-- The lane that a call inside `queue_rotation` rotates. -/
def CallPc.rotates : CallPc → Option LaneId
  | .rotateRead lane _ => some lane
  | .rotateMark lane _ _ => some lane
  | .rotateWrite lane _ _ => some lane
  | .rotateSend lane _ => some lane
  | .rotateUndo lane => some lane
  | _ => none

/-- The lane that a call is rotating, between its insertion into `unavailable` and its send. -/
def CallPc.marked : CallPc → Option LaneId
  | .rotateWrite lane _ _ => some lane
  | .rotateSend lane _ => some lane
  | _ => none

/-- The call waits for a response of the manager. -/
def CallPc.waiting : CallPc → Bool
  | .rotateWait _ => true
  | .restartWait => true
  | .shutdownWait => true
  | _ => false

/-- The moves of a call `c` in the state `s`: its program counter before, its access to the shared
state, and its program counter after. -/
inductive CallMove (s : State) (c : CallId) : CallPc → Effect → CallPc → Prop
  /-- The call returns an error before it has marked a lane, or because its response will not
  come. -/
  | giveUp {pc outcome} (hpc : pc.marked = none) (herror : outcome.isError)
      (hshutdown : ∀ result, outcome ≠ .shutdown result)
      (hwaiting : pc.waiting = true → s.receiverDropped = true) :
      CallMove s c pc .none (.done outcome)
  | startNext (hclosed : s.closed = false) : CallMove s c .fresh .none .nextRead
  | startForKey {lane} (hclosed : s.closed = false) :
      CallMove s c .fresh .none (.forKeyRead lane)
  | startRotate {lane wait} (hclosed : s.closed = false) (hlane : lane.val < s.mgr.config.lanes) :
      CallMove s c .fresh .none (.rotateRead lane wait)
  | startRestart (hclosed : s.closed = false) : CallMove s c .fresh .none .restartSend
  | startShutdown (hclosed : s.closed = false) : CallMove s c .fresh .close .shutdownSend
  | joinShutdown (hclosed : s.closed = true) :
      CallMove s c .fresh .close (.shutdownJoin (.ok ()))
  | nextRead : CallMove s c .nextRead .none (.nextCount s.mgr.ready)
  | nextCount {ready endpoint} (hmem : endpoint ∈ ready) :
      CallMove s c (.nextCount ready) .count (.pick endpoint)
  | forKeyRead {lane endpoint} (hmem : endpoint ∈ s.mgr.ready) :
      CallMove s c (.forKeyRead lane) .none (.pick endpoint)
  | pick {endpoint} (halive : s.receiverDropped = false) :
      CallMove s c (.pick endpoint) (.send (.assign endpoint.lane endpoint.epoch))
        (.done (.selected (.ok ⟨endpoint⟩)))
  | rotateRead {lane wait} (hoffers : s.mgr.ready.offers lane) :
      CallMove s c (.rotateRead lane wait) .none (.rotateMark lane s.mgr.ready wait)
  | rotateMark {lane snapshot wait} :
      CallMove s c (.rotateMark lane snapshot wait) (.mark lane) (.rotateWrite lane snapshot wait)
  | rotateWrite {lane snapshot wait} :
      CallMove s c (.rotateWrite lane snapshot wait) (.write (snapshot.without lane))
        (.rotateSend lane wait)
  | rotateSend {lane} (halive : s.receiverDropped = false) :
      CallMove s c (.rotateSend lane true) (.send (.rotate lane (some c))) (.rotateWait lane)
  | rotateQueue {lane} (halive : s.receiverDropped = false) :
      CallMove s c (.rotateSend lane false) (.send (.rotate lane none))
        (.done (.rotated lane (.ok ())))
  | rotateRefused {lane wait} (hdropped : s.receiverDropped = true) :
      CallMove s c (.rotateSend lane wait) .none (.rotateUndo lane)
  | rotateUndo {lane} :
      CallMove s c (.rotateUndo lane) (.unmark lane) (.done (.rotated lane (.error .closed)))
  | restartSend (halive : s.receiverDropped = false) :
      CallMove s c .restartSend (.send (.restart c)) .restartWait
  | shutdownSend (halive : s.receiverDropped = false) :
      CallMove s c .shutdownSend (.send (.shutdown c)) .shutdownWait
  | shutdownRefused (hdropped : s.receiverDropped = true) :
      CallMove s c .shutdownSend .none (.shutdownJoin (.ok ()))
  | shutdownDropped (hdropped : s.receiverDropped = true) :
      CallMove s c .shutdownWait .none (.shutdownJoin (.ok ()))
  | shutdownTake {result} (hhandle : s.handle = true) :
      CallMove s c (.shutdownJoin result) .takeHandle (.shutdownAwait result)
  | shutdownTaken {result} (hhandle : s.handle = false) :
      CallMove s c (.shutdownJoin result) .none (.done (.shutdown result))
  | shutdownAwait {result} (hdropped : s.receiverDropped = true) :
      CallMove s c (.shutdownAwait result) .none (.done (.shutdown result))
  | returning {outcome} : CallMove s c (.returning outcome) .none (.done outcome)

/-- The first step of a call is one of the moves. -/
theorem callMove_of_start (s : State) (c : CallId) (op : Op) :
    CallMove s c .fresh (startCall s op).1 (startCall s op).2 := by
  cases op with
  | next =>
    cases hclosed : s.closed with
    | true => simpa [startCall, hclosed] using .giveUp rfl ⟨_, rfl⟩ (by simp) nofun
    | false => simpa [startCall, hclosed] using .startNext hclosed
  | forKey key =>
    cases hclosed : s.closed with
    | true => simpa [startCall, hclosed] using .giveUp rfl ⟨_, rfl⟩ (by simp) nofun
    | false => simpa [startCall, hclosed] using .startForKey hclosed
  | rotate lane wait =>
    cases hclosed : s.closed with
    | true => simpa [startCall, hclosed] using .giveUp rfl ⟨_, rfl⟩ (by simp) nofun
    | false =>
      by_cases hlane : s.mgr.config.lanes ≤ lane.val
      · simpa [startCall, hclosed, hlane] using .giveUp rfl ⟨_, rfl⟩ (by simp) nofun
      · simpa [startCall, hclosed, hlane] using .startRotate hclosed (Nat.lt_of_not_le hlane)
  | restart =>
    cases hclosed : s.closed with
    | true => simpa [startCall, hclosed] using .giveUp rfl ⟨_, rfl⟩ (by simp) nofun
    | false => simpa [startCall, hclosed] using .startRestart hclosed
  | shutdown =>
    cases hclosed : s.closed with
    | true => simpa [startCall, hclosed] using .joinShutdown hclosed
    | false => simpa [startCall, hclosed] using .startShutdown hclosed

/-- Every later step of a call is one of the moves. -/
theorem callMove_of_step {s : State} {c : CallId} {pc : CallPc} {effect : Effect} {pc' : CallPc}
    (h : callStep s c pc = some (effect, pc')) :
    CallMove s c pc effect pc' := by
  cases pc with
  | fresh => simp [callStep] at h
  | nextRead =>
    simp only [callStep] at h
    split_ifs at h with hempty
    · cases h; exact .giveUp rfl ⟨_, rfl⟩ (by simp) nofun
    · cases h; exact .nextRead
  | nextCount ready =>
    obtain ⟨endpoint, hnext, heq⟩ := Option.map_eq_some_iff.mp h
    cases heq
    exact .nextCount (List.mem_of_getElem? hnext)
  | forKeyRead lane =>
    simp only [callStep] at h
    split at h
    · cases h; exact .giveUp rfl ⟨_, rfl⟩ (by simp) nofun
    · next endpoint hfind => cases h; exact .forKeyRead (List.mem_of_find?_eq_some hfind)
  | pick endpoint =>
    simp only [callStep] at h
    split_ifs at h with hdropped
    · cases h; exact .giveUp rfl ⟨_, rfl⟩ (by simp) nofun
    · cases h; exact .pick (by simpa using hdropped)
  | rotateRead lane wait =>
    simp only [callStep] at h
    split_ifs at h with hoffers
    · cases h; exact .rotateRead hoffers
    · cases h; exact .giveUp rfl ⟨_, rfl⟩ (by simp) nofun
  | rotateMark lane snapshot wait => cases h; exact .rotateMark
  | rotateWrite lane snapshot wait => cases h; exact .rotateWrite
  | rotateSend lane wait =>
    simp only [callStep] at h
    split_ifs at h with hdropped hwait
    · cases h; exact .rotateRefused hdropped
    · cases h; subst hwait; exact .rotateSend (by simpa using hdropped)
    · cases h
      obtain rfl : wait = false := by simpa using hwait
      exact .rotateQueue (by simpa using hdropped)
  | rotateUndo lane => cases h; exact .rotateUndo
  | rotateWait lane =>
    simp only [callStep] at h
    split_ifs at h with hdropped
    cases h
    exact .giveUp rfl ⟨_, rfl⟩ (by simp) fun _ => hdropped
  | restartSend =>
    simp only [callStep] at h
    split_ifs at h with hdropped
    · cases h; exact .giveUp rfl ⟨_, rfl⟩ (by simp) nofun
    · cases h; exact .restartSend (by simpa using hdropped)
  | restartWait =>
    simp only [callStep] at h
    split_ifs at h with hdropped
    cases h
    exact .giveUp rfl ⟨_, rfl⟩ (by simp) fun _ => hdropped
  | shutdownSend =>
    simp only [callStep] at h
    split_ifs at h with hdropped
    · cases h; exact .shutdownRefused hdropped
    · cases h; exact .shutdownSend (by simpa using hdropped)
  | shutdownWait =>
    simp only [callStep] at h
    split_ifs at h with hdropped
    cases h
    exact .shutdownDropped hdropped
  | shutdownJoin result =>
    simp only [callStep] at h
    split_ifs at h with hhandle
    · cases h; exact .shutdownTake hhandle
    · cases h; exact .shutdownTaken (by simpa using hhandle)
  | shutdownAwait result =>
    simp only [callStep] at h
    split_ifs at h with hdropped
    cases h
    exact .shutdownAwait hdropped
  | returning outcome => cases h; exact .returning
  | done outcome => simp [callStep] at h

/-! ## The manager -/

/-- The moves of the manager. An update of the lanes is given by what it does to them. -/
inductive ManagerMove (s : State) : Action → State → Prop
  | receiveAssign {env lane epoch rest lanes publish} (hpc : s.pc = .idle)
      (hqueue : s.queue = .assign lane epoch :: rest)
      (heq : s.mgr.assignLanes env lane epoch = ({ s.mgr with lanes }, publish))
      (hmoves : LaneMoves s.mgr.runtime (.assign lane epoch) s.mgr.lanes lanes) :
      ManagerMove s (.receive env)
        { s with
          queue := rest, mgr := { s.mgr with lanes }
          pc := if publish then .compute .assign (.ok ()) else .idle }
  | receiveRotate {env lane response rest lanes} (hpc : s.pc = .idle)
      (hqueue : s.queue = .rotate lane response :: rest)
      (hmoves : LaneMoves s.mgr.runtime (.rotate lane) s.mgr.lanes lanes)
      (hready : ∀ lane' ∈ lanes, lane'.id = lane → lane'.state = .ready)
      (hepoch : ∀ lane' ∈ lanes, lane'.id = lane →
        ∃ lane'' ∈ s.mgr.lanes, lane''.id = lane ∧ lane'.epoch = lane''.epoch + 1)
      (hrenew : ∀ lane' ∈ s.mgr.lanes, lane'.id = lane → CanRenew env lane') :
      ManagerMove s (.receive env)
        { s with queue := rest, mgr := { s.mgr with lanes }, pc := .unmark lane response }
  | receiveRotateError {env lane response rest lanes error} (hpc : s.pc = .idle)
      (hqueue : s.queue = .rotate lane response :: rest)
      (hmoves : LaneMoves s.mgr.runtime (.rotate lane) s.mgr.lanes lanes)
      (hready : ∀ lane' ∈ lanes, lane'.id = lane → lane'.state ≠ .ready)
      (hrenew : ∀ lane' ∈ s.mgr.lanes, lane'.id = lane → ¬ CanRenew env lane') :
      ManagerMove s (.receive env)
        { s with
          queue := rest, mgr := { s.mgr with lanes }
          pc := .compute (.rotate lane response) (.error error) }
  | receiveRestart {env call rest config} (hpc : s.pc = .idle)
      (hqueue : s.queue = .restart call :: rest) (hconfig : s.mgr.instanceConfig = some config) :
      ManagerMove s (.receive env) { s with queue := rest, pc := .clear config call }
  | refuseRestart {env call rest} (hpc : s.pc = .idle)
      (hqueue : s.queue = .restart call :: rest) (hconfig : s.mgr.instanceConfig = none) :
      ManagerMove s (.receive env)
        { s with queue := rest, pc := .respond (.restart call) (.error .restartUnavailable) }
  | receiveShutdown {env call rest} (hpc : s.pc = .idle)
      (hqueue : s.queue = .shutdown call :: rest) :
      ManagerMove s (.receive env) { s with queue := rest, pc := .haltClear call }
  | tick {env ttl lanes publish} (hpc : s.pc = .idle)
      (heq : s.mgr.expireLanes env = ({ s.mgr with lanes }, publish))
      (hmoves : LaneMoves s.mgr.runtime (.expire ttl env) s.mgr.lanes lanes) :
      ManagerMove s (.tick env)
        { s with
          mgr := { s.mgr with lanes }
          pc := if publish then .compute .expire (.ok ()) else .idle }
  | unmark {env lane response} (hpc : s.pc = .unmark lane response) :
      ManagerMove s (.work env)
        { s with mgr := s.mgr.unmark lane, pc := .compute (.rotate lane response) (.ok ()) }
  | compute {env job result} (hpc : s.pc = .compute job result) :
      ManagerMove s (.work env)
        { s with pc := .write (readyLanes s.mgr.lanes s.mgr.unavailable) job result }
  | write {env ready job result} (hpc : s.pc = .write ready job result) :
      ManagerMove s (.work env) { s with mgr := { s.mgr with ready }, pc := .respond job result }
  | respond {env job result calls} (hpc : s.pc = .respond job result)
      (hcalls : ∀ c, calls c = s.calls c ∨
        (job.response = some c ∧ Answered result (s.calls c) (calls c))) :
      ManagerMove s (.work env) { s with calls, pc := .idle }
  | clear {env config call} (hpc : s.pc = .clear config call) :
      ManagerMove s (.work env) { s with mgr := s.mgr.clearReady, pc := .mark config call }
  | mark {env config call} (hpc : s.pc = .mark config call) :
      ManagerMove s (.work env) { s with mgr := s.mgr.markAll, pc := .retire config call }
  | retire {env config call lanes pc} (hpc : s.pc = .retire config call)
      (hmoves : LaneMoves s.mgr.runtime .disable s.mgr.lanes lanes)
      (hready : ∀ lane ∈ lanes, lane.state ≠ .ready)
      (hpc' : pc = .stop config call ∨ pc = .start config call) :
      ManagerMove s (.work env) { s with mgr := { s.mgr with lanes, inst := none }, pc }
  | stop {env config call} (hpc : s.pc = .stop config call) :
      ManagerMove s (.work env) { s with pc := .start config call }
  | stopError {env config call error} (hpc : s.pc = .stop config call) :
      ManagerMove s (.work env) { s with pc := .respond (.restart call) (.error error) }
  | start {env config call inst} (hpc : s.pc = .start config call) :
      ManagerMove s (.work env)
        { s with mgr := s.mgr.adopt inst, pc := .renew call (s.mgr.lanes.map (·.id)) }
  | startError {env config call lanes error} (hpc : s.pc = .start config call)
      (hmoves : LaneMoves s.mgr.runtime .disable s.mgr.lanes lanes)
      (hready : ∀ lane ∈ lanes, lane.state ≠ .ready) :
      ManagerMove s (.work env)
        { s with mgr := { s.mgr with lanes }, pc := .compute (.restart call) (.error error) }
  | renew {env call id ids lanes} (hpc : s.pc = .renew call (id :: ids))
      (hmoves : LaneMoves s.mgr.runtime (.rotate id) s.mgr.lanes lanes) :
      ManagerMove s (.work env)
        { s with mgr := { s.mgr with lanes }, pc := .renewUnmark call id ids }
  | renewError {env call id ids lanes} (hpc : s.pc = .renew call (id :: ids))
      (hmoves : LaneMoves s.mgr.runtime (.rotate id) s.mgr.lanes lanes)
      (hready : ∀ lane ∈ lanes, lane.id = id → lane.state ≠ .ready) :
      ManagerMove s (.work env) { s with mgr := { s.mgr with lanes }, pc := .renew call ids }
  | renewUnmark {env call id ids} (hpc : s.pc = .renewUnmark call id ids) :
      ManagerMove s (.work env) { s with mgr := s.mgr.unmark id, pc := .renew call ids }
  | renewed {env call} (hpc : s.pc = .renew call []) :
      ManagerMove s (.work env) { s with pc := .compute (.restart call) (.ok ()) }
  | haltClear {env call} (hpc : s.pc = .haltClear call) :
      ManagerMove s (.work env) { s with mgr := s.mgr.clearReady, pc := .haltTake call }
  | haltTake {env call pc} (hpc : s.pc = .haltTake call)
      (hpc' : pc = .haltStop call ∨ pc = .haltRespond call (.ok ())) :
      ManagerMove s (.work env) { s with mgr := s.mgr.takeInstance, pc }
  | haltStop {env call result} (hpc : s.pc = .haltStop call) :
      ManagerMove s (.work env) { s with pc := .haltRespond call result }
  | haltRespond {env call result calls} (hpc : s.pc = .haltRespond call result)
      (hcalls : ∀ c, calls c = s.calls c ∨
        (some call = some c ∧ Answered result (s.calls c) (calls c))) :
      ManagerMove s (.work env) { s with calls, pc := .exiting }
  | exiting {env} (hpc : s.pc = .exiting) :
      ManagerMove s (.work env) { s with queue := [], pc := .finished }

/-- The lanes that the manager still has to renew, in the loop of `restart`. -/
def ManagerPc.renewing : ManagerPc → List LaneId
  | .renew _ ids => ids
  | .renewUnmark _ id ids => id :: ids
  | _ => []

/-- The lanes are numbered, every rotation that is under way names one of them, and when the
receiver is dropped, the queue goes with it. -/
structure WellFormed (s : State) : Prop where
  numbered : Numbered s.mgr.config.lanes s.mgr.lanes
  queued : ∀ lane response, .rotate lane response ∈ s.queue → lane.val < s.mgr.config.lanes
  called : ∀ c lane, (s.calls c).rotates = some lane → lane.val < s.mgr.config.lanes
  renewing : ∀ id ∈ s.pc.renewing, id.val < s.mgr.config.lanes
  dropped : s.receiverDropped = true → s.queue = []
  /-- A call undoes its mark only where its command could not be sent. -/
  undone : ∀ c lane, s.calls c = .rotateUndo lane → s.receiverDropped = true

variable {s t : State} {env : Env}

/-- A command that the manager takes off the queue leads to one of its moves. -/
theorem managerMove_of_receive {command : ManagerCommand} {rest : List ManagerCommand}
    (hs : WellFormed s) (hpc : s.pc = .idle) (hqueue : s.queue = command :: rest) :
    ManagerMove s (.receive env) (receive { s with queue := rest } env command) := by
  cases command with
  | assign lane epoch =>
    obtain ⟨lanes, publish, heq, hmoves⟩ :=
      ManagerState.assignLanes_moves hs.numbered env lane epoch
    simp only [receive, heq]
    exact .receiveAssign hpc hqueue heq hmoves
  | rotate lane response =>
    -- `rotate` finds the lane, as `queue_rotation` checked its number before it sent the command.
    have hlane : lane.val < s.mgr.config.lanes :=
      hs.queued lane response (by rw [hqueue]; exact List.mem_cons_self)
    obtain ⟨lanes, result, heq, hmoves, hready, hepoch, hrenew⟩ :=
      ManagerState.rotateLanes_moves hs.numbered env hlane
    cases result with
    | ok =>
      simp only [receive, heq]
      exact .receiveRotate hpc hqueue hmoves (by simpa using hready) (hepoch rfl)
        (by simpa using hrenew)
    | error error =>
      simp only [receive, heq]
      exact .receiveRotateError hpc hqueue hmoves (by simpa using hready) (by simpa using hrenew)
  | restart call =>
    cases hconfig : s.mgr.instanceConfig with
    | none => simpa [receive, hconfig] using .refuseRestart hpc hqueue hconfig
    | some config => simpa [receive, hconfig] using .receiveRestart hpc hqueue hconfig
  | shutdown call => exact .receiveShutdown hpc hqueue

/-- The timer leads to one of the manager's moves. -/
theorem managerMove_of_tick (hpc : s.pc = .idle) : ManagerMove s (.tick env) (tick s env) := by
  obtain ⟨ttl, lanes, publish, heq, hmoves⟩ := s.mgr.expireLanes_moves env
  simp only [tick, heq]
  exact .tick hpc heq hmoves

/-- Every further step of the manager in a command is one of its moves. -/
theorem managerMove_of_work (hs : WellFormed s) (h : work s env = some t) :
    ManagerMove s (.work env) t := by
  unfold work at h
  cases hpc : s.pc with
  | idle => simp [hpc] at h
  | finished => simp [hpc] at h
  | unmark => simp only [hpc, Option.some.injEq] at h; subst h; exact .unmark hpc
  | compute => simp only [hpc, Option.some.injEq] at h; subst h; exact .compute hpc
  | write => simp only [hpc, Option.some.injEq] at h; subst h; exact .write hpc
  | respond job result =>
    obtain ⟨calls, heq, hcalls⟩ := s.deliver_eq job.response result
    simp only [hpc, heq, Option.some.injEq] at h
    subst h
    exact .respond hpc hcalls
  | clear => simp only [hpc, Option.some.injEq] at h; subst h; exact .clear hpc
  | mark => simp only [hpc, Option.some.injEq] at h; subst h; exact .mark hpc
  | retire config call =>
    simp only [hpc, Option.some.injEq] at h
    subst h
    refine .retire hpc (ManagerState.setStates_moves (by simp))
      (by simp [ManagerState.setStates]) ?_
    split_ifs
    · exact .inl rfl
    · exact .inr rfl
  | stop config call =>
    simp only [hpc] at h
    split at h
    · cases h; exact .stopError hpc
    · cases h; exact .stop hpc
  | start config call =>
    simp only [hpc] at h
    split at h
    · cases h
      exact .startError hpc (ManagerState.setStates_moves (by simp)) (by simp)
    · cases h; exact .start hpc
  | renew call ids =>
    cases ids with
    | nil => simp only [hpc, Option.some.injEq] at h; subst h; exact .renewed hpc
    | cons id ids =>
      -- The loop visits the lanes of the pool only.
      have hid : id.val < s.mgr.config.lanes :=
        hs.renewing id (by rw [hpc]; exact List.mem_cons_self)
      obtain ⟨lanes, renewed, heq, hmoves, hready⟩ :=
        ManagerState.renewLane_moves hs.numbered env hid
      -- `renewLane` tells a rotation from a failure, and the loop goes on after both.
      simp only [hpc, heq, Option.some.injEq] at h
      subst h
      cases renewed with
      | true => exact .renew hpc hmoves
      | false => exact .renewError hpc hmoves (by simpa using hready)
  | renewUnmark => simp only [hpc, Option.some.injEq] at h; subst h; exact .renewUnmark hpc
  | haltClear => simp only [hpc, Option.some.injEq] at h; subst h; exact .haltClear hpc
  | haltTake call =>
    simp only [hpc, Option.some.injEq] at h
    subst h
    refine .haltTake hpc ?_
    split_ifs
    · exact .inl rfl
    · exact .inr rfl
  | haltStop => simp only [hpc, Option.some.injEq] at h; subst h; exact .haltStop hpc
  | haltRespond call result =>
    obtain ⟨calls, heq, hcalls⟩ := s.deliver_eq (some call) result
    simp only [hpc, heq, Option.some.injEq] at h
    subst h
    exact .haltRespond hpc hcalls
  | exiting => simp only [hpc, Option.some.injEq] at h; subst h; exact .exiting hpc

/-- A step of the system is a move of one of the calls, or a move of the manager. -/
theorem step_cases {a : Action} (hs : WellFormed s) (h : step s a = some t) :
    (∃ c pc effect pc', s.calls c = pc ∧ CallMove s c pc effect pc' ∧
      t = (s.apply effect).setCall c pc' ∧
      ((a = .advance c ∧ callStep s c pc = some (effect, pc')) ∨
        (pc = .fresh ∧ ∃ op, a = .start c op ∧ startCall s op = (effect, pc')))) ∨
    ManagerMove s a t := by
  cases a with
  | start c op =>
    simp only [step] at h
    split at h
    · next hfresh =>
      cases h
      exact .inl ⟨c, .fresh, _, _, hfresh, callMove_of_start s c op, rfl, .inr ⟨rfl, op, rfl, rfl⟩⟩
    · cases h
  | advance c =>
    obtain ⟨⟨effect, pc'⟩, hstep, heq⟩ := Option.map_eq_some_iff.mp h
    cases heq
    exact .inl ⟨c, _, effect, pc', rfl, callMove_of_step hstep, rfl, .inl ⟨rfl, hstep⟩⟩
  | receive env =>
    simp only [step] at h
    split at h
    · next command rest hpc hqueue => cases h; exact .inr (managerMove_of_receive hs hpc hqueue)
    · cases h
  | tick env =>
    simp only [step] at h
    split at h
    · next hpc => cases h; exact .inr (managerMove_of_tick hpc)
    · cases h
  | work env => exact .inr (managerMove_of_work hs h)

/-- A command that is taken off the queue is a move of the manager. -/
theorem managerMove_of_step {env : Env} (hs : WellFormed s) (h : step s (.receive env) = some t) :
    ManagerMove s (.receive env) t := by
  rcases step_cases hs h with ⟨c, pc, effect, pc', -, -, -, ha⟩ | hmove
  · rcases ha with ⟨ha, -⟩ | ⟨-, op, ha, -⟩ <;> cases ha
  · exact hmove

/-! ## Well-formed states -/

/-- A step leaves the configuration as it is. -/
theorem config_eq {a : Action} (hs : WellFormed s) (h : step s a = some t) :
    t.mgr.config = s.mgr.config := by
  rcases step_cases hs h with ⟨c, pc, effect, pc', -, -, rfl, -⟩ | hmove
  · cases effect <;> rfl
  · cases hmove <;> simp [ManagerState.unmark, ManagerState.clearReady, ManagerState.markAll,
      ManagerState.adopt, ManagerState.takeInstance]

/-- A call that has been answered is not inside `queue_rotation`, and it was not before. -/
theorem Answered.rotates {result : Except Error Unit} {pc pc' : CallPc}
    (h : Answered result pc pc') : pc.rotates = none ∧ pc'.rotates = none := by
  cases h <;> exact ⟨rfl, rfl⟩

/-- The manager moves only while the receiver is there. -/
theorem ManagerMove.alive {a : Action} (h : ManagerMove s a t) : s.receiverDropped = false := by
  cases h <;> simp [State.receiverDropped, *]

/-- The move that drops the receiver drops the queue. -/
theorem ManagerMove.dropped {a : Action} (h : ManagerMove s a t)
    (hdropped : t.receiverDropped = true) : t.queue = [] := by
  cases h with
  | receiveAssign => split_ifs at hdropped <;> simp [State.receiverDropped] at hdropped
  | tick => split_ifs at hdropped <;> simp [State.receiverDropped] at hdropped
  | retire _ _ _ hpc' => rcases hpc' with rfl | rfl <;> simp [State.receiverDropped] at hdropped
  | haltTake _ hpc' => rcases hpc' with rfl | rfl <;> simp [State.receiverDropped] at hdropped
  | exiting => rfl
  | _ => simp [State.receiverDropped] at hdropped

/-- A move of the manager answers at most one call, and leaves the other ones where they are. -/
theorem ManagerMove.calls {a : Action} (h : ManagerMove s a t) (c : CallId) :
    t.calls c = s.calls c ∨ ∃ result, Answered result (s.calls c) (t.calls c) := by
  cases h with
  | respond _ hcalls => exact (hcalls c).imp_right fun h => ⟨_, h.2⟩
  | haltRespond _ hcalls => exact (hcalls c).imp_right fun h => ⟨_, h.2⟩
  | _ => exact .inl rfl

/-- A move of the manager appends no command to the queue. -/
theorem ManagerMove.queue {a : Action} {command : ManagerCommand} (h : ManagerMove s a t)
    (hmem : command ∈ t.queue) : command ∈ s.queue := by
  cases h <;> simp_all

/-- A move of the manager updates the lanes. -/
theorem ManagerMove.lanes {a : Action} (h : ManagerMove s a t) :
    ∃ cause, LaneMoves s.mgr.runtime cause s.mgr.lanes t.mgr.lanes := by
  cases h <;> first | exact ⟨_, ‹_›⟩ | exact ⟨.disable, .refl _⟩

/-- The lanes that are left to the loop of `restart` are lanes of the pool. -/
theorem ManagerMove.renewing {a : Action} {id : LaneId} (h : ManagerMove s a t)
    (hid : id ∈ t.pc.renewing) : id ∈ s.pc.renewing ∨ ∃ lane ∈ s.mgr.lanes, lane.id = id := by
  cases h with
  | receiveAssign => split_ifs at hid <;> simp [ManagerPc.renewing] at hid
  | tick => split_ifs at hid <;> simp [ManagerPc.renewing] at hid
  | retire _ _ _ hpc' => rcases hpc' with rfl | rfl <;> simp [ManagerPc.renewing] at hid
  | haltTake _ hpc' => rcases hpc' with rfl | rfl <;> simp [ManagerPc.renewing] at hid
  | start => exact .inr (List.mem_map.mp hid)
  | renew hpc => exact .inl (by simpa [hpc, ManagerPc.renewing] using hid)
  | renewError hpc => exact .inl (by simp_all [ManagerPc.renewing])
  | renewUnmark hpc => exact .inl (by simp_all [ManagerPc.renewing])
  | _ => simp [ManagerPc.renewing] at hid

/-- What a call rotates after one of its moves, it rotated before, or it starts now, and the lane
exists. -/
theorem CallMove.rotates {c : CallId} {pc pc' : CallPc} {effect : Effect} {lane : LaneId}
    (h : CallMove s c pc effect pc') (hrotates : pc'.rotates = some lane) :
    pc.rotates = some lane ∨ (pc = .fresh ∧ lane.val < s.mgr.config.lanes) := by
  cases h <;> simp_all [CallPc.rotates]

/-- A call sends a command only while the receiver is there. -/
theorem CallMove.alive {c : CallId} {pc pc' : CallPc} {command : ManagerCommand}
    (h : CallMove s c pc (.send command) pc') : s.receiverDropped = false := by
  cases h <;> assumption

/-- A call comes to undo its mark only where the receiver has been dropped. -/
theorem CallMove.undoes {c : CallId} {pc : CallPc} {effect : Effect} {lane : LaneId}
    (h : CallMove s c pc effect (.rotateUndo lane)) : s.receiverDropped = true := by
  cases h
  assumption

/-- Where the receiver is there, a call takes no mark back. -/
theorem CallMove.not_unmark {c : CallId} {pc' : CallPc} {lane : LaneId} (hs : WellFormed s)
    (halive : s.receiverDropped = false) :
    ¬ CallMove s c (s.calls c) (.unmark lane) pc' := by
  intro h
  -- The one move with this access is the undo, and its call has seen the receiver dropped.
  generalize hpc : s.calls c = pc at h
  cases h
  simp [hs.undone c lane hpc] at halive

/-- A rotation that a call sends names the lane that the call has marked. -/
theorem CallMove.sends {c : CallId} {pc pc' : CallPc} {lane : LaneId} {response : Option CallId}
    (h : CallMove s c pc (.send (.rotate lane response)) pc') :
    (∃ wait, pc = .rotateSend lane wait) ∧ pc'.rotates = none := by
  cases h <;> exact ⟨⟨_, rfl⟩, rfl⟩

/-- What a call writes is its snapshot without the lane that it rotates. -/
theorem CallMove.writes {c : CallId} {pc pc' : CallPc} {ready : ReadyLanes}
    (h : CallMove s c pc (.write ready) pc') :
    ∃ lane snapshot wait, pc = .rotateWrite lane snapshot wait ∧ pc' = .rotateSend lane wait ∧
      ready = snapshot.without lane := by
  cases h
  exact ⟨_, _, _, rfl, rfl, rfl⟩

/-- A call marks the lane that it rotates. -/
theorem CallMove.marks {c : CallId} {pc pc' : CallPc} {lane : LaneId}
    (h : CallMove s c pc (.mark lane) pc') :
    ∃ snapshot wait, pc = .rotateMark lane snapshot wait ∧
      pc' = .rotateWrite lane snapshot wait := by
  cases h
  exact ⟨_, _, rfl, rfl⟩

/-- A call comes to its write from its mark. -/
theorem CallMove.of_rotateWrite {c : CallId} {pc : CallPc} {effect : Effect} {lane : LaneId}
    {snapshot : ReadyLanes} {wait : Bool}
    (h : CallMove s c pc effect (.rotateWrite lane snapshot wait)) :
    pc = .rotateMark lane snapshot wait ∧ effect = .mark lane := by
  cases h
  exact ⟨rfl, rfl⟩

/-- A call comes to its send from its write. -/
theorem CallMove.of_rotateSend {c : CallId} {pc : CallPc} {effect : Effect} {lane : LaneId}
    {wait : Bool} (h : CallMove s c pc effect (.rotateSend lane wait)) :
    ∃ snapshot, pc = .rotateWrite lane snapshot wait ∧ effect = .write (snapshot.without lane) := by
  cases h
  exact ⟨_, rfl, rfl⟩

/-- A lane that a call has marked is one that it rotates. -/
theorem CallPc.rotates_of_marked {pc : CallPc} {lane : LaneId} (h : pc.marked = some lane) :
    pc.rotates = some lane := by
  cases pc <;> simp_all [marked, rotates]

/-- A pool that has just been spawned is well formed. -/
theorem Init.wellFormed (hs : Init s) : WellFormed s := by
  obtain ⟨config, lanes, runtime, inst, instanceConfig, env, hconfig, hlanes, rfl⟩ := hs
  exact ⟨(createLanes_spec hconfig hlanes).1, by simp [spawn], by simp [spawn, CallPc.rotates],
    by simp [spawn, ManagerPc.renewing], by simp [spawn], by simp [spawn]⟩

/-- A move of a call keeps the state well formed. -/
theorem WellFormed.call {c : CallId} {effect : Effect} {pc' : CallPc} (hs : WellFormed s)
    (hmove : CallMove s c (s.calls c) effect pc') :
    WellFormed ((s.apply effect).setCall c pc') where
  numbered := by simpa using hs.numbered
  queued lane response hmem := by
    rw [State.setCall_mgr, State.apply_config]
    rcases State.mem_apply_queue.mp hmem with hmem | rfl
    · exact hs.queued lane response hmem
    · obtain ⟨⟨wait, hpc⟩, -⟩ := hmove.sends
      exact hs.called c lane (by rw [hpc]; rfl)
  called c' lane hrotates := by
    rw [State.setCall_mgr, State.apply_config]
    rw [State.setCall_calls] at hrotates
    split_ifs at hrotates
    · rcases hmove.rotates hrotates with hrotates | ⟨-, hlane⟩
      · exact hs.called c lane hrotates
      · exact hlane
    · exact hs.called c' lane (by simpa using hrotates)
  renewing := by simpa using hs.renewing
  dropped hdropped := by
    rw [State.setCall_dropped, State.apply_dropped] at hdropped
    -- A call sends only while the receiver is there, so that nothing follows the drop.
    refine List.eq_nil_iff_forall_not_mem.mpr fun command hmem => ?_
    rcases State.mem_apply_queue.mp hmem with hmem | rfl
    · simp [hs.dropped hdropped] at hmem
    · simp [hmove.alive] at hdropped
  undone c' lane hundo := by
    rw [State.setCall_dropped, State.apply_dropped]
    rw [State.setCall_calls] at hundo
    split_ifs at hundo
    · subst hundo
      exact hmove.undoes
    · exact hs.undone c' lane (by simpa using hundo)

/-- A move of the manager keeps the state well formed. -/
theorem WellFormed.manager {a : Action} (hs : WellFormed s) (hmove : ManagerMove s a t)
    (hconfig : t.mgr.config = s.mgr.config) : WellFormed t where
  numbered := by
    obtain ⟨cause, hmoves⟩ := hmove.lanes
    exact hconfig ▸ hs.numbered.moves hmoves
  queued lane response hmem := hconfig ▸ hs.queued lane response (hmove.queue hmem)
  called c lane hrotates := by
    rw [hconfig]
    rcases hmove.calls c with heq | ⟨result, hanswered⟩
    · exact hs.called c lane (heq ▸ hrotates)
    · simp [hanswered.rotates.2] at hrotates
  renewing id hid := by
    rw [hconfig]
    rcases hmove.renewing hid with hid | ⟨lane, hlane, rfl⟩
    · exact hs.renewing id hid
    · exact hs.numbered.lt hlane
  dropped := hmove.dropped
  undone c lane hundo := by
    rcases hmove.calls c with heq | ⟨result, hanswered⟩
    -- The manager has ended where a call undoes its mark, and moves no more.
    · have := hs.undone c lane (heq ▸ hundo)
      simp [hmove.alive] at this
    · have := hanswered.rotates.2
      simp [hundo, CallPc.rotates] at this

/-- Every step keeps the state well formed. -/
theorem WellFormed.step {a : Action} (hs : WellFormed s) (h : step s a = some t) :
    WellFormed t := by
  rcases step_cases hs h with ⟨c, pc, effect, pc', rfl, hmove, rfl, -⟩ | hmove
  · exact hs.call hmove
  · exact hs.manager hmove (config_eq hs h)

/-- A run leads from a well-formed state to a well-formed one. -/
theorem WellFormed.reaches {G : State → Action → Prop} (hs : WellFormed s)
    (h : Transition.Reaches Torlane.step G s t) : WellFormed t :=
  h.invariant (fun _ _ _ _ hstep hs => hs.step hstep) hs

/-! ## Outstanding rotations -/

/-- A rotation of the lane is in the queue, or a call has marked the lane to send one. -/
def State.Outstanding (s : State) (lane : LaneId) : Prop :=
  (∃ response, .rotate lane response ∈ s.queue) ∨ ∃ c, (s.calls c).marked = some lane

/-- A call that has marked a lane keeps it marked, or it sends the rotation, or it learns that the
receiver has been dropped. -/
theorem CallMove.marked {c : CallId} {pc pc' : CallPc} {effect : Effect} {lane : LaneId}
    (h : CallMove s c pc effect pc') (hmarked : pc.marked = some lane) :
    pc'.marked = some lane ∨ (∃ response, effect = .send (.rotate lane response)) ∨
      s.receiverDropped = true := by
  cases h <;> simp_all [CallPc.marked]

/-- While the receiver is there, a move of a call leaves every outstanding rotation outstanding. -/
theorem State.Outstanding.call {c : CallId} {effect : Effect} {pc' : CallPc} {lane : LaneId}
    (hout : s.Outstanding lane) (halive : s.receiverDropped = false)
    (hmove : CallMove s c (s.calls c) effect pc') :
    ((s.apply effect).setCall c pc').Outstanding lane := by
  rcases hout with ⟨response, hmem⟩ | ⟨c', hmarked⟩
  · exact .inl ⟨response, State.mem_apply_queue.mpr (.inl hmem)⟩
  · by_cases hc : c' = c
    · subst hc
      -- The call that holds the mark is the one that moves.
      rcases hmove.marked hmarked with hmarked | ⟨response, rfl⟩ | hdropped
      · exact .inr ⟨c', by simpa [State.setCall_calls] using hmarked⟩
      · exact .inl ⟨response, State.mem_apply_queue.mpr (.inr rfl)⟩
      · simp [hdropped] at halive
    · exact .inr ⟨c', by simpa [State.setCall_calls, hc] using hmarked⟩

/-- A move of the manager leaves the marks of the calls as they are. -/
theorem ManagerMove.marked {a : Action} (h : ManagerMove s a t) (c : CallId) :
    (t.calls c).marked = (s.calls c).marked := by
  have hmarked {pc : CallPc} (hpc : pc.rotates = none) : pc.marked = none := by
    cases hpc' : pc.marked with
    | none => rfl
    | some lane => simp [CallPc.rotates_of_marked hpc'] at hpc
  rcases h.calls c with heq | ⟨result, hanswered⟩
  · rw [heq]
  -- A call that waits for a response has sent its command, and holds no mark any more.
  · rw [hmarked hanswered.rotates.1, hmarked hanswered.rotates.2]

/-- A move of the manager takes at most the head of the queue off it, or drops the queue. -/
theorem ManagerMove.queue_cases {a : Action} (h : ManagerMove s a t) :
    t.queue = s.queue ∨ (∃ command, s.queue = command :: t.queue ∧ s.pc = .idle) ∨
      t.receiverDropped = true := by
  cases h with
  | exiting => exact .inr (.inr rfl)
  | receiveAssign hpc hqueue => exact .inr (.inl ⟨_, hqueue, hpc⟩)
  | receiveRotate hpc hqueue => exact .inr (.inl ⟨_, hqueue, hpc⟩)
  | receiveRotateError hpc hqueue => exact .inr (.inl ⟨_, hqueue, hpc⟩)
  | receiveRestart hpc hqueue => exact .inr (.inl ⟨_, hqueue, hpc⟩)
  | refuseRestart hpc hqueue => exact .inr (.inl ⟨_, hqueue, hpc⟩)
  | receiveShutdown hpc hqueue => exact .inr (.inl ⟨_, hqueue, hpc⟩)
  | _ => exact .inl rfl

/-- A move of the manager leaves an outstanding rotation outstanding, or it takes the rotation's
command off the queue, or drops the queue. -/
theorem State.Outstanding.manager {a : Action} {lane : LaneId} (hout : s.Outstanding lane)
    (hmove : ManagerMove s a t) :
    t.Outstanding lane ∨ (∃ response, s.queue = .rotate lane response :: t.queue) ∨
      t.receiverDropped = true := by
  rcases hout with ⟨response, hmem⟩ | ⟨c, hmarked⟩
  · rcases hmove.queue_cases with heq | ⟨command, heq, -⟩ | hdropped
    · exact .inl (.inl ⟨response, heq ▸ hmem⟩)
    · rw [heq] at hmem
      -- Only the head of the queue is taken.
      rcases List.mem_cons.mp hmem with rfl | hmem
      · exact .inr (.inl ⟨response, heq⟩)
      · exact .inl (.inl ⟨response, hmem⟩)
    · exact .inr (.inr hdropped)
  · exact .inl (.inr ⟨c, (hmove.marked c).trans hmarked⟩)

end Torlane
