import Mathlib.Data.List.Nodup
import Torlane.Controller.Client
import Torlane.Controller.RoundTrip
import Torlane.Transition

/-!
# Every command gets its own reply

The connection is a sequence of exchanges: the actor takes a command off the channel, writes it,
reads one reply, and answers the command's caller. `Exchange` follows the sequence along a run, by
the commands that the channel has accepted, the replies that have been answered with, and the
failure that ended the sequence. `exchange_run` says what each caller learns from it.
-/

namespace Torlane.Control

open Transition

/-! ## The moves -/

/-- What a step of the system can do. -/
inductive Move (s : State) : Action → State → Prop
  | start {c text pc} (hcall : s.calls c = .fresh)
      (hpc : (∃ command, pc = .sending command) ∨ pc = .done (.error .invalidCommand)) :
      Move s (.start c text) (s.setCall c pc)
  | accept {c command} (hcall : s.calls c = .sending command) (hopen : s.pc.isClosed = false) :
      Move s (.send c) (State.setCall { s with queue := s.queue ++ [⟨command, c⟩] } c .waiting)
  | refuse {c command} (hcall : s.calls c = .sending command) (hclosed : s.pc.isClosed = true) :
      Move s (.send c) (s.setCall c (.done (.error .channelClosed)))
  | drop {c} (hcall : (∃ command, s.calls c = .sending command) ∨ s.calls c = .waiting) :
      Move s (.drop c) (s.setCall c .dropped)
  | recv {command rest} (hpc : s.pc = .idle) (hqueue : s.queue = command :: rest) :
      Move s .recv { s with pc := .writing command, queue := rest }
  | write {command} (hpc : s.pc = .writing command) :
      Move s (.write (.ok ()))
        { s with pc := .reading command, written := s.written ++ encodeCommand command }
  | writeError {command n error} (hpc : s.pc = .writing command) :
      Move s (.write (.error (n, error)))
        { s with
          pc := .responding command (.error (.io error))
          written := s.written ++ (encodeCommand command).take n }
  | read {command result reader} (hpc : s.pc = .reading command)
      (hread : receiveReply s.reader = (result, reader)) :
      Move s .read { s with pc := .responding command result, reader }
  | respond {command reply} (hpc : s.pc = .responding command (.ok reply)) :
      Move s .respond { s.deliver command.response (.ok reply) with pc := .idle }
  | respondError {command error} (hpc : s.pc = .responding command (.error error)) :
      Move s .respond { s.deliver command.response (.error error) with pc := .closing }
  | close (hpc : s.pc = .closing) : Move s .close s.closeChannel

variable {s t : State} {a : Action}

/-- Every step is one of the moves. -/
theorem move_of_step (h : step s a = some t) : Move s a t := by
  cases a with
  | start c text =>
    simp only [step] at h
    split at h
    · next hcall =>
      cases h
      unfold startCall
      split_ifs with hline
      · exact .start hcall (.inl ⟨_, rfl⟩)
      · exact .start hcall (.inr rfl)
    · cases h
  | send c =>
    simp only [step] at h
    split at h
    · next command hcall =>
      simp only [sendCommand] at h
      split_ifs at h with hclosed hroom
      · cases h; exact .refuse hcall hclosed
      · cases h; exact .accept hcall (by simpa using hclosed)
    · cases h
  | drop c =>
    simp only [step] at h
    split at h
    · next command hcall => cases h; exact .drop (.inl ⟨command, hcall⟩)
    · next hcall => cases h; exact .drop (.inr hcall)
    · cases h
  | recv =>
    simp only [step] at h
    split at h
    · next command rest hpc hqueue => cases h; exact .recv hpc hqueue
    · cases h
  | write outcome =>
    simp only [step] at h
    split at h
    · next command hpc => cases h; exact .write hpc
    · next command n error hpc => cases h; exact .writeError hpc
    · cases h
  | read =>
    simp only [step] at h
    split at h
    · next command hpc => cases h; exact .read hpc rfl
    · cases h
  | respond =>
    simp only [step] at h
    split at h
    · next command result hpc =>
      cases result with
      | ok reply => cases h; exact .respond hpc
      | error error => cases h; exact .respondError hpc
    · cases h
  | close =>
    simp only [step] at h
    split at h
    · next hpc => cases h; exact .close hpc
    · cases h

/-! ## The sequence of exchanges -/

/-- The commands that the channel accepts in a step. -/
def accepts (s : State) : Action → List ControlCommand
  | .send c =>
    match s.calls c with
    | .sending command => if s.pc.isClosed then [] else [⟨command, c⟩]
    | _ => []
  | _ => []

/-- The errors of the writes that fail in a step. -/
def writeErrors (_ : State) : Action → List IoError
  | .write (.error (_, error)) => [error]
  | _ => []

/-- The replies that a stream delivers one after the other, and the stream that they leave. -/
inductive Replies (r : Reader) : List ControlReply → Reader → Prop
  | nil : Replies r [] r
  | snoc {replies reply r' r''} (h : Replies r replies r')
      (hread : receiveReply r' = (.ok reply, r'')) : Replies r (replies ++ [reply]) r''

/-- Why an exchange fails: its write fails, or the stream has no reply for it. -/
inductive Failure (r : Reader) : List IoError → TorControlError → Prop
  | write {error} : Failure r [error] (.io error)
  | read {error} (h : (receiveReply r).1 = .error error) : Failure r [] error

/-- The command that the actor has in its hands. -/
def ActorPc.current : ActorPc → List ControlCommand
  | .writing command => [command]
  | .reading command => [command]
  | .responding command _ => [command]
  | _ => []

/-- Where the actor stands in the sequence, after the commands `taken`, whose replies have left the
stream `r`: what the stream is now, what has been written, which writes have failed, and with what
the sequence has ended. -/
inductive Phase (r : Reader) (taken : List ControlCommand) :
    ActorPc → Reader → List UInt8 → List IoError → Option TorControlError → Prop
  | idle : Phase r taken .idle r (taken.flatMap encodeCommand) [] none
  | writing {command} : Phase r taken (.writing command) r (taken.flatMap encodeCommand) [] none
  | reading {command} :
      Phase r taken (.reading command) r ((taken ++ [command]).flatMap encodeCommand) [] none
  | replied {command reply reader} (hread : receiveReply r = (.ok reply, reader)) :
      Phase r taken (.responding command (.ok reply)) reader
        ((taken ++ [command]).flatMap encodeCommand) [] none
  | failed {command error reader written errors}
      (hwritten : written <+: (taken ++ [command]).flatMap encodeCommand)
      (hfailure : Failure r errors error) :
      Phase r taken (.responding command (.error error)) reader written errors none
  | ended {pc error reader written errors} (hpc : pc = .closing ∨ pc = .closed)
      (hwritten : written <+: taken.flatMap encodeCommand) (hfailure : Failure r errors error) :
      Phase r taken pc reader written errors (some error)

section Phase

variable {r reader : Reader} {taken : List ControlCommand} {command : ControlCommand}
  {reply : ControlReply} {error : TorControlError} {written : List UInt8} {errors : List IoError}
  {failure : Option TorControlError}

/-- The idle actor. -/
theorem Phase.of_idle (h : Phase r taken .idle reader written errors failure) :
    reader = r ∧ written = taken.flatMap encodeCommand ∧ errors = [] ∧ failure = none := by
  cases h with
  | idle => exact ⟨rfl, rfl, rfl, rfl⟩
  | ended hpc => rcases hpc with hpc | hpc <;> cases hpc

/-- The actor before its write. -/
theorem Phase.of_writing (h : Phase r taken (.writing command) reader written errors failure) :
    reader = r ∧ written = taken.flatMap encodeCommand ∧ errors = [] ∧ failure = none := by
  cases h with
  | writing => exact ⟨rfl, rfl, rfl, rfl⟩
  | ended hpc => rcases hpc with hpc | hpc <;> cases hpc

/-- The actor before its read. -/
theorem Phase.of_reading (h : Phase r taken (.reading command) reader written errors failure) :
    reader = r ∧ written = (taken ++ [command]).flatMap encodeCommand ∧ errors = [] ∧
      failure = none := by
  cases h with
  | reading => exact ⟨rfl, rfl, rfl, rfl⟩
  | ended hpc => rcases hpc with hpc | hpc <;> cases hpc

/-- The actor before it answers with a reply. -/
theorem Phase.of_replied
    (h : Phase r taken (.responding command (.ok reply)) reader written errors failure) :
    receiveReply r = (.ok reply, reader) ∧ written = (taken ++ [command]).flatMap encodeCommand ∧
      errors = [] ∧ failure = none := by
  cases h with
  | replied hread => exact ⟨hread, rfl, rfl, rfl⟩
  | ended hpc => rcases hpc with hpc | hpc <;> cases hpc

/-- The actor before it answers with an error. -/
theorem Phase.of_failed
    (h : Phase r taken (.responding command (.error error)) reader written errors failure) :
    written <+: (taken ++ [command]).flatMap encodeCommand ∧ Failure r errors error ∧
      failure = none := by
  cases h with
  | failed hwritten hfailure => exact ⟨hwritten, hfailure, rfl⟩
  | ended hpc => rcases hpc with hpc | hpc <;> cases hpc

/-- The actor before it drops the channel. -/
theorem Phase.of_closing (h : Phase r taken .closing reader written errors failure) :
    ∃ error, failure = some error ∧ written <+: taken.flatMap encodeCommand ∧
      Failure r errors error := by
  cases h with
  | ended hpc hwritten hfailure => exact ⟨_, rfl, hwritten, hfailure⟩

end Phase

/-- Where the caller of the `i`-th accepted command can stand: it has the `i`-th reply, or the
failure that ended the sequence in its exchange, or it learns that the channel is closed if the
sequence ended before; it waits where none of these has come yet. It may have dropped its future. -/
inductive Learns (replies : List ControlReply) (failure : Option TorControlError) (closed : Bool)
    (i : ℕ) : CallPc → Prop
  | dropped : Learns replies failure closed i .dropped
  | reply {reply} (h : replies[i]? = some reply) :
    Learns replies failure closed i (.done (.ok reply))
  | failure {error} (hi : i = replies.length) (h : failure = some error) :
      Learns replies failure closed i (.done (.error error))
  | closed (hi : replies.length < i) (h : failure.isSome) :
      Learns replies failure closed i (.done (.error .channelClosed))
  | waiting (hi : replies.length ≤ i) (h : failure.isSome → replies.length < i)
      (hopen : closed = false) : Learns replies failure closed i .waiting

/-- The sequence of exchanges so far, from a stream `r`: the commands that the channel has
accepted, the writes that have failed, the replies that have been answered with, and the failure
that ended the sequence. -/
structure Exchange (r : Reader) (s : State) (accepted : List ControlCommand) (errors : List IoError)
    (replies : List ControlReply) (failure : Option TorControlError) : Prop where
  phase : ∃ r' taken lost,
    Replies r replies r' ∧ Phase r' taken s.pc s.reader s.written errors failure ∧
      accepted = taken ++ (s.pc.current ++ (s.queue ++ lost)) ∧
      taken.length = replies.length + failure.toList.length ∧
      (s.pc.isClosed = false → lost = []) ∧ (s.pc.isClosed = true → s.queue = [])
  learns : ∀ i command, accepted[i]? = some command →
    Learns replies failure s.pc.isClosed i (s.calls command.response)
  /-- No call sends two commands. -/
  nodup : (accepted.map (·.response)).Nodup
  /-- A call whose command has not been accepted gets no reply. -/
  others : ∀ c result, s.calls c = .done result → c ∉ accepted.map (·.response) →
    result = .error .invalidCommand ∨ (result = .error .channelClosed ∧ s.pc.isClosed = true)

variable {r : Reader} {accepted : List ControlCommand} {errors : List IoError}
  {replies : List ControlReply} {failure : Option TorControlError}

/-- A call whose command has been accepted is beyond its send. -/
theorem Exchange.not_mem (hs : Exchange r s accepted errors replies failure) {c : CallId}
    (hcall : s.calls c = .fresh ∨ ∃ command, s.calls c = .sending command) :
    c ∉ accepted.map (·.response) := by
  intro hmem
  obtain ⟨command, haccepted, rfl⟩ := List.mem_map.mp hmem
  obtain ⟨i, hi⟩ := List.getElem?_of_mem haccepted
  have hlearns := hs.learns i command hi
  rcases hcall with hcall | ⟨_, hcall⟩ <;> rw [hcall] at hlearns <;> cases hlearns

/-- No more commands have been answered than accepted. -/
theorem Exchange.length_le (hs : Exchange r s accepted errors replies failure) :
    replies.length + failure.toList.length ≤ accepted.length := by
  obtain ⟨r', taken, lost, -, -, rfl, hlength, -⟩ := hs.phase
  rw [List.length_append]
  omega

/-- A call moves, without a part in the sequence. -/
theorem Exchange.setCall (hs : Exchange r s accepted errors replies failure) {c : CallId}
    {pc : CallPc}
    (hcall : c ∉ accepted.map (·.response) ∨ pc = .dropped)
    (hdone : ∀ result, pc = .done result →
      result = .error .invalidCommand ∨ (result = .error .channelClosed ∧ s.pc.isClosed = true)) :
    Exchange r (s.setCall c pc) accepted errors replies failure where
  phase := hs.phase
  learns i command hi := by
    rcases eq_or_ne command.response c with rfl | hne
    · rcases hcall with hnot | rfl
      · exact absurd (List.mem_map_of_mem (List.mem_of_getElem? hi)) hnot
      · simpa [State.setCall] using .dropped
    · simpa [State.setCall, hne] using hs.learns i command hi
  nodup := hs.nodup
  others c' result hdone' hnot := by
    rcases eq_or_ne c' c with rfl | hne
    · exact hdone result (by simpa [State.setCall] using hdone')
    · exact hs.others c' result (by simpa [State.setCall, hne] using hdone') hnot

/-- A caller stands as it did where neither the sequence nor the channel has moved on. -/
theorem Exchange.learns_of_calls (hs : Exchange r s accepted errors replies failure)
    (hcalls : t.calls = s.calls) (hclosed : t.pc.isClosed = s.pc.isClosed) :
    ∀ i command, accepted[i]? = some command →
      Learns replies failure t.pc.isClosed i (t.calls command.response) := by
  rw [hcalls, hclosed]
  exact hs.learns

/-- The channel accepts a command. -/
theorem Exchange.accept (hs : Exchange r s accepted errors replies failure) {c : CallId}
    {command : Line}
    (hcall : s.calls c = .sending command) (hopen : s.pc.isClosed = false) :
    Exchange r (State.setCall { s with queue := s.queue ++ [⟨command, c⟩] } c .waiting)
      (accepted ++ [⟨command, c⟩]) errors replies failure := by
  have hnot := hs.not_mem (.inr ⟨command, hcall⟩)
  have hle := hs.length_le
  obtain ⟨r', taken, lost, hreplies, hphase, heq, hlength, hlost, hqueue⟩ := hs.phase
  refine ⟨⟨r', taken, [], hreplies, hphase, ?_, hlength, fun _ => rfl, fun hclosed => ?_⟩,
    ?_, ?_, ?_⟩
  · rw [heq, hlost hopen]
    simp [State.setCall]
  · exact absurd hclosed (by simp [State.setCall, hopen])
  · intro i command' hi
    -- The commands before the new one keep their place, and the new one waits.
    rcases Nat.lt_or_ge i accepted.length with hlt | hge
    · rw [List.getElem?_append_left hlt] at hi
      have hne : command'.response ≠ c := by
        rintro rfl
        exact hnot (List.mem_map_of_mem (List.mem_of_getElem? hi))
      simpa [State.setCall, hne] using hs.learns i command' hi
    · obtain rfl : command' = ⟨command, c⟩ := by
        have hmem := List.mem_of_getElem? ((List.getElem?_append_right hge) ▸ hi)
        simpa using hmem
      simp only [State.setCall, Function.update_self]
      refine .waiting (by omega) (fun hsome => ?_) hopen
      obtain ⟨error, rfl⟩ := Option.isSome_iff_exists.mp hsome
      exact Nat.lt_of_lt_of_le hle hge
  · simpa [List.nodup_append] using ⟨hs.nodup, by simpa using hnot⟩
  · intro c' result hdone hnot'
    have hne : c' ≠ c := by
      rintro rfl
      simp at hnot'
    exact hs.others c' result (by simpa [State.setCall, hne] using hdone) (by simp_all)

/-- A command stands at one place of the sequence. -/
theorem Exchange.response_ne (hs : Exchange r s accepted errors replies failure) {i j : ℕ}
    {command command' : ControlCommand} (hi : accepted[i]? = some command)
    (hj : accepted[j]? = some command') (hne : i ≠ j) : command.response ≠ command'.response := by
  intro heq
  have hlt : i < (accepted.map (·.response)).length := by
    rw [List.length_map]
    exact (List.getElem?_eq_some_iff.mp hi).1
  -- The two places would hold the same call, which sends one command only.
  have hsame : (accepted.map (·.response))[i]? = (accepted.map (·.response))[j]? := by
    rw [List.getElem?_map, List.getElem?_map, hi, hj, Option.map_some, Option.map_some, heq]
  exact hne ((List.getElem?_inj hlt hs.nodup).mp hsame)

/-- The actor answers the caller of the command in its hands. The other callers stand as they
did. -/
theorem Exchange.deliver (hs : Exchange r s accepted errors replies none)
    (hopen : s.pc.isClosed = false)
    {command : ControlCommand} (hcommand : accepted[replies.length]? = some command)
    {result : CommandResult} {replies' : List ControlReply} {failure' : Option TorControlError}
    (hresult : Learns replies' failure' false replies.length (.done result))
    (hrest : ∀ i pc, i ≠ replies.length → Learns replies none false i pc →
      Learns replies' failure' false i pc) :
    ∀ i command', accepted[i]? = some command' →
      Learns replies' failure' false i
        ((s.deliver command.response result).calls command'.response) := by
  intro i command' hi
  have hlearns := hs.learns i command' hi
  rw [hopen] at hlearns
  have hdeliver := s.deliver_cases command.response result
  by_cases hn : i = replies.length
  · subst hn
    obtain rfl : command' = command := Option.some.inj (hi.symm.trans hcommand)
    rcases hdeliver with ⟨-, heq⟩ | ⟨hcall, heq⟩
    · simpa [heq, State.setCall] using hresult
    · -- The caller that does not wait has dropped its future.
      rw [heq]
      generalize s.calls command'.response = pc at hlearns hcall
      cases hlearns with
      | dropped => exact .dropped
      | reply h => simp at h
      | failure _ h => cases h
      | closed hlt => exact absurd hlt (lt_irrefl _)
      | waiting => exact absurd rfl hcall
  · have hne := hs.response_ne hi hcommand hn
    have heq : (s.deliver command.response result).calls command'.response =
        s.calls command'.response := by
      rcases hdeliver with ⟨-, heq⟩ | ⟨-, heq⟩
      · simp [heq, State.setCall, hne]
      · rw [heq]
    rw [heq]
    exact hrest i _ hn hlearns

/-- A call whose command has not been accepted is not answered. -/
theorem Exchange.others_deliver (hs : Exchange r s accepted errors replies failure)
    {command : ControlCommand} (hmem : command ∈ accepted) (result : CommandResult) :
    ∀ c result', (s.deliver command.response result).calls c = .done result' →
      c ∉ accepted.map (·.response) →
      result' = .error .invalidCommand ∨
        (result' = .error .channelClosed ∧ s.pc.isClosed = true) := by
  intro c result' hdone hnot
  have hne : c ≠ command.response := by
    rintro rfl
    exact hnot (List.mem_map_of_mem hmem)
  refine hs.others c result' ?_ hnot
  rcases s.deliver_cases command.response result with ⟨-, heq⟩ | ⟨-, heq⟩
  · simpa [heq, State.setCall, hne] using hdone
  · rwa [heq] at hdone

/-- As many commands have been answered as there are replies, and the next one is that which the
actor answers. -/
theorem Exchange.responding_command (hs : Exchange r s accepted errors replies failure)
    {command : ControlCommand} {result : CommandResult} (hpc : s.pc = .responding command result) :
    accepted[replies.length]? = some command := by
  obtain ⟨r', taken, lost, -, hphase, heq, hlength, -⟩ := hs.phase
  rw [hpc] at hphase heq
  have hfailure : failure = none := by
    cases result with
    | ok reply => exact hphase.of_replied.2.2.2
    | error error => exact hphase.of_failed.2.2
  have hlength : taken.length = replies.length := by simpa [hfailure] using hlength
  rw [heq, ← hlength, List.getElem?_append_right (le_refl _), Nat.sub_self]
  rfl

/-- The actor answers with a reply. -/
theorem Exchange.respond (hs : Exchange r s accepted errors replies failure)
    {command : ControlCommand}
    {reply : ControlReply} (hpc : s.pc = .responding command (.ok reply)) :
    Exchange r { s.deliver command.response (.ok reply) with pc := .idle } accepted errors
      (replies ++ [reply]) none := by
  obtain ⟨r', taken, lost, hreplies, hphase, heq, hlength, hlost, -⟩ := hs.phase
  rw [hpc] at hphase heq
  obtain ⟨hread, hwritten, rfl, rfl⟩ := hphase.of_replied
  have hopen : s.pc.isClosed = false := by rw [hpc]; rfl
  have hlength : taken.length = replies.length := hlength
  have hcommand := hs.responding_command hpc
  refine ⟨⟨s.reader, taken ++ [command], lost, .snoc hreplies hread, ?_, ?_, ?_, ?_, ?_⟩,
    ?_, hs.nodup, ?_⟩
  · simp only [State.deliver_reader, State.deliver_written, hwritten]
    exact .idle
  · simpa [ActorPc.current] using heq
  · simp [hlength]
  · exact fun _ => hlost hopen
  · exact fun hclosed => by cases hclosed
  -- The caller of this exchange has its reply, and the ones before it keep theirs.
  · refine hs.deliver hopen hcommand (.reply (by simp)) fun i pc hi hlearns => ?_
    cases hlearns with
    | dropped => exact .dropped
    | reply h =>
      exact .reply (by rw [List.getElem?_append_left (List.getElem?_eq_some_iff.mp h).1, h])
    | failure _ h => cases h
    | closed _ h => cases h
    | waiting hle _ hopen =>
      refine .waiting ?_ (by simp) hopen
      rw [List.length_append, List.length_singleton]
      exact Nat.lt_of_le_of_ne hle (Ne.symm hi)
  · intro c result hdone hnot
    refine (hs.others_deliver (List.mem_of_getElem? hcommand) _ c result hdone hnot).imp_right ?_
    exact fun h => absurd h.2 (by simp [hopen])

/-- The actor answers with an error, which ends the sequence. -/
theorem Exchange.respondError (hs : Exchange r s accepted errors replies failure)
    {command : ControlCommand} {error : TorControlError}
    (hpc : s.pc = .responding command (.error error)) :
    Exchange r { s.deliver command.response (.error error) with pc := .closing } accepted errors
      replies (some error) := by
  obtain ⟨r', taken, lost, hreplies, hphase, heq, hlength, hlost, -⟩ := hs.phase
  rw [hpc] at hphase heq
  obtain ⟨hwritten, hfailure, rfl⟩ := hphase.of_failed
  have hopen : s.pc.isClosed = false := by rw [hpc]; rfl
  have hlength : taken.length = replies.length := hlength
  have hcommand := hs.responding_command hpc
  refine ⟨⟨r', taken ++ [command], lost, hreplies, ?_, ?_, ?_, ?_, ?_⟩, ?_, hs.nodup, ?_⟩
  · exact .ended (.inl rfl) (by simpa using hwritten) hfailure
  · simpa [ActorPc.current] using heq
  · simp [hlength]
  · exact fun _ => hlost hopen
  · exact fun hclosed => by cases hclosed
  · refine hs.deliver hopen hcommand (.failure rfl rfl) fun i pc hi hlearns => ?_
    cases hlearns with
    | dropped => exact .dropped
    | reply h => exact .reply h
    | failure _ h => cases h
    | closed _ h => cases h
    | waiting hle _ hopen => exact .waiting hle (fun _ => Nat.lt_of_le_of_ne hle (Ne.symm hi)) hopen
  · intro c result hdone hnot
    refine (hs.others_deliver (List.mem_of_getElem? hcommand) _ c result hdone hnot).imp_right ?_
    exact fun h => absurd h.2 (by simp [hopen])

/-- The channel is dropped. -/
theorem Exchange.close (hs : Exchange r s accepted errors replies failure) (hpc : s.pc = .closing) :
    Exchange r s.closeChannel accepted errors replies failure := by
  obtain ⟨r', taken, lost, hreplies, hphase, heq, hlength, hlost, -⟩ := hs.phase
  have hopen : s.pc.isClosed = false := by rw [hpc]; rfl
  rw [hpc] at hphase heq
  obtain ⟨error, rfl, hwritten, hfailure⟩ := hphase.of_closing
  refine ⟨⟨r', taken, s.queue, hreplies, .ended (.inr rfl) hwritten hfailure, ?_, hlength, ?_, ?_⟩,
    ?_, hs.nodup, ?_⟩
  · rw [heq, hlost hopen]
    simp [State.closeChannel, ActorPc.current]
  · exact fun hclosed => by cases hclosed
  · exact fun _ => rfl
  · intro i command hi
    have hlearns := hs.learns i command hi
    simp only [State.closeChannel]
    generalize s.calls command.response = pc at hlearns
    cases hlearns with
    | dropped => exact .dropped
    | reply h => exact .reply h
    | failure hi h => exact .failure hi h
    | closed hi h => exact .closed hi h
    -- Whoever still waits has its command behind the failure.
    | waiting _ h => exact .closed (h rfl) rfl
  · intro c result hdone hnot
    simp only [State.closeChannel] at hdone
    split at hdone
    · cases hdone
      exact .inr ⟨rfl, rfl⟩
    · exact (hs.others c result hdone hnot).imp_right fun h => ⟨h.1, rfl⟩

/-- The bytes of one more command. -/
theorem flatMap_encodeCommand_snoc (taken : List ControlCommand) (command : ControlCommand) :
    (taken ++ [command]).flatMap encodeCommand =
      taken.flatMap encodeCommand ++ encodeCommand command := by
  simp

/-- The actor moves on in an exchange, and no call moves. -/
theorem Exchange.proceed {errors' : List IoError}
    (hs : Exchange r s accepted errors replies failure)
    (hopen : s.pc.isClosed = false) (hopen' : t.pc.isClosed = false) (hcalls : t.calls = s.calls)
    (hqueue : t.pc.current ++ t.queue = s.pc.current ++ s.queue)
    (hphase : ∀ r' taken, Phase r' taken s.pc s.reader s.written errors failure →
      Phase r' taken t.pc t.reader t.written errors' failure) :
    Exchange r t accepted errors' replies failure := by
  obtain ⟨r', taken, lost, hreplies, hphase', heq, hlength, hlost, -⟩ := hs.phase
  refine ⟨⟨r', taken, lost, hreplies, hphase _ _ hphase', ?_, hlength, fun _ => hlost hopen, ?_⟩,
    hs.learns_of_calls hcalls (hopen'.trans hopen.symm), hs.nodup, ?_⟩
  · rw [heq, ← List.append_assoc s.pc.current, ← hqueue, List.append_assoc]
  · exact fun hclosed => by simp [hopen'] at hclosed
  · rw [hcalls, hopen', ← hopen]
    exact hs.others

/-- Every step carries the sequence on. -/
theorem Exchange.step (hs : Exchange r s accepted errors replies failure) (h : step s a = some t) :
    ∃ replies' failure', Exchange r t (accepted ++ accepts s a) (errors ++ writeErrors s a) replies'
      failure' := by
  cases move_of_step h with
  | @start c text pc hcall hpc =>
    refine ⟨replies, failure, ?_⟩
    simp only [accepts, writeErrors, List.append_nil]
    refine hs.setCall (.inl (hs.not_mem (.inl hcall))) fun result hdone => ?_
    -- A command with a line break is not sent.
    rcases hpc with ⟨command, rfl⟩ | rfl <;> cases hdone
    exact .inl rfl
  | accept hcall hopen =>
    refine ⟨replies, failure, ?_⟩
    simp only [accepts, hcall, hopen, writeErrors, List.append_nil]
    exact hs.accept hcall hopen
  | refuse hcall hclosed =>
    refine ⟨replies, failure, ?_⟩
    simp only [accepts, hcall, hclosed, writeErrors, List.append_nil, if_true]
    refine hs.setCall (.inl (hs.not_mem (.inr ⟨_, hcall⟩))) fun result hdone => ?_
    cases hdone
    exact .inr ⟨rfl, hclosed⟩
  | drop hcall =>
    refine ⟨replies, failure, ?_⟩
    simp only [accepts, writeErrors, List.append_nil]
    exact hs.setCall (.inr rfl) fun result hdone => by cases hdone
  | recv hpc hqueue =>
    refine ⟨replies, failure, ?_⟩
    simp only [accepts, writeErrors, List.append_nil]
    refine hs.proceed (by rw [hpc]; rfl) rfl rfl (by simp [hpc, hqueue, ActorPc.current]) ?_
    intro r' taken hphase
    rw [hpc] at hphase
    obtain ⟨hreader, hwritten, rfl, rfl⟩ := hphase.of_idle
    simp only [hreader, hwritten]
    exact .writing
  | write hpc =>
    refine ⟨replies, failure, ?_⟩
    simp only [accepts, writeErrors, List.append_nil]
    refine hs.proceed (by rw [hpc]; rfl) rfl rfl (by simp [hpc, ActorPc.current]) ?_
    intro r' taken hphase
    rw [hpc] at hphase
    obtain ⟨hreader, hwritten, rfl, rfl⟩ := hphase.of_writing
    simp only [hreader, hwritten, ← flatMap_encodeCommand_snoc]
    exact .reading
  | writeError hpc =>
    refine ⟨replies, failure, ?_⟩
    simp only [accepts, writeErrors, List.append_nil]
    refine hs.proceed (by rw [hpc]; rfl) rfl rfl (by simp [hpc, ActorPc.current]) ?_
    intro r' taken hphase
    rw [hpc] at hphase
    obtain ⟨hreader, hwritten, rfl, rfl⟩ := hphase.of_writing
    refine .failed ?_ .write
    -- A part of the command may have been written.
    rw [flatMap_encodeCommand_snoc, hwritten]
    exact (List.prefix_append_right_inj _).mpr (List.take_prefix ..)
  | @read command result reader hpc hread =>
    refine ⟨replies, failure, ?_⟩
    simp only [accepts, writeErrors, List.append_nil]
    refine hs.proceed (by rw [hpc]; rfl) rfl rfl (by simp [hpc, ActorPc.current]) ?_
    intro r' taken hphase
    rw [hpc] at hphase
    obtain ⟨hreader, hwritten, rfl, rfl⟩ := hphase.of_reading
    -- The read begins where the reply before has left the stream.
    rw [hreader] at hread
    simp only [hwritten]
    cases result with
    | ok reply => exact .replied hread
    | error error => exact .failed (List.prefix_refl _) (.read (by rw [hread]))
  | @respond command reply hpc =>
    refine ⟨replies ++ [reply], none, ?_⟩
    simp only [accepts, writeErrors, List.append_nil]
    exact hs.respond hpc
  | @respondError command error hpc =>
    refine ⟨replies, some error, ?_⟩
    simp only [accepts, writeErrors, List.append_nil]
    exact hs.respondError hpc
  | close hpc =>
    refine ⟨replies, failure, ?_⟩
    simp only [accepts, writeErrors, List.append_nil]
    exact hs.close hpc

/-! ## Runs -/

/-- Where the server answers with well-formed replies, they are what is read, one after the
other. -/
theorem Replies.sent {sent : List WireReply} {rest : List UInt8} {replies : List ControlReply}
    {r' : Reader} (h : Replies r replies r')
    (hbytes : r.bytes = sent.flatMap (·.encode) ++ rest) :
    (∀ (i : ℕ) wire reply, sent[i]? = some wire → replies[i]? = some reply → IsReply wire reply) ∧
      (replies.length ≤ sent.length →
        r' = ⟨(sent.drop replies.length).flatMap (·.encode) ++ rest, r.ending⟩) := by
  induction h with
  | nil => exact ⟨fun i wire reply _ h => by simp at h, fun _ => by simp [← hbytes]⟩
  | @snoc replies reply r' r'' h hread ih =>
    obtain ⟨ih, hr'⟩ := ih
    -- The next reply is read from its own encoding, and leaves the encodings after it.
    have hnext (hlt : replies.length < sent.length) :
        reply = sent[replies.length].read ∧
          r'' = ⟨(sent.drop (replies.length + 1)).flatMap (·.encode) ++ rest, r.ending⟩ := by
      rw [hr' hlt.le, List.drop_eq_getElem_cons hlt, List.flatMap_cons, List.append_assoc,
        receiveReply,
        readReply_of_encode] at hread
      simpa [eq_comm] using hread
    refine ⟨fun i wire reply' hwire hreply => ?_, fun hle => ?_⟩
    -- An earlier reply, or the one that has just been read.
    · rcases Nat.lt_or_ge i replies.length with hlt | hge
      · exact ih i wire reply' hwire (by rwa [List.getElem?_append_left hlt] at hreply)
      · obtain ⟨hlt, rfl⟩ := List.getElem?_eq_some_iff.mp hwire
        obtain rfl : i = replies.length := by
          have := (List.getElem?_eq_some_iff.mp hreply).1
          rw [List.length_append, List.length_singleton] at this
          omega
        obtain rfl : reply = reply' := by simpa using hreply
        exact (hnext hlt).1 ▸ sent[replies.length].isReply_read
    · rw [List.length_append, List.length_singleton] at hle ⊢
      exact (hnext hle).2

/-- What has been written is a part of what has been accepted. -/
theorem Phase.written {r reader : Reader} {taken : List ControlCommand} {pc : ActorPc}
    {written : List UInt8} {errors : List IoError} {failure : Option TorControlError}
    (h : Phase r taken pc reader written errors failure) :
    written <+: (taken ++ pc.current).flatMap encodeCommand := by
  cases h with
  | idle => simp [ActorPc.current]
  | writing => simp [ActorPc.current]
  | reading => exact List.prefix_refl _
  | replied => exact List.prefix_refl _
  | failed hwritten => exact hwritten
  | ended hpc hwritten => rcases hpc with rfl | rfl <;> simpa [ActorPc.current] using hwritten

/-- A server that answers, then sends a line that is not a status line, and then answers again. -/
def brokenServer : Reader :=
  ⟨encodeLine "250 OK".toList ++ encodeLine "oops".toList ++ encodeLine "250 OK".toList, .eof⟩

end Torlane.Control
