import Mathlib.Logic.Function.Basic
import Torlane.Controller.Codec

/-!
# The control client

`ControlClient::command` and `run_actor` of `src/tor/controller/client.rs`, as an interleaved
system: any number of calls on clones of one client, and the actor that owns the connection. Every
channel operation is one step, and so is every exchange of the actor with the connection, a write
of a whole command or a read of a whole reply.

What the server sends is the stream of the reader. It may have been chosen after seeing the
commands: a run only says what the whole stream turned out to be. A write may fail after any
number of bytes. A caller may drop its future at any time, before or after its command is in the
channel.
-/

namespace Torlane.Control

/-- One call of `command`, by one task. -/
abbrev CallId := ℕ

/-- `ControlCommand`. The response sender is the call that waits for the response. -/
structure ControlCommand where
  command : Line
  response : CallId

/-- The result of a command. -/
abbrev CommandResult := Except TorControlError ControlReply

/-- Where a call stands. -/
inductive CallPc where
  | fresh
  | sending (command : Line)
  | waiting
  | dropped
  | done (result : CommandResult)

/-- Where the actor stands. -/
inductive ActorPc where
  | idle
  | writing (command : ControlCommand)
  | reading (command : ControlCommand)
  | responding (command : ControlCommand) (result : CommandResult)
  | closing
  | closed

/-- The actor has ended, and the command channel's receiver is gone. -/
def ActorPc.isClosed : ActorPc → Bool
  | .closed => true
  | _ => false

/-- The whole system. -/
structure State where
  calls : CallId → CallPc
  /-- The command channel. -/
  queue : List ControlCommand
  pc : ActorPc
  reader : Reader
  /-- The bytes that have been written to the connection. -/
  written : List UInt8

/-- `COMMAND_BUFFER`. -/
def commandBuffer : ℕ := 32

/-- The bytes of a command: its text as one line, and the line end. -/
def encodeCommand (command : ControlCommand) : List UInt8 :=
  Text.encodeUtf8 command.command ++ [13, 10]

/-- The actor's read: the end of the stream is an error. -/
def receiveReply (r : Reader) : CommandResult × Reader :=
  match readReply r with
  | (.error error, r) => (.error error, r)
  | (.ok none, r) => (.error .channelClosed, r)
  | (.ok (some reply), r) => (.ok reply, r)

namespace State

/-- The call moves to another program counter. -/
def setCall (s : State) (c : CallId) (pc : CallPc) : State :=
  { s with calls := Function.update s.calls c pc }

/-- The response reaches the caller, unless it has dropped its future. -/
def deliver (s : State) (c : CallId) (result : CommandResult) : State :=
  match s.calls c with
  | .waiting => s.setCall c (.done result)
  | _ => s

/-- A delivery moves at most the call that waits for it. -/
theorem deliver_cases (s : State) (c : CallId) (result : CommandResult) :
    (s.calls c = .waiting ∧ s.deliver c result = s.setCall c (.done result)) ∨
      (s.calls c ≠ .waiting ∧ s.deliver c result = s) := by
  cases hcall : s.calls c <;> simp [deliver, hcall]

@[simp] theorem deliver_reader (s : State) (c : CallId) (result : CommandResult) :
    (s.deliver c result).reader = s.reader := by
  unfold deliver
  split <;> rfl

@[simp] theorem deliver_written (s : State) (c : CallId) (result : CommandResult) :
    (s.deliver c result).written = s.written := by
  unfold deliver
  split <;> rfl

@[simp] theorem deliver_queue (s : State) (c : CallId) (result : CommandResult) :
    (s.deliver c result).queue = s.queue := by
  unfold deliver
  split <;> rfl

/-- The channel is dropped: whoever waits for a response learns that it is closed. -/
def closeChannel (s : State) : State :=
  { s with
    queue := []
    pc := .closed
    calls := fun c =>
      match s.calls c with
      -- Its response sender is dropped with the queue.
      | .waiting => .done (.error .channelClosed)
      | pc => pc }

end State

/-- The steps of the system. -/
inductive Action where
  | start (c : CallId) (command : Text)
  | send (c : CallId)
  | drop (c : CallId)
  | recv
  | write (outcome : Except (ℕ × IoError) Unit)
  | read
  | respond
  | close

/-- The first step of a call: a command with a line break is refused. -/
def startCall (s : State) (c : CallId) (command : Text) : State :=
  if h : IsLine command then s.setCall c (.sending ⟨command, h⟩)
  else s.setCall c (.done (.error .invalidCommand))

/-- The channel takes a command while it has room, and refuses it once the actor has dropped it. -/
def sendCommand (s : State) (c : CallId) (command : Line) : Option State :=
  if s.pc.isClosed then some (s.setCall c (.done (.error .channelClosed)))
  else if s.queue.length < commandBuffer then
    some (State.setCall { s with queue := s.queue ++ [⟨command, c⟩] } c .waiting)
  else none

/-- The system's step function. -/
def step (s : State) : Action → Option State
  | .start c command =>
    match s.calls c with
    | .fresh => some (startCall s c command)
    | _ => none
  | .send c =>
    match s.calls c with
    | .sending command => sendCommand s c command
    | _ => none
  -- A command that is in the channel stays there after its caller has gone.
  | .drop c =>
    match s.calls c with
    | .sending _ => some (s.setCall c .dropped)
    | .waiting => some (s.setCall c .dropped)
    | _ => none
  | .recv =>
    match s.pc, s.queue with
    | .idle, command :: rest => some { s with pc := .writing command, queue := rest }
    | _, _ => none
  | .write outcome =>
    match s.pc, outcome with
    | .writing command, .ok () =>
      some { s with pc := .reading command, written := s.written ++ encodeCommand command }
    -- A failed write may leave a part of the command behind.
    | .writing command, .error (n, error) =>
      some { s with
        pc := .responding command (.error (.io error))
        written := s.written ++ (encodeCommand command).take n }
    | _, _ => none
  | .read =>
    match s.pc with
    | .reading command =>
      let (result, reader) := receiveReply s.reader
      some { s with pc := .responding command result, reader }
    | _ => none
  | .respond =>
    match s.pc with
    | .responding command result =>
      some { s.deliver command.response result with
        pc := match result with
          | .ok _ => .idle
          -- `run_actor` breaks off after the first result that is an error.
          | .error _ => .closing }
    | _ => none
  | .close =>
    match s.pc with
    | .closing => some s.closeChannel
    | _ => none

/-- `ControlClient::from_stream`: no command has been sent, and nothing has been written. -/
def connect (reader : Reader) : State where
  calls := fun _ => .fresh
  queue := []
  pc := .idle
  reader := reader
  written := []

end Torlane.Control
