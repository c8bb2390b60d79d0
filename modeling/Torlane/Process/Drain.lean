import Torlane.Controller.Codec
import Torlane.Framing
import Torlane.Potential

/-!
# What Tor prints

`drain_output` and `finish_output_tasks` of `src/tor/process.rs`. Tor and the processes that it
starts write to two pipes that hold a bounded number of bytes. Behind each pipe a task copies its
lines to the log, and whoever stops Tor waits for both tasks. Every read of a pipe is one step, and
so are a line taken out of a task's buffer, a write of some bytes, and an end of a pipe that is
copied or closed. `transcript` is what the log should have of a pipe.
-/

namespace Torlane.Drain

open Text Transition Framing

/-- `OutputStream`. -/
inductive OutputStream where
  | stdout
  | stderr
  deriving DecidableEq, Repr

/-- Where a task of `drain_output` stands. -/
inductive Task where
  /-- It has a part of a line, and the bytes that it has read behind it. -/
  | running (line buffer : List UInt8)
  | ended
  | aborted

/-- The task still holds the read end of its pipe. -/
def Task.isRunning : Task → Bool
  | .running _ _ => true
  | _ => false

/-- A task that runs has a part of a line and a buffer. -/
theorem Task.exists_of_isRunning {task : Task} (h : task.isRunning) :
    ∃ line buffer, task = .running line buffer := by
  cases task with
  | running line buffer => exact ⟨line, buffer, rfl⟩
  | ended => cases h
  | aborted => cases h

/-- A pipe, and the task that reads it. -/
structure Pipe where
  /-- All that has been written; only the statements look at it. -/
  written : List UInt8
  queue : List UInt8
  /-- How many write ends are open, in any process. -/
  writers : ℕ
  task : Task
  /-- Whether `TorProcess` holds the task's handle. -/
  handle : Bool
  aborting : Bool

/-- Where the owner of the `TorProcess` stands, as far as the tasks are concerned. -/
inductive Caller where
  | idle
  /-- `finish_output_tasks` waits for a task, and looks at the other handles after that. -/
  | awaiting (stream : OutputStream) (rest : List OutputStream)
  | finished
  | dropped

/-- The whole system. An entry of the log with an error does not name its stream in the source. -/
structure State where
  pipe : OutputStream → Pipe
  caller : Caller
  log : List (OutputStream × Except IoError Text)

/-! ## A task -/

/-- The capacity of `BufReader`. -/
def bufferSize : ℕ := 8192

/-- A line without its line feed, and without a carriage return before that. -/
def chomp (text : Text) : Text :=
  match stripSuffix ['\n'] text with
  | some line => (stripSuffix ['\r'] line).getD line
  | none => text

/-- `Lines::next_line`, after the bytes of the line have been read. -/
def nextLine (bytes : List UInt8) : Except IoError Text := (decodeLine bytes).map chomp

/-- What can happen to a pipe. -/
inductive PipeAction where
  | write (bytes : List UInt8)
  /-- A process copies its write end, as `fork` does. -/
  | duplicate
  | close
  | read (n : ℕ)
  | readEof
  | readError (error : IoError)
  | scan
  | abort

/-- A line is logged, or the task ends with an error. -/
def Pipe.deliver (p : Pipe) (line rest : List UInt8) : Pipe × List (Except IoError Text) :=
  match nextLine line with
  | .ok text => ({ p with task := .running [] rest }, [.ok text])
  | .error error => ({ p with task := .ended }, [.error error])

/-- A step of a pipe, and what it logs. -/
def pipeStep (capacity : ℕ) (p : Pipe) :
    PipeAction → Option (Pipe × List (Except IoError Text))
  | .write bytes =>
    if p.writers = 0 ∨ bytes = [] then none
    else if p.task.isRunning then
      -- A writer waits while there is no room.
      if p.queue.length + bytes.length ≤ capacity then
        some ({ p with written := p.written ++ bytes, queue := p.queue ++ bytes }, [])
      else none
    -- Without a reader the write fails, and nothing is written.
    else some (p, [])
  | .duplicate => if p.writers = 0 then none else some ({ p with writers := p.writers + 1 }, [])
  | .close => if p.writers = 0 then none else some ({ p with writers := p.writers - 1 }, [])
  | .read n =>
    match p.task with
    | .running line [] =>
      if 0 < n ∧ n ≤ bufferSize ∧ n ≤ p.queue.length then
        some ({ p with queue := p.queue.drop n, task := .running line (p.queue.take n) }, [])
      else none
    | _ => none
  -- A read of no bytes: the last line may lack its end, and the one after it is `None`.
  | .readEof =>
    match p.task with
    | .running line [] =>
      if p.queue = [] ∧ p.writers = 0 then
        if line = [] then some ({ p with task := .ended }, []) else some (p.deliver line [])
      else none
    | _ => none
  | .readError error =>
    match p.task with
    | .running _ [] => some ({ p with task := .ended }, [.error error])
    | _ => none
  | .scan =>
    match p.task with
    | .running line (byte :: bytes) =>
      match splitLine (byte :: bytes) with
      | some (last, rest) => some (p.deliver (line ++ last) rest)
      | none => some ({ p with task := .running (line ++ byte :: bytes) [] }, [])
    | _ => none
  | .abort =>
    if p.aborting ∧ p.task.isRunning then some ({ p with task := .aborted }, []) else none

/-! ## The system -/

/-- `finish_output_tasks`, up to the first of the tasks whose handle is held. -/
def State.awaitNext : List OutputStream → State → State
  | [], s => { s with caller := .finished }
  | stream :: rest, s =>
    if (s.pipe stream).handle then
      { s with
        pipe := Function.update s.pipe stream { s.pipe stream with handle := false }
        caller := .awaiting stream rest }
    else awaitNext rest s

/-- `Drop` for `TorProcess`: the tasks whose handles are held are to be aborted. -/
def State.dropProcess (s : State) : State :=
  { s with
    pipe := fun stream =>
      { s.pipe stream with aborting := (s.pipe stream).handle, handle := false }
    caller := .dropped }

/-- The steps of the system. -/
inductive Action where
  | pipe (stream : OutputStream) (action : PipeAction)
  /-- `finish_output_tasks` is called, by `wait`, `shutdown` or a `spawn` that fails. -/
  | finish
  | join
  /-- The future that waits is dropped, and the task's handle with it. -/
  | cancel
  | drop

/-- The system's step function. -/
def step (capacity : ℕ) (s : State) : Action → Option State
  | .pipe stream action =>
    (pipeStep capacity (s.pipe stream) action).map fun (p, entries) =>
      { s with
        pipe := Function.update s.pipe stream p
        log := s.log ++ entries.map (stream, ·) }
  | .finish =>
    match s.caller with
    | .idle => some (s.awaitNext [.stdout, .stderr])
    | .finished => some (s.awaitNext [.stdout, .stderr])
    | _ => none
  | .join =>
    match s.caller with
    | .awaiting stream rest =>
      if (s.pipe stream).task.isRunning then none else some (s.awaitNext rest)
    | _ => none
  | .cancel =>
    match s.caller with
    | .awaiting _ _ => some { s with caller := .idle }
    | _ => none
  | .drop =>
    match s.caller with
    | .idle => some s.dropProcess
    | .finished => some s.dropProcess
    | _ => none

/-- `TorProcess::spawn`: Tor holds the write ends, and the tasks have been started. -/
def spawned : State where
  pipe := fun _ => ⟨[], [], 1, .running [] [], true, false⟩
  caller := .idle
  log := []

/-- What the log has of a stream. -/
def State.logged (s : State) (stream : OutputStream) : List (Except IoError Text) :=
  s.log.filterMap fun entry => if entry.1 = stream then some entry.2 else none

/-! ## What is to be logged -/

/-- A line feed. -/
def isNewline (byte : UInt8) : Bool := byte = 10

/-- The lines of a stream that has ended, as the task reads them. -/
def linesOf (bytes : List UInt8) : List (Except IoError Text) :=
  (allFrames isNewline bytes).map nextLine

/-- The lines of a stream up to the first one that is not UTF-8, and the error of that one. -/
def transcript (bytes : List UInt8) : List (Except IoError Text) := upToError (linesOf bytes)

/-- The log has the first lines of a stream, each once, in order, and nothing else but an error at
the end. -/
def Beginning (written : List UInt8) (log : List (Except IoError Text)) : Prop :=
  ∃ lines, lines <+: linesOf written ∧ AllOk lines ∧
    (log = lines ∨ ∃ error, log = lines ++ [.error error])

/-- A line without a line break has nothing to take off but its line feed. -/
theorem nextLine_encodeUtf8 {line : Text} (hline : IsLine line) :
    nextLine (encodeUtf8 line ++ [10]) = .ok line := by
  have hencode : encodeUtf8 line ++ [10] = encodeUtf8 (line ++ ['\n']) := by
    rw [encodeUtf8_append]
    rfl
  have hreturn : ¬ ['\r'] <:+ line := by
    rintro ⟨pre, rfl⟩
    have hend := hline '\r' (by simp)
    simp [isLineEnd] at hend
  have hnewline : stripSuffix ['\n'] (line ++ ['\n']) = some line := by
    unfold stripSuffix
    rw [if_pos (by simp)]
    simp
  have hkept : stripSuffix ['\r'] line = none := by
    unfold stripSuffix
    rw [if_neg (by simpa using hreturn)]
  unfold nextLine decodeLine chomp
  rw [hencode, decodeUtf8_encodeUtf8]
  simp only [Except.map, hnewline, hkept, Option.getD_none]

/-- What is printed line by line is the transcript. -/
theorem transcript_lines {lines : List Text} (hlines : ∀ line ∈ lines, IsLine line) :
    transcript (encodeUtf8 (lines.flatMap (· ++ ['\n']))) = lines.map .ok := by
  have hencode : encodeUtf8 (lines.flatMap (· ++ ['\n'])) =
      (lines.map encodeUtf8).flatMap (· ++ [10]) := by
    induction lines with
    | nil => rfl
    | cons line lines ih =>
      rw [List.flatMap_cons, encodeUtf8_append, encodeUtf8_append,
        ih (List.forall_mem_cons.mp hlines).2]
      rfl
  have hbodies : ∀ bytes ∈ lines.map encodeUtf8, ∀ byte ∈ bytes, ¬ isNewline byte := by
    intro bytes hbytes byte hbyte hnewline
    obtain ⟨line, hline, rfl⟩ := List.mem_map.mp hbytes
    obtain rfl : byte = 10 := by simpa [isNewline] using hnewline
    have hmem : '\n' ∈ line := (mem_encodeUtf8_iff (c := '\n') (by decide)).mp hbyte
    have hend := hlines line hline '\n' hmem
    simp [isLineEnd] at hend
  have hall : linesOf (encodeUtf8 (lines.flatMap (· ++ ['\n']))) = lines.map .ok := by
    unfold linesOf
    rw [hencode, allFrames_flatMap hbodies (x := 10) (by decide), List.map_map, List.map_map]
    exact List.map_congr_left fun line hline => nextLine_encodeUtf8 (hlines line hline)
  have hok : AllOk (lines.map Except.ok : List (Except IoError Text)) := by
    intro result hresult
    obtain ⟨line, -, rfl⟩ := List.mem_map.mp hresult
    rfl
  unfold transcript
  rw [hall, hok.upToError_eq]

end Torlane.Drain
