import Torlane.Calls
import Torlane.Controller.Client
import Torlane.Torc.Config

/-!
# System calls

The calls of the standard library and of the runtime by which `src/tor` starts, watches and stops
Tor, with what they return. A program in `Sys` makes them one after the other. A loop within a
timeout asks how many rounds there are until it elapses, so that every program ends.
-/

namespace Torlane.Host

open Text

/-- `ErrorKind::NotFound`: the code `ENOENT`. -/
def isNotFound (error : IoError) : Bool := error = .os 2

/-- A child process, as its handle names it. -/
structure Child where
  handle : ℕ
  deriving DecidableEq, Repr

/-- `ExitStatus`: the exit code, unless a signal has ended the process. -/
structure ExitStatus where
  code : Option Int32
  deriving DecidableEq, Repr

/-- `ExitStatus::success`. -/
def ExitStatus.success (status : ExitStatus) : Bool := status.code = some 0

/-- `Output`: the status, and what was printed, after `from_utf8_lossy`. -/
structure Output where
  status : ExitStatus
  stdout : Text
  stderr : Text
  deriving DecidableEq, Repr

/-- What a child's standard input is. -/
inductive Stdin where
  | piped
  | null
  deriving DecidableEq, Repr

/-- The contents of a file that is read, or why it is not. -/
abbrev ReadResult := Except IoError Text

/-- The calls to the system. -/
inductive SysCall where
  -- `std::fs`
  | createDirAll (path : Path)
  | metadata (path : Path)
  | setPermissions (path : Path) (mode : ℕ)
  | removeFile (path : Path)
  | createNew (path : Path) (mode : ℕ)
  | writeAll (path : Path) (text : Text)
  | flush (path : Path)
  | syncAll (path : Path)
  | rename (source destination : Path)
  | readToString (path : Path)
  -- The process itself, and the clock in nanoseconds.
  | processId
  | clock
  -- `std::process` and `tokio::process`
  | output (binary : Path) (args : List Text)
  | spawn (binary : Path) (args : List Text) (stdin : Stdin)
  | takeStdin (child : Child)
  | writeStdin (child : Child) (text : Text)
  | flushStdin (child : Child)
  | shutdownStdin (child : Child)
  | waitWithOutput (child : Child)
  | tryWait (child : Child)
  | childId (child : Child)
  | sigterm (pid : UInt32)
  | wait (child : Child)
  | waitTimeout (child : Child) (seconds : ℕ)
  | startKill (child : Child)
  -- Tasks, timeouts and the control connection
  | spawnBlocking
  | rounds (limit : ℕ)
  | connect (addr : SocketAddr)
  | command (text : Text)
  | commandWithin (text : Text)

/-- What a call returns. -/
abbrev SysCall.Answer : SysCall → Type
  | createDirAll _ => Except IoError Unit
  | metadata _ => Except IoError ℕ
  | setPermissions _ _ => Except IoError Unit
  | removeFile _ => Except IoError Unit
  | createNew _ _ => Except IoError Unit
  | writeAll _ _ => Except IoError Unit
  | flush _ => Except IoError Unit
  | syncAll _ => Except IoError Unit
  | rename _ _ => Except IoError Unit
  | readToString _ => ReadResult
  | processId => UInt32
  | clock => ℕ
  | output _ _ => Except IoError Output
  | spawn _ _ _ => Except IoError Child
  | takeStdin _ => Bool
  | writeStdin _ _ => Except IoError Unit
  | flushStdin _ => Except IoError Unit
  | shutdownStdin _ => Except IoError Unit
  | waitWithOutput _ => Except IoError Output
  | tryWait _ => Except IoError (Option ExitStatus)
  | childId _ => Option UInt32
  -- The error of `kill` is the number that the system reports.
  | sigterm _ => Except ℕ Unit
  | wait _ => Except IoError ExitStatus
  -- Nothing, if the timeout elapses.
  | waitTimeout _ _ => Option (Except IoError ExitStatus)
  | startKill _ => Except IoError Unit
  -- Whether the task runs to its end.
  | spawnBlocking => Bool
  | rounds _ => ℕ
  | connect _ => Except IoError Unit
  | command _ => Control.CommandResult
  -- Nothing, if the timeout elapses before the response.
  | commandWithin _ => Option Control.CommandResult

/-- A call to the file system, or for the name of a temporary file. -/
def SysCall.isFile : SysCall → Bool
  | .createDirAll _ | .metadata _ | .setPermissions _ _ | .removeFile _ | .createNew _ _
  | .writeAll _ _ | .flush _ | .syncAll _ | .rename _ _ | .readToString _ | .processId | .clock =>
    true
  | _ => false

/-- A call that a startup makes while Tor runs. -/
def SysCall.isControl : SysCall → Bool
  | .readToString _ | .rounds _ | .connect _ | .command _ | .commandWithin _ => true
  | _ => false

/-- A call that neither runs a program nor does anything to a child process. -/
def SysCall.isPassive : SysCall → Bool
  | .output _ _ | .spawn _ _ _ | .waitWithOutput _ | .tryWait _ | .sigterm _ | .wait _
  | .waitTimeout _ _ | .startKill _ => false
  | _ => true

theorem SysCall.isPassive_of_isFile {q : SysCall} (h : q.isFile) : q.isPassive := by
  cases q <;> trivial

theorem SysCall.isPassive_of_isControl {q : SysCall} (h : q.isControl) : q.isPassive := by
  cases q <;> trivial

/-- A program that calls the system. -/
abbrev Sys (α : Type) := Calls SysCall SysCall.Answer α

namespace Sys

variable {ε α : Type} {σ : Type} {effect : Calls.Effect SysCall SysCall.Answer σ}
  {guard : σ → SysCall → Prop} {s : σ}

/-- A single call. -/
def call (q : SysCall) : Sys q.Answer := Calls.make q

/-- A call whose error ends the program, as an error of the program's own type. -/
def io (wrap : IoError → ε) (program : Sys (Except IoError α)) : ExceptT ε Sys α :=
  ExceptT.mk (program >>= fun result => pure (result.mapError wrap))

/-- A program whose error becomes an error of another type. -/
def wrapError {ε' : Type} (wrap : ε → ε') (program : ExceptT ε Sys α) : ExceptT ε' Sys α :=
  ExceptT.mk (program.run >>= fun result => pure (result.mapError wrap))

/-- A result that is known without a call. -/
def ofExcept (result : Except ε α) : ExceptT ε Sys α := ExceptT.mk (pure result)

/-- A program whose result is only looked at. -/
def always (program : Sys α) : ExceptT ε Sys α :=
  ExceptT.mk (program >>= fun value => pure (.ok value))

@[simp] theorem meets_call {q : SysCall} {post : q.Answer → σ → Prop} :
    (call q).Meets effect guard post s ↔ guard s q ∧ ∀ r t, effect q s r t → post r t := Iff.rfl

@[simp] theorem meets_io {wrap : IoError → ε} {program : Sys (Except IoError α)}
    {post : Except ε α → σ → Prop} :
    (io wrap program).run.Meets effect guard post s ↔
      program.Meets effect guard (fun result t => post (result.mapError wrap) t) s :=
  Calls.meets_bind

@[simp] theorem meets_wrapError {ε' : Type} {wrap : ε → ε'} {program : ExceptT ε Sys α}
    {post : Except ε' α → σ → Prop} :
    (wrapError wrap program).run.Meets effect guard post s ↔
      program.run.Meets effect guard (fun result t => post (result.mapError wrap) t) s :=
  Calls.meets_bind

@[simp] theorem meets_ofExcept {result : Except ε α} {post : Except ε α → σ → Prop} :
    (ofExcept result).run.Meets effect guard post s ↔ post result s := Iff.rfl

@[simp] theorem meets_always {program : Sys α} {post : Except ε α → σ → Prop} :
    (always program).run.Meets effect guard post s ↔
      program.Meets effect guard (fun value t => post (.ok value) t) s :=
  Calls.meets_bind

variable {P : SysCall → Prop}

theorem only_call {q : SysCall} (h : P q) : (call q).Only P := ⟨h, fun _ => trivial⟩

theorem only_io {wrap : IoError → ε} {program : Sys (Except IoError α)} (h : program.Only P) :
    (io wrap program).run.Only P := h.bind fun _ => trivial

theorem only_wrapError {ε' : Type} {wrap : ε → ε'} {program : ExceptT ε Sys α}
    (h : program.run.Only P) : (wrapError wrap program).run.Only P := h.bind fun _ => trivial

theorem only_always {program : Sys α} (h : program.Only P) :
    (always program : ExceptT ε Sys α).run.Only P := h.bind fun _ => trivial

/-- After a call that may fail, its error is the program's. -/
theorem io_bind {β : Type} {wrap : IoError → ε} {program : Sys (Except IoError α)}
    {f : α → ExceptT ε Sys β} (mid : α → σ → Prop) {post : Except ε β → σ → Prop}
    (h : program.Meets effect guard
      (Calls.orElse mid fun error t => post (.error (wrap error)) t) s)
    (hf : ∀ value t, mid value t → (f value).run.Meets effect guard post t) :
    (io wrap program >>= f).run.Meets effect guard post s := by
  refine Calls.Meets.bind_except mid _ (meets_io.mpr (h.imp ?_)) hf fun error t => id
  rintro (error | value) t hmid <;> exact hmid

/-- After a program that may fail, its error is the program's. -/
theorem wrapError_bind {ε' β : Type} {wrap : ε → ε'} {program : ExceptT ε Sys α}
    {f : α → ExceptT ε' Sys β} (mid : α → σ → Prop) {post : Except ε' β → σ → Prop}
    (h : program.run.Meets effect guard
      (Calls.orElse mid fun error t => post (.error (wrap error)) t) s)
    (hf : ∀ value t, mid value t → (f value).run.Meets effect guard post t) :
    (wrapError wrap program >>= f).run.Meets effect guard post s := by
  refine Calls.Meets.bind_except mid _ (meets_wrapError.mpr (h.imp ?_)) hf fun error t => id
  rintro (error | value) t hmid <;> exact hmid

/-- After a program whose result is only looked at. -/
theorem always_bind {β : Type} {program : Sys α} {f : α → ExceptT ε Sys β}
    (mid : α → σ → Prop) {post : Except ε β → σ → Prop}
    (h : program.Meets effect guard mid s)
    (hf : ∀ value t, mid value t → (f value).run.Meets effect guard post t) :
    (always program >>= f).run.Meets effect guard post s :=
  Calls.Meets.bind_except mid (fun _ _ => False) (meets_always.mpr h) hf
    fun _ _ hfail => hfail.elim

/-- After a result that is known. -/
theorem ofExcept_bind {β : Type} {result : Except ε α} {f : α → ExceptT ε Sys β}
    {post : Except ε β → σ → Prop}
    (hf : ∀ value, result = .ok value → (f value).run.Meets effect guard post s)
    (hfail : ∀ error, result = .error error → post (.error error) s) :
    (ofExcept result >>= f).run.Meets effect guard post s := by
  cases result with
  | ok value => exact hf value rfl
  | error error => exact hfail error rfl

end Sys

end Torlane.Host
