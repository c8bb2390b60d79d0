import Torlane.Controller.Bootstrap
import Torlane.Controller.Handshake
import Torlane.Controller.Listeners
import Torlane.Controller.PortFile
import Torlane.Instance.RuntimeConfig
import Torlane.Process.Verify

/-!
# Starting an instance

`TorInstance::start` and `finish_startup` of `src/tor/instance/lifecycle.rs`, with
`InstanceLayout::prepare` of `src/tor/instance/layout.rs`: the directories, the configuration, the
version, the verification, the process, and the dialogue with its control port.

A loop within a timeout is a program over the number of rounds that it still has. What its polls
find is judged by `waitControlPortFile` and `waitBootstrap` (`meets_pollPortFile`,
`meets_pollBootstrap`).
-/

namespace Torlane.Host

open Text Control

/-! ## The source -/

/-- `InstanceConfig`. The timeouts are in milliseconds. -/
structure InstanceConfig where
  id : InstanceId
  torBinary : Path
  root : Path
  policy : TorPolicy
  configSource : TorConfigSource
  controlPortTimeout : ℕ
  bootstrapTimeout : ℕ

/-- `TorControlError`, in the three parts of a startup that can cause it. -/
inductive ControlError where
  | portFile (error : PortFileError)
  | connect (error : IoError)
  | client (error : ClientError)
  deriving DecidableEq, Repr

/-- `TorInstanceError`. -/
inductive StartError where
  | layout (error : IoError)
  | config (error : TorConfigError)
  | version (error : TorVersionError)
  | verify (error : TorVerifyError)
  | verificationTask
  | process (error : TorProcessError)
  | control (error : ControlError)

/-- `TorInstance`: the process, the control port that it is connected to, and the listener. -/
structure TorInstance where
  id : InstanceId
  process : Child
  controller : SocketAddr
  socksAddr : SocketAddr
  deriving DecidableEq, Repr

/-- `set_private_dir`, on Unix. -/
def setPrivateDir (path : Path) : ExceptT IoError Sys Unit := do
  let _ ← Sys.io id (Sys.call (.metadata path))
  Sys.io id (Sys.call (.setPermissions path 0o700))

/-- The paths of a layout. -/
def layoutOf (root : Path) : InstanceLayout where
  dataDir := UnixPath.join root "data".toList
  controlPortFile := UnixPath.join (UnixPath.join root "runtime".toList) "control.port".toList

/-- `InstanceLayout::prepare`. -/
def prepareLayout (root : Path) : ExceptT IoError Sys InstanceLayout := do
  let runtimeDir := UnixPath.join root "runtime".toList
  Sys.io id (Sys.call (.createDirAll (layoutOf root).dataDir))
  Sys.io id (Sys.call (.createDirAll runtimeDir))
  setPrivateDir root
  setPrivateDir (layoutOf root).dataDir
  setPrivateDir runtimeDir
  Sys.io id (removeIfPresent (layoutOf root).controlPortFile)
  pure (layoutOf root)

/-- The result of `read_to_string`, as a poll of the control port file sees it. -/
def seenFile : ReadResult → FileRead
  | .ok text => .content text
  | .error error => if isNotFound error then .notFound else .failed error

/-- The loop of `wait_control_port_file`, for the rounds that start before `wait_for` elapses. -/
def pollPortFile (path : Path) : ℕ → ExceptT PortFileError Sys SocketAddr
  | 0 => throw (.controlPortTimeout path)
  | rounds + 1 => do
    let read ← Sys.always (Sys.call (.readToString path))
    match seenFile read with
    | .content content =>
      if trim content ≠ [] then Sys.ofExcept (parseControlEndpoint path content)
      else pollPortFile path rounds
    | .notFound => pollPortFile path rounds
    | .failed error => throw (.io error)

/-- `wait_control_port_file`. -/
def waitPortFile (path : Path) (waitFor : ℕ) : ExceptT PortFileError Sys SocketAddr := do
  let rounds ← Sys.always (Sys.call (.rounds waitFor))
  pollPortFile path rounds

/-- What a caller of the control client does: each of its commands is a call. -/
def session {α : Type} (s : Session α) : ExceptT ClientError Sys α :=
  ExceptT.mk (Calls.interpret (fun text => Sys.call (.command text)) s.run)

/-- The command that asks for the phase of the bootstrap. -/
def phaseCommand : Text := "GETINFO status/bootstrap-phase".toList

/-- The loop of `ControlClient::wait_bootstrap`, for the rounds that start before `wait_for`
elapses. It may also elapse while a command is not answered yet. -/
def pollBootstrap : ℕ → ExceptT ClientError Sys Unit
  | 0 => throw .bootstrapTimeout
  | rounds + 1 => do
    let answer ← Sys.always (Sys.call (.commandWithin phaseCommand))
    match answer with
    | none => throw .bootstrapTimeout
    | some result =>
      let reply ← Sys.ofExcept (accepted result)
      if bootstrapProgress reply = some 100 then pure () else pollBootstrap rounds

/-- `ControlClient::wait_bootstrap`. -/
def awaitBootstrap (waitFor : ℕ) : ExceptT ClientError Sys Unit := do
  let rounds ← Sys.always (Sys.call (.rounds waitFor))
  pollBootstrap rounds

/-- `TorInstance::finish_startup`: the control port and the SOCKS listener. -/
def finishStartup (env : AuthEnv) (config : InstanceConfig) (layout : InstanceLayout) :
    ExceptT ControlError Sys (SocketAddr × SocketAddr) := do
  let controlAddr ← Sys.wrapError .portFile
    (waitPortFile layout.controlPortFile config.controlPortTimeout)
  Sys.io .connect (Sys.call (.connect controlAddr))
  let _ ← Sys.wrapError .client (session (authenticateAndTakeOwnership env))
  Sys.wrapError .client (awaitBootstrap config.bootstrapTimeout)
  let socksAddr ← Sys.wrapError .client (session (socksListener parseSocketAddr))
  pure (controlAddr, socksAddr)

/-- The verification, as a task of its own. -/
def verifyTask (config : TorConfig) (source : TorConfigSource) (torBinary : Path) :
    ExceptT StartError Sys TorVerifyReport := do
  let completes ← Sys.always (Sys.call .spawnBlocking)
  if completes then Sys.wrapError .verify (verifyConfigSourceWith config source torBinary)
  else throw .verificationTask

/-- What a startup makes of a started process. A process whose startup fails is shut down, and
dropped. -/
def finish (id : InstanceId) (process : Child) :
    Except ControlError (SocketAddr × SocketAddr) → ExceptT StartError Sys TorInstance
  | .ok (controller, socksAddr) => pure ⟨id, process, controller, socksAddr⟩
  | .error error => do
    let _ ← Sys.always (TorProcess.shutdown process).run
    Sys.always (dropProcess process)
    throw (.control error)

/-- `TorInstance::start`. -/
def TorInstance.start (env : AuthEnv) (config : InstanceConfig) :
    ExceptT StartError Sys TorInstance := do
  let layout ← Sys.wrapError .layout (prepareLayout config.root)
  let parentPid ← Sys.always (Sys.call .processId)
  let torConfig ← Sys.ofExcept
    ((buildRuntimeConfig config.policy layout parentPid).mapError .config)
  let _ ← Sys.wrapError .version (detectTorVersion config.torBinary)
  let _ ← verifyTask torConfig config.configSource config.torBinary
  let process ← Sys.wrapError .process
    (TorProcess.spawn config.torBinary torConfig config.configSource)
  let startup ← Sys.always (finishStartup env config layout).run
  finish config.id process startup

/-- `TorInstance::shutdown`. -/
def TorInstance.shutdown (inst : TorInstance) : ExceptT StartError Sys Unit :=
  Sys.wrapError .process (TorProcess.shutdown inst.process)

/-! ## The polls of a startup -/

/-- What the polls have found. -/
structure Polled where
  reads : List FileRead
  polls : List Poll

/-- Each poll is noted. -/
def noted : Calls.Effect SysCall SysCall.Answer Polled
  | .readToString _, s, read, t => t = { s with reads := s.reads ++ [seenFile read] }
  | .commandWithin _, s, answer, t =>
    t = { s with polls := s.polls ++ [answer.elim .elapsed .answered] }
  | _, s, _, t => t = s

/-- The polls of the port file are judged by `waitControlPortFile`. -/
theorem meets_pollPortFile {path : Path} {rounds : ℕ} {s : Polled}
    (h : ∀ later, waitControlPortFile path (s.reads ++ later) = waitControlPortFile path later) :
    (pollPortFile path rounds).run.Meets noted (fun _ _ => True)
      (fun result t => result = waitControlPortFile path t.reads) s := by
  induction rounds generalizing s with
  | zero =>
    have hnone := h []
    rw [List.append_nil] at hnone
    exact hnone.symm
  | succ rounds ih =>
    refine Sys.always_bind (noted (.readToString path) s) ⟨trivial, fun _ _ ht => ht⟩
      fun read t ht => ?_
    obtain rfl : t = { s with reads := s.reads ++ [seenFile read] } := ht
    have hdecides (result) (hread : waitControlPortFile path [seenFile read] = result) :
        result = waitControlPortFile path (s.reads ++ [seenFile read]) := by
      rw [h, hread]
    have hgoes (hread : ∀ later, waitControlPortFile path (seenFile read :: later) =
        waitControlPortFile path later) :
        (pollPortFile path rounds).run.Meets noted (fun _ _ => True)
          (fun result t => result = waitControlPortFile path t.reads)
          { s with reads := s.reads ++ [seenFile read] } := by
      refine ih fun later => ?_
      rw [List.append_assoc, h]
      exact hread later
    generalize seenFile read = seen at hdecides hgoes ⊢
    cases seen with
    | content content =>
      dsimp only
      split_ifs with htext
      · exact hdecides _ (if_pos htext)
      · exact hgoes fun later => if_neg htext
    | notFound => exact hgoes fun later => rfl
    | failed error => exact hdecides _ rfl

/-- The polls of the bootstrap are judged by `waitBootstrap`. -/
theorem meets_pollBootstrap {rounds : ℕ} {s : Polled}
    (h : ∀ later, waitBootstrap (s.polls ++ later) = waitBootstrap later) :
    (pollBootstrap rounds).run.Meets noted (fun _ _ => True)
      (fun result t => waitBootstrap (t.polls ++ [.elapsed]) = some result) s := by
  induction rounds generalizing s with
  | zero => exact h [.elapsed]
  | succ rounds ih =>
    refine Sys.always_bind (noted (.commandWithin phaseCommand) s) ⟨trivial, fun _ _ ht => ht⟩
      fun answer t ht => ?_
    have hpolls (later) : waitBootstrap (t.polls ++ later) =
        waitBootstrap (answer.elim .elapsed .answered :: later) := by
      rw [ht, List.append_assoc, h]
      rfl
    cases answer with
    | none => exact hpolls [.elapsed]
    | some result =>
      simp only [Option.elim_some, waitBootstrap] at hpolls
      refine Sys.ofExcept_bind (fun reply hreply => ?_) fun error herror => ?_
      · simp only [hreply] at hpolls
        split_ifs at hpolls ⊢ with hready
        · exact hpolls [.elapsed]
        · exact ih hpolls
      · simp only [herror] at hpolls
        exact hpolls [.elapsed]

end Torlane.Host
