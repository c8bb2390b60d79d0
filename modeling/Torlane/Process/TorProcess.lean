import Torlane.Process.System
import Torlane.Torc.Render
import Torlane.UnixPath

/-!
# The Tor process

`src/tor/process.rs`: how a configuration is delivered, how the process is started with it, and how
it is stopped. The tasks that copy Tor's output to the log are in `Drain`. A `TorProcess` is its
child; `dropProcess` is what happens when it goes out of scope.
-/

namespace Torlane.Host

open Text

/-- `TorConfigSource`. -/
inductive TorConfigSource where
  | stdin
  | file (path : Path)
  deriving DecidableEq, Repr

/-- `TorWriteError`. -/
inductive TorWriteError where
  | missingParentDirectory
  | io (error : IoError)
  deriving DecidableEq, Repr

/-- `TorProcessError`. Of its I/O errors, `pidRange` is the one that the crate makes itself. -/
inductive TorProcessError where
  | io (error : IoError)
  | pidRange
  | write (error : TorWriteError)
  | missingStdin
  deriving DecidableEq, Repr

/-! ## The configuration file -/

/-- The directory for the temporary file: the path's parent, or the current directory. -/
def tempDir (path : Path) : Path :=
  match UnixPath.parent path with
  | some dir => if dir = [] then ['.'] else dir
  | none => ['.']

/-- The name of the temporary file. -/
def tempName (path : Path) (pid : UInt32) (nanos : ℕ) : Text :=
  ".".toList ++ (UnixPath.fileName path).getD "torrc".toList ++ '.' :: decimal pid.toNat ++
    '.' :: decimal nanos ++ ".tmp".toList

/-- `temp_path`. -/
def tempPath (parent path : Path) (pid : UInt32) (nanos : ℕ) : Path :=
  UnixPath.join parent (tempName path pid nanos)

/-- The permissions of a private file. -/
def privateMode : ℕ := 0o600

/-- `atomic_write`. -/
def atomicWrite (path : Path) (content : Text) : ExceptT TorWriteError Sys Unit :=
  if path = [] then throw .missingParentDirectory
  else do
    Sys.io .io (Sys.call (.createDirAll (tempDir path)))
    let pid ← Sys.always (Sys.call .processId)
    let nanos ← Sys.always (Sys.call .clock)
    let temp := tempPath (tempDir path) path pid nanos
    Sys.io .io (Sys.call (.createNew temp privateMode))
    Sys.io .io (Sys.call (.writeAll temp content))
    Sys.io .io (Sys.call (.flush temp))
    Sys.io .io (Sys.call (.syncAll temp))
    Sys.io .io (Sys.call (.rename temp path))

/-- `write_config_to_file`. -/
def writeConfigToFile (config : TorConfig) (path : Path) : ExceptT TorWriteError Sys Unit :=
  atomicWrite path config.render

/-! ## Starting -/

/-- The file that Tor writes its control port to. -/
def portFile (config : TorConfig) : Option Path :=
  config.control.bind (·.writePortToFile)

/-- A file is removed, if there is one. -/
def removeIfPresent (path : Path) : Sys (Except IoError Unit) := do
  match ← Sys.call (.removeFile path) with
  | .ok () => pure (.ok ())
  | .error error => pure (if isNotFound error then .ok () else .error error)

/-- `remove_stale_control_port_file`. -/
def removeStaleControlPortFile (config : TorConfig) : ExceptT TorProcessError Sys Unit :=
  match portFile config with
  | none => pure ()
  | some path => Sys.io .io (removeIfPresent path)

/-- `TorProcess::write_config_to_stdin`. -/
def writeConfigToStdin (child : Child) (config : TorConfig) : ExceptT TorProcessError Sys Unit := do
  let piped ← Sys.always (Sys.call (.takeStdin child))
  if piped then
    Sys.io .io (Sys.call (.writeStdin child config.render))
    Sys.io .io (Sys.call (.flushStdin child))
    Sys.io .io (Sys.call (.shutdownStdin child))
  else throw .missingStdin

/-- `Drop` for `TorProcess`. -/
def dropProcess (child : Child) : Sys Unit := do
  let _ ← Sys.call (.startKill child)
  pure ()

/-- The arguments of Tor, and its standard input. -/
def TorConfigSource.args : TorConfigSource → List Text × Stdin
  | .stdin => (["-f".toList, "-".toList], .piped)
  | .file path => (["-f".toList, path], .null)

/-- The configuration is written before Tor is started, if it is read from a file. -/
def TorConfigSource.prepare (source : TorConfigSource) (config : TorConfig) :
    ExceptT TorProcessError Sys Unit :=
  match source with
  | .stdin => pure ()
  | .file path => Sys.wrapError .write (writeConfigToFile config path)

/-- The configuration is written after Tor has been started, if it is read from the standard
input. Without it, Tor is killed. -/
def TorConfigSource.deliver (source : TorConfigSource) (config : TorConfig) (child : Child) :
    ExceptT TorProcessError Sys Unit :=
  match source with
  | .file _ => pure ()
  | .stdin => do
    let written ← Sys.always (writeConfigToStdin child config).run
    match written with
    | .ok () => pure ()
    | .error error =>
      let _ ← Sys.always (Sys.call (.startKill child))
      let _ ← Sys.always (Sys.call (.wait child))
      Sys.always (dropProcess child)
      throw error

/-- `TorProcess::spawn`. -/
def TorProcess.spawn (torBinary : Path) (config : TorConfig) (source : TorConfigSource) :
    ExceptT TorProcessError Sys Child := do
  removeStaleControlPortFile config
  source.prepare config
  let child ← Sys.io .io (Sys.call (.spawn torBinary source.args.1 source.args.2))
  source.deliver config child
  pure child

/-! ## Stopping -/

/-- `SHUTDOWN_TIMEOUT`, in seconds. -/
def shutdownTimeout : ℕ := 5

/-- `ESRCH`: there is no such process. -/
def esrch : ℕ := 3

/-- `TorProcess::start_graceful_shutdown`, on Unix. -/
def TorProcess.startGracefulShutdown (child : Child) : ExceptT TorProcessError Sys Unit := do
  let id ← Sys.always (Sys.call (.childId child))
  match id with
  | none => pure ()
  | some pid =>
    -- `i32::try_from`
    if pid.toNat < 2^31 then
      let result ← Sys.always (Sys.call (.sigterm pid))
      match result with
      | .ok () => pure ()
      | .error code => if code = esrch then pure () else throw (.io (.os code))
    else throw .pidRange

/-- A child that has not exited is asked to. -/
def TorProcess.requestExit (child : Child) (exited : Option ExitStatus) :
    ExceptT TorProcessError Sys Unit :=
  if exited.isNone then TorProcess.startGracefulShutdown child else pure ()

/-- A child that has not exited in time is killed. -/
def TorProcess.forceExit (child : Child) :
    Option (Except IoError ExitStatus) → ExceptT TorProcessError Sys Unit
  | some (.ok _) => pure ()
  | some (.error error) => throw (.io error)
  | none => do
    Sys.io .io (Sys.call (.startKill child))
    let _ ← Sys.io .io (Sys.call (.wait child))
    pure ()

/-- `TorProcess::shutdown`. -/
def TorProcess.shutdown (child : Child) : ExceptT TorProcessError Sys Unit := do
  let exited ← Sys.io .io (Sys.call (.tryWait child))
  TorProcess.requestExit child exited
  let result ← Sys.always (Sys.call (.waitTimeout child shutdownTimeout))
  TorProcess.forceExit child result

end Torlane.Host
