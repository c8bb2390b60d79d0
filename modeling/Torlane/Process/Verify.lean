import Torlane.Process.TorProcess
import Torlane.Version

/-!
# Checks before the start

`detect_tor_version` of `src/tor/version.rs` and `verify_config_source_with` of `src/tor/verify.rs`:
Tor is run to its end, for its version and for its opinion of a configuration.
-/

namespace Torlane.Host

open Text

/-! ## The version -/

/-- `TorVersionError`. -/
inductive TorVersionError where
  | io (error : IoError)
  | failed (status : Option Int32) (stderr : Text)
  | parse (stdout : Text)
  deriving DecidableEq, Repr

/-- `version_from_output`. -/
def versionFromOutput (output : Output) : Except TorVersionError TorVersion :=
  if output.status.success then
    match parseTorVersion output.stdout with
    | some version => .ok version
    | none => .error (.parse output.stdout)
  else .error (.failed output.status.code output.stderr)

/-- `detect_tor_version`. -/
def detectTorVersion (torBinary : Path) : ExceptT TorVersionError Sys TorVersion := do
  let output ← Sys.io .io (Sys.call (.output torBinary ["--version".toList]))
  Sys.ofExcept (versionFromOutput output)

/-! ## The configuration -/

/-- `TorVerifyError`. Of its I/O errors, `stdinUnavailable` is the one that the crate makes
itself. -/
inductive TorVerifyError where
  | write (error : TorWriteError)
  | io (error : IoError)
  | stdinUnavailable
  | failed (status : Option Int32) (stdout stderr : Text)
  deriving DecidableEq, Repr

/-- `TorVerifyReport`. -/
structure TorVerifyReport where
  stdout : Text
  stderr : Text
  deriving DecidableEq, Repr

/-- `report_from_output`. -/
def reportFromOutput (output : Output) : Except TorVerifyError TorVerifyReport :=
  if output.status.success then .ok ⟨output.stdout, output.stderr⟩
  else .error (.failed output.status.code output.stdout output.stderr)

/-- The arguments of a verification. -/
def verifyArgs (file : Text) : List Text := ["--verify-config".toList, "-f".toList, file]

/-- `verify_torrc_file_with`. -/
def verifyTorrcFileWith (torrcFile torBinary : Path) :
    ExceptT TorVerifyError Sys TorVerifyReport := do
  let output ← Sys.io .io (Sys.call (.output torBinary (verifyArgs torrcFile)))
  Sys.ofExcept (reportFromOutput output)

/-- `write_all`, and `flush` if it has written everything. -/
def writeAndFlush (child : Child) (text : Text) : Sys (Except IoError Unit) := do
  match ← Sys.call (.writeStdin child text) with
  | .ok () => Sys.call (.flushStdin child)
  | .error error => pure (.error error)

/-- The report, unless the configuration was not written and Tor has accepted what it got. -/
def reportOfWritten (written : Except IoError Unit) (output : Output) :
    Except TorVerifyError TorVerifyReport :=
  match written with
  | .error error => if output.status.success then .error (.io error) else reportFromOutput output
  | .ok () => reportFromOutput output

/-- `verify_rendered_config_with_stdin`. -/
def verifyRenderedConfigWithStdin (config : TorConfig) (torBinary : Path) :
    ExceptT TorVerifyError Sys TorVerifyReport := do
  let child ← Sys.io .io (Sys.call (.spawn torBinary (verifyArgs "-".toList) .piped))
  let piped ← Sys.always (Sys.call (.takeStdin child))
  if piped then
    let written ← Sys.always (writeAndFlush child config.render)
    let output ← Sys.io .io (Sys.call (.waitWithOutput child))
    Sys.ofExcept (reportOfWritten written output)
  else throw .stdinUnavailable

/-- `verify_config_source_with`. -/
def verifyConfigSourceWith (config : TorConfig) (source : TorConfigSource) (torBinary : Path) :
    ExceptT TorVerifyError Sys TorVerifyReport :=
  match source with
  | .stdin => verifyRenderedConfigWithStdin config torBinary
  | .file path => do
    Sys.wrapError .write (writeConfigToFile config path)
    verifyTorrcFileWith path torBinary

end Torlane.Host
