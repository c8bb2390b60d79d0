import Torlane.Net

/-!
# Tor policy

The part of a Tor configuration that an application may choose: the typed configs of
`src/tor/torc/` for the network, circuits, padding, bridges, node selection, system, and logging,
with the validation of bridges, and `TorPolicy` of `src/tor/instance/policy.rs`, which holds one
of each. A path is given by the text that `display` prints. Durations are in nanoseconds.
-/

namespace Torlane

open Text

/-- A path, as it is displayed. -/
abbrev Path := Text

/-- A torrc boolean. -/
def displayFlag (value : Bool) : Text := if value then ['1'] else ['0']

/-- A torrc three-way switch. -/
inductive Tristate where
  | off
  | on
  | auto
  deriving DecidableEq, Repr

/-- The text of a three-way switch. -/
def Tristate.display : Tristate → Text
  | .off => ['0']
  | .on => ['1']
  | .auto => "auto".toList

/-- `Duration::as_secs`. -/
def asSecs (duration : ℕ) : ℕ := duration / 1000000000

/-- A `TorConfigBuilder` configuration failed validation. -/
inductive TorConfigError where
  | noListeners
  | unauthenticatedNonLoopbackControlPort
  | emptySocksPortRange
  | portRangeOverflow
  | duplicatePort (port : UInt16)
  | missingTransportPlugin (transport : Text)
  | invalidObfs4Bridge (message : String)
  | invalidRawOptionKey
  | invalidRawOptionValue
  deriving DecidableEq, Repr

/-- Client-side address family policy. -/
structure NetworkConfig where
  clientUseIpv4 : Option Bool
  clientUseIpv6 : Option Bool
  deriving DecidableEq, Repr

/-- `NetworkConfig::tor_default`. -/
def NetworkConfig.torDefault : NetworkConfig := ⟨none, none⟩

/-- Circuit build and timeout behavior. -/
structure CircuitConfig where
  maxCircuitDirtiness : Option ℕ
  newCircuitPeriod : Option ℕ
  circuitsAvailableTimeout : Option ℕ
  socksTimeout : Option ℕ
  circuitBuildTimeout : Option ℕ
  learnCircuitBuildTimeout : Option Bool
  circuitStreamTimeout : Option ℕ
  maxClientCircuitsPending : Option UInt32
  numEntryGuards : Option UInt32
  useEntryGuards : Option Bool
  deriving DecidableEq, Repr

/-- `CircuitConfig::default`. -/
def CircuitConfig.default : CircuitConfig :=
  ⟨none, none, none, none, none, none, none, none, none, none⟩

/-- Traffic-analysis-resistance padding behavior. -/
structure PaddingConfig where
  connectionPadding : Option Tristate
  reducedConnectionPadding : Option Bool
  circuitPadding : Option Bool
  reducedCircuitPadding : Option Bool
  keepalivePeriod : Option ℕ
  deriving DecidableEq, Repr

/-- `PaddingConfig::default`. -/
def PaddingConfig.default : PaddingConfig := ⟨none, none, none, none, none⟩

/-- Exit node selection constraints. -/
structure NodeSelectionConfig where
  exitNodes : List Text
  excludeExitNodes : List Text
  strictNodes : Option Bool
  deriving DecidableEq, Repr

/-- `NodeSelectionConfig::default`. -/
def NodeSelectionConfig.default : NodeSelectionConfig := ⟨[], [], none⟩

/-- System-level resource behavior. -/
structure SystemConfig where
  avoidDiskWrites : Option Bool
  hardwareAccel : Option Bool
  connLimit : Option UInt32
  disableDebuggerAttachment : Option Bool
  deriving DecidableEq, Repr

/-- `SystemConfig::default`. -/
def SystemConfig.default : SystemConfig := ⟨none, none, none, none⟩

/-- A log severity level. -/
inductive Severity where
  | debug
  | info
  | notice
  | warn
  | err
  deriving DecidableEq, Repr

/-- The text of a severity level. -/
def Severity.display : Severity → Text
  | .debug => "debug".toList
  | .info => "info".toList
  | .notice => "notice".toList
  | .warn => "warn".toList
  | .err => "err".toList

/-- Where a log line is written. -/
inductive LogDest where
  | stdout
  | stderr
  | syslog
  | file (path : Path)
  deriving DecidableEq, Repr

/-- The text of a log destination. -/
def LogDest.display : LogDest → Text
  | .stdout => "stdout".toList
  | .stderr => "stderr".toList
  | .syslog => "syslog".toList
  | .file path => "file ".toList ++ path

/-- One `Log` line. -/
structure LogLine where
  severity : Severity
  destination : LogDest
  deriving DecidableEq, Repr

/-- Logging behavior. -/
structure LoggingConfig where
  logs : List LogLine
  safeLogging : Option Bool
  syslogIdentityTag : Option Text
  deriving DecidableEq, Repr

/-- `LoggingConfig::default`. -/
def LoggingConfig.default : LoggingConfig := ⟨[], none, none⟩

/-! ## Bridges -/

/-- One `Bridge` line. -/
structure Bridge where
  transport : Option Text
  addr : SocketAddr
  fingerprint : Option Text
  args : List (Text × Text)
  deriving DecidableEq, Repr

/-- A `ClientTransportPlugin` line. -/
structure TransportPlugin where
  names : List Text
  executable : Path
  args : List Text
  deriving DecidableEq, Repr

/-- Bridge relays and their pluggable transports. -/
structure BridgeConfig where
  useBridges : Bool
  bridges : List Bridge
  transportPlugins : List TransportPlugin
  deriving DecidableEq, Repr

/-- The checks of an obfs4 bridge: a fingerprint, and the first `cert` and the first `iat-mode`
among its arguments. -/
def Bridge.validateObfs4 (bridge : Bridge) : Except TorConfigError Unit :=
  let argument (name : Text) := (bridge.args.find? (·.1 = name)).map (·.2)
  if bridge.fingerprint.getD [] = [] then .error (.invalidObfs4Bridge "empty fingerprint")
  else if (argument "cert".toList).getD [] = [] then .error (.invalidObfs4Bridge "empty cert")
  else
    match (argument "iat-mode".toList).bind (parseUnsigned 255) with
    | some iatMode =>
      if iatMode ≤ 2 then .ok () else .error (.invalidObfs4Bridge "invalid iat-mode")
    | none => .error (.invalidObfs4Bridge "invalid iat-mode")

/-- The checks of one bridge, given the names of the registered transports. -/
def Bridge.validate (bridge : Bridge) (transports : List Text) : Except TorConfigError Unit :=
  match bridge.transport with
  | none => .ok ()
  | some transport =>
    if transport ∉ transports then .error (.missingTransportPlugin transport)
    else if transport = "obfs4".toList then bridge.validateObfs4
    else .ok ()

/-- `BridgeConfig::validate`. -/
def BridgeConfig.validate (config : BridgeConfig) : Except TorConfigError Unit :=
  config.bridges.forM (·.validate (config.transportPlugins.flatMap (·.names)))

/-- `TorPolicy`. -/
structure TorPolicy where
  network : NetworkConfig
  circuits : CircuitConfig
  padding : PaddingConfig
  bridges : Option BridgeConfig
  nodeSelection : NodeSelectionConfig
  system : SystemConfig
  logging : LoggingConfig
  deriving DecidableEq, Repr

/-- `TorPolicy::default`. -/
def TorPolicy.default : TorPolicy where
  network := .torDefault
  circuits := .default
  padding := .default
  bridges := none
  nodeSelection := .default
  system := .default
  logging := .default

end Torlane
