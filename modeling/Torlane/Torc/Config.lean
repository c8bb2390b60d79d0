import Torlane.Torc.Policy

/-!
# Tor configuration

The listeners of `src/tor/torc/control.rs` and `src/tor/torc/socks.rs`, the raw options of
`src/tor/torc/option.rs`, and `TorConfigBuilder` of `src/tor/torc/builder.rs` with its validation.
-/

namespace Torlane

open Text

/-- A listener port: a fixed one, one that Tor chooses, or a Unix socket. -/
inductive PortSpec where
  | num (port : UInt16)
  | auto
  | unix (path : Path)
  deriving DecidableEq, Repr

/-- `PortSpec::tcp_port`. -/
def PortSpec.tcpPort : PortSpec → Option UInt16
  | .num port => some port
  | .auto => none
  | .unix _ => none

/-! ## The control port -/

/-- How a controller authenticates. -/
inductive ControlAuth where
  | cookie
  | hashedPassword (hash : Text)
  | none
  deriving DecidableEq, Repr

/-- Where the control port listens. -/
inductive ControlListen where
  | tcp (addr : IpAddr) (port : PortSpec)
  | unix (path : Path)
  deriving DecidableEq, Repr

namespace ControlListen

/-- `ControlListen::tcp_port`. -/
def tcpPort : ControlListen → Option UInt16
  | .tcp _ port => port.tcpPort
  | .unix _ => none

/-- `ControlListen::is_loopback_tcp`. -/
def isLoopbackTcp : ControlListen → Bool
  | .tcp addr _ => addr.isLoopback
  | .unix _ => true

/-- `ControlListen::uses_auto_port`. -/
def usesAutoPort : ControlListen → Bool
  | .tcp _ .auto => true
  | _ => false

end ControlListen

/-- Control port configuration: listener, authentication, and ownership. -/
structure ControlConfig where
  listen : ControlListen
  auth : ControlAuth
  writePortToFile : Option Path
  owningControllerProcess : Option UInt32
  deriving DecidableEq, Repr

namespace ControlConfig

/-- `ControlConfig::auto_tcp`. -/
def autoTcp : ControlConfig where
  listen := .tcp (.v4 .localhost) .auto
  auth := .cookie
  writePortToFile := none
  owningControllerProcess := none

/-- `ControlConfig::cookie_authentication`. -/
def cookieAuthentication (config : ControlConfig) : ControlConfig := { config with auth := .cookie }

/-- `ControlConfig::write_port_to_file`. -/
def withPortFile (config : ControlConfig) (path : Path) : ControlConfig :=
  { config with writePortToFile := some path }

/-- `ControlConfig::owning_controller_process`. -/
def withOwner (config : ControlConfig) (pid : UInt32) : ControlConfig :=
  { config with owningControllerProcess := some pid }

end ControlConfig

/-! ## SOCKS listeners -/

/-- A stream isolation setting. -/
inductive Isolation where
  | isolateClientAddr
  | noIsolateClientAddr
  | isolateSocksAuth
  | noIsolateSocksAuth
  | isolateClientProtocol
  | isolateDestPort
  | isolateDestAddr
  | keepAliveIsolateSocksAuth
  | sessionGroup (group : Int32)
  deriving DecidableEq, Repr

/-- The text of an isolation setting. -/
def Isolation.display : Isolation → Text
  | .isolateClientAddr => "IsolateClientAddr".toList
  | .noIsolateClientAddr => "NoIsolateClientAddr".toList
  | .isolateSocksAuth => "IsolateSOCKSAuth".toList
  | .noIsolateSocksAuth => "NoIsolateSOCKSAuth".toList
  | .isolateClientProtocol => "IsolateClientProtocol".toList
  | .isolateDestPort => "IsolateDestPort".toList
  | .isolateDestAddr => "IsolateDestAddr".toList
  | .keepAliveIsolateSocksAuth => "KeepAliveIsolateSOCKSAuth".toList
  | .sessionGroup group => "SessionGroup=".toList ++ decimalInt group.toInt

/-- A SOCKS behavior flag. -/
inductive SocksFlag where
  | noIPv4Traffic
  | ipv6Traffic
  | preferIPv6
  | noDNSRequest
  | noOnionTraffic
  | onionTrafficOnly
  | cacheDNS
  | useDNSCache
  | preferSocksNoAuth
  | extendedErrors
  deriving DecidableEq, Repr

/-- The text of a behavior flag. -/
def SocksFlag.display : SocksFlag → Text
  | .noIPv4Traffic => "NoIPv4Traffic".toList
  | .ipv6Traffic => "IPv6Traffic".toList
  | .preferIPv6 => "PreferIPv6".toList
  | .noDNSRequest => "NoDNSRequest".toList
  | .noOnionTraffic => "NoOnionTraffic".toList
  | .onionTrafficOnly => "OnionTrafficOnly".toList
  | .cacheDNS => "CacheDNS".toList
  | .useDNSCache => "UseDNSCache".toList
  | .preferSocksNoAuth => "PreferSOCKSNoAuth".toList
  | .extendedErrors => "ExtendedErrors".toList

/-- One `SocksPort` listener. -/
structure SocksPort where
  addr : IpAddr
  port : PortSpec
  flags : List SocksFlag
  isolation : List Isolation
  deriving DecidableEq, Repr

/-- `SocksPort::localhost`. -/
def SocksPort.localhost (port : PortSpec) : SocksPort := ⟨.v4 .localhost, port, [], []⟩

/-- `SocksPort::isolated_auth`. -/
def SocksPort.isolatedAuth (port : PortSpec) : SocksPort :=
  { SocksPort.localhost port with
    flags := [.extendedErrors]
    isolation := [.isolateSocksAuth, .keepAliveIsolateSocksAuth] }

/-- The SOCKS listeners, and the error of a port range that could not be made. -/
structure SocksConfig where
  listeners : List SocksPort
  rangeError : Option TorConfigError
  deriving DecidableEq, Repr

namespace SocksConfig

/-- `SocksConfig::none`. -/
def none : SocksConfig := ⟨[], .none⟩

/-- `SocksConfig::listener`. -/
def listener (config : SocksConfig) (listener : SocksPort) : SocksConfig :=
  { config with listeners := config.listeners ++ [listener] }

/-- `SocksConfig::isolated_auth`. -/
def isolatedAuth (port : PortSpec) : SocksConfig := none.listener (.isolatedAuth port)

/-- `SocksConfig::isolated_auth_auto`. -/
def isolatedAuthAuto : SocksConfig := none.listener (.isolatedAuth .auto)

/-- `u16::checked_add`. -/
def checkedAddPort (a b : UInt16) : Option UInt16 :=
  if a.toNat + b.toNat < 2^16 then some (a + b) else .none

/-- The ports `first..=last`. -/
def inclusivePorts (first last : UInt16) : List UInt16 :=
  (List.range' first.toNat (last.toNat + 1 - first.toNat)).map UInt16.ofNat

/-- `SocksConfig::port_range`. An error is kept for `build` to report. -/
def portRange (startPort count : UInt16) : SocksConfig :=
  if count = 0 then ⟨[], some .emptySocksPortRange⟩
  else
    match checkedAddPort startPort (count - 1) with
    | .none => ⟨[], some .portRangeOverflow⟩
    | some last => ⟨(inclusivePorts startPort last).map fun port => .localhost (.num port), .none⟩

end SocksConfig

/-! ## The builder -/

/-- A character that a raw option's value may not have. -/
def corruptsLine (c : Char) : Bool := c = '\n' ∨ c = '\r' ∨ c = '\x00'

/-- The check of a raw option's key. -/
def validKey (key : Text) : Bool :=
  ¬ (key.isEmpty ∨ key.any fun c => isWhitespace c ∨ corruptsLine c)

/-- The check of a raw option's value. -/
def validValue (value : Text) : Bool := ¬ value.any corruptsLine

/-- A raw torrc line, whose key and value have been checked. -/
structure TorOption where
  key : Text
  value : Text
  valid_key : validKey key
  valid_value : validValue value
  deriving DecidableEq

/-- `TorOption::new`. -/
def TorOption.new (key value : Text) : Except TorConfigError TorOption :=
  if hkey : validKey key then
    if hvalue : validValue value then .ok ⟨key, value, hkey, hvalue⟩
    else .error .invalidRawOptionValue
  else .error .invalidRawOptionKey

/-- A non-fatal concern about a configuration. -/
inductive TorConfigWarning where
  | unauthenticatedLoopbackControlPort
  | autoControlPortWithoutWriteFile
  | highConnLimit (limit : UInt32)
  | manySocksListeners (count : ℕ)
  | unsafeLoggingDisabled
  deriving DecidableEq, Repr

/-- `TorConfigBuilder`. Its setters are updates of its fields. -/
structure TorConfigBuilder where
  dataDirectory : Path
  control : Option ControlConfig
  socks : SocksConfig
  network : NetworkConfig
  circuits : CircuitConfig
  padding : PaddingConfig
  bridges : Option BridgeConfig
  nodeSelection : NodeSelectionConfig
  system : SystemConfig
  logging : LoggingConfig
  rawOptions : List TorOption
  deriving DecidableEq

/-- `TorConfig`: what was built, and the warnings about it. -/
structure TorConfig extends TorConfigBuilder where
  warnings : List TorConfigWarning
  deriving DecidableEq

namespace TorConfigBuilder

/-- `TorConfigBuilder::new`. -/
def new (dataDirectory : Path) : TorConfigBuilder where
  dataDirectory := dataDirectory
  control := none
  socks := .none
  network := .torDefault
  circuits := .default
  padding := .default
  bridges := none
  nodeSelection := .default
  system := .default
  logging := .default
  rawOptions := []

/-- The first port that occurs a second time, after those that have been seen. -/
def duplicatePort : List UInt16 → List UInt16 → Option UInt16
  | _, [] => none
  | seen, port :: ports => if port ∈ seen then some port else duplicatePort (port :: seen) ports

/-- `validate_duplicate_ports`. -/
def validateDuplicatePorts (builder : TorConfigBuilder) : Except TorConfigError Unit :=
  let control := (builder.control.bind (·.listen.tcpPort)).toList
  match duplicatePort [] (control ++ builder.socks.listeners.filterMap (·.port.tcpPort)) with
  | some port => .error (.duplicatePort port)
  | none => .ok ()

/-- The checks of the control port, and the warnings about it. -/
def validateControl (control : ControlConfig) : Except TorConfigError (List TorConfigWarning) :=
  if control.auth = .none ∧ ¬ control.listen.isLoopbackTcp then
    .error .unauthenticatedNonLoopbackControlPort
  else
    .ok ((if control.auth = .none then [.unauthenticatedLoopbackControlPort] else []) ++
      if control.listen.usesAutoPort ∧ control.writePortToFile = none then
        [.autoControlPortWithoutWriteFile]
      else [])

/-- The warnings about anything but the control port. -/
def otherWarnings (builder : TorConfigBuilder) : List TorConfigWarning :=
  let listeners := builder.socks.listeners.length
  (if 32 < listeners then [.manySocksListeners listeners] else []) ++
    (match builder.system.connLimit with
      | some limit => if 10000 < limit then [.highConnLimit limit] else []
      | none => []) ++
    if builder.logging.safeLogging = some false then [.unsafeLoggingDisabled] else []

/-- `build`. -/
def build (builder : TorConfigBuilder) : Except TorConfigError TorConfig := do
  -- The checks are made in this order, and the first one that fails is reported.
  match builder.socks.rangeError with
  | some error => throw error
  | none => pure ()
  if builder.control = none ∧ builder.socks.listeners = [] then throw .noListeners
  let warnings ← match builder.control with
    | some control => validateControl control
    | none => pure []
  builder.validateDuplicatePorts
  match builder.bridges with
  | some bridges => bridges.validate
  | none => pure ()
  return { toTorConfigBuilder := builder, warnings := warnings ++ builder.otherWarnings }

end TorConfigBuilder

end Torlane
