import Torlane.Torc.Config

/-!
# Rendering a configuration

`render_config` of `src/tor/torc/render.rs`: a torrc text of commented sections, each with the
lines of the options that are set.
-/

namespace Torlane

open Text

/-- An option line: the name, a space, and the value. -/
def optionLine (name : String) (value : Text) : Text := name.toList ++ ' ' :: value

/-- `section`: a section without lines is left out, and an empty line separates the others. -/
def renderSection (out : Text) (name : String) (lines : List Text) : Text :=
  if lines = [] then out
  else
    (if out = [] then [] else out ++ ['\n']) ++ ("# *** " ++ name ++ " ***\n").toList ++
      lines.flatMap (· ++ ['\n'])

/-- `present`: the lines that are there. -/
def present (items : List (Option Text)) : List Text := items.filterMap id

/-- The line of a flag that is set. -/
def flagLine (name : String) (value : Option Bool) : Option Text :=
  value.map fun flag => optionLine name (displayFlag flag)

/-- The line of a number that is set. -/
def numberLine (name : String) (value : Option UInt32) : Option Text :=
  value.map fun n => optionLine name (decimal n.toNat)

/-- `duration_line`. -/
def durationLine (name : String) (value : Option ℕ) : Option Text :=
  value.map fun duration => optionLine name (decimal (asSecs duration))

/-- `non_empty_list`. -/
def nonEmptyList (name : String) (values : List Text) : Option Text :=
  if values = [] then none else some (optionLine name ([','].intercalate values))

/-- `render_addr_port`. -/
def renderAddrPort (addr : IpAddr) : PortSpec → Text
  | .num port => (SocketAddr.new addr port).display
  | .auto => addr.display ++ ":auto".toList
  | .unix path => "unix:".toList ++ path

/-- `render_control_port`. -/
def renderControlPort : ControlListen → Text
  | .tcp addr port => optionLine "ControlPort" (renderAddrPort addr port)
  | .unix path => optionLine "ControlPort" ("unix:".toList ++ path)

/-- `render_socks_port`. -/
def renderSocksPort (listener : SocksPort) : Text :=
  [' '].intercalate ([optionLine "SocksPort" (renderAddrPort listener.addr listener.port)] ++
    listener.flags.map (·.display) ++ listener.isolation.map (·.display))

/-- The lines of the control interface. -/
def renderControl (control : ControlConfig) : List Text :=
  [renderControlPort control.listen,
    match control.auth with
    | .cookie => optionLine "CookieAuthentication" ['1']
    -- A password is set instead of the cookie, not in addition.
    | .hashedPassword hash => optionLine "HashedControlPassword" hash
    | .none => optionLine "CookieAuthentication" ['0']] ++
  (control.writePortToFile.map (optionLine "ControlPortWriteToFile")).toList ++
  (control.owningControllerProcess.map fun pid =>
    optionLine "__OwningControllerProcess" (decimal pid.toNat)).toList

/-- The value of a plugin's line. -/
def renderPlugin (plugin : TransportPlugin) : Text :=
  [','].intercalate plugin.names ++ " exec ".toList ++ plugin.executable ++
    plugin.args.flatMap (' ' :: ·)

/-- The parts of a bridge's line after its name. -/
def bridgeParts (bridge : Bridge) : List Text :=
  bridge.transport.toList ++ [bridge.addr.display] ++ bridge.fingerprint.toList ++
    bridge.args.map fun (key, value) => key ++ '=' :: value

/-- `render_bridge`. -/
def renderBridge (bridge : Bridge) : Text := [' '].intercalate
    ("Bridge".toList :: bridgeParts bridge)

/-- `render_bridges`. -/
def renderBridges (bridges : BridgeConfig) : List Text :=
  [optionLine "UseBridges" (displayFlag bridges.useBridges)] ++
    bridges.transportPlugins.map (fun plugin =>
      optionLine "ClientTransportPlugin" (renderPlugin plugin)) ++
    bridges.bridges.map renderBridge

/-- `render_logging`. -/
def renderLogging (logging : LoggingConfig) : List Text :=
  logging.logs.map (fun log =>
    optionLine "Log" (log.severity.display ++ ' ' :: log.destination.display)) ++
  (flagLine "SafeLogging" logging.safeLogging).toList ++
  (logging.syslogIdentityTag.map (optionLine "SyslogIdentityTag")).toList

/-- The sections of a configuration, in order, with their lines. -/
def sections (config : TorConfig) : List (String × List Text) :=
  [("Directories", [optionLine "DataDirectory" config.dataDirectory]),
    ("Control interface", (config.control.map renderControl).getD []),
    ("SOCKS listeners", config.socks.listeners.map renderSocksPort),
    ("Address family", present [
      flagLine "ClientUseIPv4" config.network.clientUseIpv4,
      flagLine "ClientUseIPv6" config.network.clientUseIpv6]),
    ("Circuits and timeouts", present [
      durationLine "MaxCircuitDirtiness" config.circuits.maxCircuitDirtiness,
      durationLine "NewCircuitPeriod" config.circuits.newCircuitPeriod,
      durationLine "CircuitsAvailableTimeout" config.circuits.circuitsAvailableTimeout,
      durationLine "SocksTimeout" config.circuits.socksTimeout,
      durationLine "CircuitBuildTimeout" config.circuits.circuitBuildTimeout,
      flagLine "LearnCircuitBuildTimeout" config.circuits.learnCircuitBuildTimeout,
      durationLine "CircuitStreamTimeout" config.circuits.circuitStreamTimeout,
      numberLine "MaxClientCircuitsPending" config.circuits.maxClientCircuitsPending,
      numberLine "NumEntryGuards" config.circuits.numEntryGuards,
      flagLine "UseEntryGuards" config.circuits.useEntryGuards]),
    ("Traffic analysis resistance", present [
      config.padding.connectionPadding.map fun v => optionLine "ConnectionPadding" v.display,
      flagLine "ReducedConnectionPadding" config.padding.reducedConnectionPadding,
      flagLine "CircuitPadding" config.padding.circuitPadding,
      flagLine "ReducedCircuitPadding" config.padding.reducedCircuitPadding,
      durationLine "KeepalivePeriod" config.padding.keepalivePeriod]),
    ("Bridges", (config.bridges.map renderBridges).getD []),
    ("Node selection", present [
      nonEmptyList "ExitNodes" config.nodeSelection.exitNodes,
      nonEmptyList "ExcludeExitNodes" config.nodeSelection.excludeExitNodes,
      flagLine "StrictNodes" config.nodeSelection.strictNodes]),
    ("System", present [
      flagLine "AvoidDiskWrites" config.system.avoidDiskWrites,
      flagLine "HardwareAccel" config.system.hardwareAccel,
      numberLine "ConnLimit" config.system.connLimit,
      flagLine "DisableDebuggerAttachment" config.system.disableDebuggerAttachment]),
    ("Logging", renderLogging config.logging),
    ("Raw", config.rawOptions.map fun option => option.key ++ ' ' :: option.value)]

/-- `render_config`. -/
def TorConfig.render (config : TorConfig) : Text :=
  (sections config).foldl (fun out (name, lines) => renderSection out name lines) []

end Torlane
