import Torlane.Torc.Tables
import Torlane.Torc.Validation

/-!
# Reading a configuration back

A reader takes the entries of a torrc text, collects the values of each name, and reads a section
from the values of its options. It is compared with what `render_config` of
`src/tor/torc/render.rs` writes of a configuration that `TorConfigBuilder::build` of
`src/tor/torc/builder.rs` has accepted: `readConfig_render` says that nothing of a legible one is
lost, except what `written` leaves out.
-/

namespace Torlane

open Text Table

/-! ## Reading a section -/

section Read

variable (values : String → List Text)

/-- How a controller authenticates. -/
def readAuth : Option ControlAuth :=
  match values "CookieAuthentication", values "HashedControlPassword" with
  | [['1']], [] => some .cookie
  | [['0']], [] => some .none
  | [], [hash] => some (.hashedPassword hash)
  | _, _ => none

/-- The control interface, if it has a port. -/
def readControl : Option (Option ControlConfig) := do
  match ← readOptional readControlListen (values "ControlPort") with
  | none => return none
  | some listen =>
    let auth ← readAuth values
    let writePortToFile ← readOptional some (values "ControlPortWriteToFile")
    let owningControllerProcess ← readOptional readUInt32 (values "__OwningControllerProcess")
    return some { listen, auth, writePortToFile, owningControllerProcess }

/-- The SOCKS listeners. -/
def readSocks : Option SocksConfig := do
  let listeners ← (values "SocksPort").mapM readSocksPort
  return { listeners, rangeError := none }

/-- Address families. -/
def readNetwork : Option NetworkConfig := do
  let clientUseIpv4 ← readOptional readSwitch (values "ClientUseIPv4")
  let clientUseIpv6 ← readOptional readSwitch (values "ClientUseIPv6")
  return { clientUseIpv4, clientUseIpv6 }

/-- Circuits. -/
def readCircuits : Option CircuitConfig := do
  let maxCircuitDirtiness ← readOptional readDuration (values "MaxCircuitDirtiness")
  let newCircuitPeriod ← readOptional readDuration (values "NewCircuitPeriod")
  let circuitsAvailableTimeout ← readOptional readDuration (values "CircuitsAvailableTimeout")
  let socksTimeout ← readOptional readDuration (values "SocksTimeout")
  let circuitBuildTimeout ← readOptional readDuration (values "CircuitBuildTimeout")
  let learnCircuitBuildTimeout ← readOptional readSwitch (values "LearnCircuitBuildTimeout")
  let circuitStreamTimeout ← readOptional readDuration (values "CircuitStreamTimeout")
  let maxClientCircuitsPending ← readOptional readUInt32 (values "MaxClientCircuitsPending")
  let numEntryGuards ← readOptional readUInt32 (values "NumEntryGuards")
  let useEntryGuards ← readOptional readSwitch (values "UseEntryGuards")
  return {
    maxCircuitDirtiness, newCircuitPeriod, circuitsAvailableTimeout, socksTimeout
    circuitBuildTimeout, learnCircuitBuildTimeout, circuitStreamTimeout, maxClientCircuitsPending
    numEntryGuards, useEntryGuards }

/-- Padding. -/
def readPadding : Option PaddingConfig := do
  let connectionPadding ← readOptional readTristate (values "ConnectionPadding")
  let reducedConnectionPadding ← readOptional readSwitch (values "ReducedConnectionPadding")
  let circuitPadding ← readOptional readSwitch (values "CircuitPadding")
  let reducedCircuitPadding ← readOptional readSwitch (values "ReducedCircuitPadding")
  let keepalivePeriod ← readOptional readDuration (values "KeepalivePeriod")
  return {
    connectionPadding, reducedConnectionPadding, circuitPadding, reducedCircuitPadding
    keepalivePeriod }

/-- Bridges and plugins, if the switch of bridges is there. -/
def readBridges : Option (Option BridgeConfig) := do
  match ← readOptional readSwitch (values "UseBridges") with
  | none => return none
  | some useBridges =>
    let transportPlugins ← (values "ClientTransportPlugin").mapM readPlugin
    let bridges ← (values "Bridge").mapM readBridge
    return some { useBridges, bridges, transportPlugins }

/-- Node selection. -/
def readNodeSelection : Option NodeSelectionConfig := do
  let exitNodes ← readTexts (values "ExitNodes")
  let excludeExitNodes ← readTexts (values "ExcludeExitNodes")
  let strictNodes ← readOptional readSwitch (values "StrictNodes")
  return { exitNodes, excludeExitNodes, strictNodes }

/-- The system. -/
def readSystem : Option SystemConfig := do
  let avoidDiskWrites ← readOptional readSwitch (values "AvoidDiskWrites")
  let hardwareAccel ← readOptional readSwitch (values "HardwareAccel")
  let connLimit ← readOptional readUInt32 (values "ConnLimit")
  let disableDebuggerAttachment ← readOptional readSwitch (values "DisableDebuggerAttachment")
  return { avoidDiskWrites, hardwareAccel, connLimit, disableDebuggerAttachment }

/-- Logging. -/
def readLogging : Option LoggingConfig := do
  let logs ← (values "Log").mapM readLog
  let safeLogging ← readOptional readSwitch (values "SafeLogging")
  let syslogIdentityTag ← readOptional some (values "SyslogIdentityTag")
  return { logs, safeLogging, syslogIdentityTag }

end Read

/-- A raw option. -/
def readRawOption (entry : String × Text) : Option TorOption :=
  (TorOption.new entry.1.toList entry.2).toOption

/-- A builder, from the values of the options with a name, and from the others. -/
def readSettings (values : String → List Text) (others : List (String × Text)) :
    Option TorConfigBuilder := do
  let dataDirectory ← match values "DataDirectory" with
    | [path] => some path
    | _ => none
  let control ← readControl values
  let socks ← readSocks values
  let network ← readNetwork values
  let circuits ← readCircuits values
  let padding ← readPadding values
  let bridges ← readBridges values
  let nodeSelection ← readNodeSelection values
  let system ← readSystem values
  let logging ← readLogging values
  let rawOptions ← others.mapM readRawOption
  return {
    dataDirectory, control, socks, network, circuits, padding, bridges, nodeSelection, system
    logging, rawOptions }

/-- The name of an entry, and the value behind the first space. -/
def readEntry (entry : Text) : Option (String × Text) :=
  (splitOnce ' ' entry).map fun (name, value) => (String.ofList name, value)

/-- A builder, from the entries of a text. -/
def readConfig (text : Text) : Option TorConfigBuilder := do
  let settings ← (entries text).mapM readEntry
  readSettings (valuesOf settings) (withoutNames settingNames settings)

/-! ## What is written -/

/-- What is written of a control interface. -/
def ControlConfig.written (control : ControlConfig) : ControlConfig :=
  { control with listen := control.listen.written }

/-- What is written of circuits: durations in whole seconds. -/
def CircuitConfig.written (circuits : CircuitConfig) : CircuitConfig :=
  { circuits with
    maxCircuitDirtiness := circuits.maxCircuitDirtiness.map wholeSeconds
    newCircuitPeriod := circuits.newCircuitPeriod.map wholeSeconds
    circuitsAvailableTimeout := circuits.circuitsAvailableTimeout.map wholeSeconds
    socksTimeout := circuits.socksTimeout.map wholeSeconds
    circuitBuildTimeout := circuits.circuitBuildTimeout.map wholeSeconds
    circuitStreamTimeout := circuits.circuitStreamTimeout.map wholeSeconds }

/-- What is written of padding: durations in whole seconds. -/
def PaddingConfig.written (padding : PaddingConfig) : PaddingConfig :=
  { padding with keepalivePeriod := padding.keepalivePeriod.map wholeSeconds }

/-- What is written of a builder. -/
def TorConfigBuilder.written (builder : TorConfigBuilder) : TorConfigBuilder :=
  { builder with
    control := builder.control.map (·.written)
    socks := { listeners := builder.socks.listeners.map (·.written), rangeError := none }
    circuits := builder.circuits.written
    padding := builder.padding.written }

/-- The strings of a builder can be told apart where they are written: no string breaks a line or
ends in a backslash, raw options set options of their own, lists have no commas, the paths of SOCKS
listeners no spaces, no listener has an IPv6 address with a port that Tor chooses, and the words of
plugins and bridges can be told apart. -/
structure TorConfigBuilder.IsLegible (builder : TorConfigBuilder) : Prop where
  unbroken : ∀ text ∈ builder.strings, IsUnbroken text
  raw : ∀ option ∈ builder.rawOptions, ¬ option.isComment ∧ ¬ isContinued option.value ∧
    String.ofList option.key ∉ settingNames
  control : ∀ control ∈ builder.control, ∀ l ∈ control.listen.tcpListener, ¬ l.IsAutoV6
  socks : ∀ listener ∈ builder.socks.listeners, (∀ l ∈ listener.tcpListener, ¬ l.IsAutoV6) ∧
    ∀ path, listener.port = .unix path → ' ' ∉ path
  nodes : ∀ text ∈ builder.nodeSelection.exitNodes ++ builder.nodeSelection.excludeExitNodes,
    ',' ∉ text
  bridges : ∀ bridges ∈ builder.bridges, (∀ plugin ∈ bridges.transportPlugins, plugin.IsLegible) ∧
    ∀ bridge ∈ bridges.bridges, bridge.IsLegible

/-! ## Sections are read back -/

section Agrees

variable {values : String → List Text}

/-- Address families are read back. -/
theorem readNetwork_of_agrees {network : NetworkConfig} (h : Agrees values network.table) :
    readNetwork values = some network := by
  obtain ⟨hipv4, hipv6, -⟩ := by
    simpa only [NetworkConfig.table, switchRow, agrees_cons] using h
  unfold readNetwork
  simp only [hipv4, hipv6, readOptional_switch, Option.bind_eq_bind, Option.bind_some]
  rfl

/-- Circuits are read back in whole seconds. -/
theorem readCircuits_of_agrees {circuits : CircuitConfig} (h : Agrees values circuits.table) :
    readCircuits values = some circuits.written := by
  obtain ⟨hdirtiness, hperiod, havailable, hsocks, hbuild, hlearn, hstream, hpending, hguards, huse,
    -⟩ := by
      simpa only [CircuitConfig.table, switchRow, numberRow, durationRow, agrees_cons] using h
  unfold readCircuits
  simp only [hdirtiness, hperiod, havailable, hsocks, hbuild, hlearn, hstream, hpending, hguards,
    huse, readOptional_switch, readOptional_number, readOptional_duration, Option.bind_eq_bind,
    Option.bind_some]
  rfl

/-- Padding is read back in whole seconds. -/
theorem readPadding_of_agrees {padding : PaddingConfig} (h : Agrees values padding.table) :
    readPadding values = some padding.written := by
  obtain ⟨hpadding, hreduced, hcircuit, hreducedCircuit, hkeepalive, -⟩ := by
    simpa only [PaddingConfig.table, switchRow, durationRow, agrees_cons] using h
  have htristate : readOptional readTristate (padding.connectionPadding.map (·.display)).toList =
      some padding.connectionPadding := readOptional_map fun value _ => readTristate_display value
  unfold readPadding
  simp only [hpadding, hreduced, hcircuit, hreducedCircuit, hkeepalive, htristate,
    readOptional_switch, readOptional_duration, Option.bind_eq_bind, Option.bind_some]
  rfl

/-- The system is read back. -/
theorem readSystem_of_agrees {system : SystemConfig} (h : Agrees values system.table) :
    readSystem values = some system := by
  obtain ⟨hwrites, haccel, hlimit, hdebugger, -⟩ := by
    simpa only [SystemConfig.table, switchRow, numberRow, agrees_cons] using h
  unfold readSystem
  simp only [hwrites, haccel, hlimit, hdebugger, readOptional_switch, readOptional_number,
    Option.bind_eq_bind, Option.bind_some]
  rfl

/-- Node selection is read back, if its lists have no commas. -/
theorem readNodeSelection_of_agrees {nodes : NodeSelectionConfig} (h : Agrees values nodes.table)
    (hnodes : ∀ text ∈ nodes.exitNodes ++ nodes.excludeExitNodes, ',' ∉ text) :
    readNodeSelection values = some nodes := by
  obtain ⟨hexit, hexclude, hstrict, -⟩ := by
    simpa only [NodeSelectionConfig.table, switchRow, agrees_cons] using h
  obtain ⟨hexits, hexcludes⟩ := List.forall_mem_append.mp hnodes
  unfold readNodeSelection
  simp only [hexit, hexclude, hstrict, readTexts_textsValue hexits, readTexts_textsValue hexcludes,
    readOptional_switch, Option.bind_eq_bind, Option.bind_some]
  rfl

/-- Logging is read back. -/
theorem readLogging_of_agrees {logging : LoggingConfig} (h : Agrees values logging.table) :
    readLogging values = some logging := by
  obtain ⟨hlog, hsafe, htag, -⟩ := by
    simpa only [LoggingConfig.table, switchRow, agrees_cons] using h
  have hlogs : (logging.logs.map logValue).mapM readLog = some logging.logs :=
    mapM_read_map fun log _ => readLog_value log
  unfold readLogging
  simp only [hlog, hsafe, htag, hlogs, readOptional_switch, readOptional_text, Option.bind_eq_bind,
    Option.bind_some]
  rfl

/-- SOCKS listeners are read back as far as they are written. -/
theorem readSocks_of_agrees {listeners : List SocksPort}
    (h : Agrees values [("SocksPort", listeners.map socksValue)])
    (hlisteners : ∀ listener ∈ listeners, (∀ l ∈ listener.tcpListener, ¬ l.IsAutoV6) ∧
      ∀ path, listener.port = .unix path → ' ' ∉ path) :
    readSocks values = some { listeners := listeners.map (·.written), rangeError := none } := by
  obtain ⟨hsocks, -⟩ := agrees_cons.mp h
  have hread : (listeners.map socksValue).mapM readSocksPort =
      some (listeners.map (·.written)) :=
    mapM_read_written fun listener hmem =>
      readSocksPort_value (hlisteners listener hmem).1 (hlisteners listener hmem).2
  unfold readSocks
  simp only [hsocks, hread, Option.bind_eq_bind, Option.bind_some]
  rfl

/-- How a controller authenticates is read back. -/
theorem readAuth_of_agrees {auth : ControlAuth}
    (hcookie : values "CookieAuthentication" = (cookieValue auth).toList)
    (hpassword : values "HashedControlPassword" = (passwordValue auth).toList) :
    readAuth values = some auth := by
  unfold readAuth
  rw [hcookie, hpassword]
  cases auth <;> rfl

/-- The control interface is read back as far as it is written. -/
theorem readControl_of_agrees {control : Option ControlConfig}
    (h : Agrees values (controlTable control))
    (hauto : ∀ config ∈ control, ∀ l ∈ config.listen.tcpListener, ¬ l.IsAutoV6) :
    readControl values = some (control.map (·.written)) := by
  obtain ⟨hport, hcookie, hpassword, hfile, howner, -⟩ := by
    simpa only [controlTable, numberRow, agrees_cons] using h
  unfold readControl
  cases control with
  | none =>
    rw [Option.map_none, Option.toList_none] at hport
    rw [hport]
    rfl
  | some config =>
    have hlisten := readControlListen_value (hauto config rfl)
    have hread : readOptional readControlListen [controlValue config.listen] =
        some (some config.listen.written) := by
      show (readControlListen (controlValue config.listen)).map some = _
      rw [hlisten, Option.map_some]
    rw [Option.map_some, Option.toList_some] at hport
    rw [Option.bind_some] at hcookie hpassword hfile howner
    simp only [hport, hread, readAuth_of_agrees hcookie hpassword, hfile, howner,
      readOptional_text, readOptional_number, Option.bind_eq_bind, Option.bind_some]
    rfl

/-- Bridges and plugins are read back. -/
theorem readBridges_of_agrees {bridges : Option BridgeConfig}
    (h : Agrees values (bridgesTable bridges))
    (hlegible : ∀ config ∈ bridges, (∀ plugin ∈ config.transportPlugins, plugin.IsLegible) ∧
      ∀ bridge ∈ config.bridges, bridge.IsLegible) :
    readBridges values = some bridges := by
  obtain ⟨huse, hplugins, hbridges, -⟩ := by
    simpa only [bridgesTable, switchRow, agrees_cons] using h
  unfold readBridges
  cases bridges with
  | none =>
    rw [Option.map_none, Option.map_none, Option.toList_none] at huse
    rw [huse]
    rfl
  | some config =>
    obtain ⟨hplugin, hbridge⟩ := hlegible config rfl
    have hreadPlugins := mapM_read_map fun plugin hmem => readPlugin_render (hplugin plugin hmem)
    have hreadBridges := mapM_read_map fun bridge hmem => readBridge_parts (hbridge bridge hmem)
    rw [Option.map_some, Option.getD_some] at hplugins hbridges
    simp only [huse, readOptional_switch, Option.bind_eq_bind, Option.bind_some]
    rw [Option.map_some]
    simp only [hplugins, hbridges, hreadPlugins, hreadBridges, Option.bind_some]
    rfl

end Agrees

/-! ## A configuration is read back -/

/-- A raw option's key has no space. -/
theorem TorOption.notMem_key (option : TorOption) : ' ' ∉ option.key := by
  intro hmem
  obtain ⟨-, hchars⟩ : option.key ≠ [] ∧ ∀ c ∈ option.key,
      isWhitespace c = false ∧ corruptsLine c = false := by
    simpa [validKey] using option.valid_key
  exact absurd (hchars ' ' hmem).1 (by decide)

/-- A raw option is read back. -/
theorem readRawOption_entry (option : TorOption) :
    readRawOption (String.ofList option.key, option.value) = some option := by
  unfold readRawOption TorOption.new
  simp only [String.toList_ofList, option.valid_key, option.valid_value, dif_pos]
  rfl

/-- A builder is read back as far as it is written. -/
theorem readSettings_of_agrees {values : String → List Text} {builder : TorConfigBuilder}
    (h : Agrees values builder.table) (hlegible : builder.IsLegible) :
    readSettings values (rawEntries builder.rawOptions) = some builder.written := by
  obtain ⟨hearlier, hlater⟩ := agrees_append.mp h
  obtain ⟨hfirst, hsocks⟩ := agrees_append.mp hearlier
  obtain ⟨hdirectory, hcontrol⟩ := agrees_cons.mp hfirst
  obtain ⟨⟨⟨⟨⟨⟨hnetwork, hcircuits⟩, hpadding⟩, hbridges⟩, hnodes⟩, hsystem⟩, hlogging⟩ := by
    simpa only [TorConfigBuilder.laterTable, agrees_append] using hlater
  have hraw : (rawEntries builder.rawOptions).mapM readRawOption = some builder.rawOptions :=
    mapM_read_map fun option _ => readRawOption_entry option
  unfold readSettings
  simp only [hdirectory, readControl_of_agrees hcontrol hlegible.control,
    readSocks_of_agrees hsocks hlegible.socks, readNetwork_of_agrees hnetwork,
    readCircuits_of_agrees hcircuits, readPadding_of_agrees hpadding,
    readBridges_of_agrees hbridges hlegible.bridges,
    readNodeSelection_of_agrees hnodes hlegible.nodes, readSystem_of_agrees hsystem,
    readLogging_of_agrees hlogging, hraw, Option.bind_eq_bind, Option.bind_some]
  rfl

/-- The text of a legible configuration is read as what is written of its builder. -/
theorem readConfig_of_isLegible {config : TorConfig} (h : config.IsLegible) :
    readConfig config.render = some config.written := by
  have hentries := entries_eq_table h.unbroken fun option hoption =>
    ⟨(h.raw option hoption).1, (h.raw option hoption).2.1⟩
  have hothers : ∀ entry ∈ rawEntries config.rawOptions, entry.1 ∉ settingNames := by
    simp only [rawEntries, List.forall_mem_map]
    exact fun option hoption => (h.raw option hoption).2.2
  have hwords : ∀ name ∈ settingNames, ' ' ∉ name.toList := by decide
  have hread : (entries config.render).mapM readEntry =
      some (flatten config.table ++ rawEntries config.rawOptions) := by
    rw [hentries]
    refine mapM_read_map fun entry hentry => ?_
    have hspace : ' ' ∉ entry.1.toList := by
      rcases List.mem_append.mp hentry with hmem | hmem
      · have hname := mem_names_table.mp (mem_names_of_mem_flatten hmem)
        exact hwords entry.1 hname
      · obtain ⟨option, -, rfl⟩ := List.mem_map.mp hmem
        rw [String.toList_ofList]
        exact option.notMem_key
    have hsplit : splitOnce ' ' (optionLine entry.1 entry.2) = some (entry.1.toList, entry.2) :=
      splitOnce_eq_some_iff.mpr ⟨rfl, hspace⟩
    show readEntry (optionLine entry.1 entry.2) = some entry
    unfold readEntry
    rw [hsplit, Option.map_some]
    show some (String.ofList entry.1.toList, entry.2) = some entry
    rw [String.ofList_toList]
  have hagrees : Agrees (valuesOf (flatten config.table ++ rawEntries config.rawOptions))
      config.table :=
    agrees_flatten (nodup_table _) fun entry hentry hname =>
      hothers entry hentry (mem_names_table.mp hname)
  have hrest : withoutNames settingNames
      (flatten config.table ++ rawEntries config.rawOptions) = rawEntries config.rawOptions :=
    withoutNames_flatten (fun name hname => mem_names_table.mp hname) hothers
  unfold readConfig
  rw [hread, Option.bind_eq_bind, Option.bind_some, hrest]
  exact readSettings_of_agrees hagrees h

/-! ## What is read back is accepted -/

namespace TorConfigBuilder

/-- A listener has the same fixed port where it is written. -/
theorem tcpPort_written (listen : ControlListen) : listen.written.tcpPort = listen.tcpPort := by
  cases listen with
  | unix path => rfl
  | tcp addr port => cases port <;> rfl

/-- The fixed ports are written. -/
theorem fixedPorts_written (builder : TorConfigBuilder) :
    builder.written.fixedPorts = builder.fixedPorts := by
  have hport (listener : SocksPort) : listener.written.port = listener.port := by
    obtain ⟨addr, port, flags, isolation⟩ := listener
    cases port <;> rfl
  unfold fixedPorts
  have hcontrol : builder.written.control = builder.control.map (·.written) := rfl
  have hsocks : builder.written.socks.listeners = builder.socks.listeners.map (·.written) := rfl
  rw [hcontrol, hsocks, Option.bind_map, List.filterMap_map]
  simp only [Function.comp_def, ControlConfig.written, tcpPort_written, hport]

/-- A control port that is accepted is accepted as it is written, with the same warnings. -/
theorem validateControl_written {control : ControlConfig} {warnings : List TorConfigWarning}
    (h : validateControl control = .ok warnings) :
    validateControl control.written = .ok warnings := by
  obtain ⟨listen, auth, file, owner⟩ := control
  cases listen with
  | unix path => exact h
  | tcp addr port =>
    cases port with
    | num n => exact h
    | auto => exact h
    | unix path =>
      by_cases hexposed : auth = .none ∧ ¬ (ControlListen.tcp addr (.unix path)).isLoopbackTcp
      · unfold validateControl at h
        rw [if_pos hexposed] at h
        cases h
      unfold validateControl at h
      rw [if_neg hexposed] at h
      -- A Unix socket is not exposed either, and has no automatic port.
      have hsafe : ¬ (auth = .none ∧ ¬ (ControlListen.unix path).isLoopbackTcp) :=
        fun hauth => hauth.2 rfl
      show validateControl ⟨.unix path, auth, file, owner⟩ = .ok warnings
      unfold validateControl
      rw [if_neg hsafe]
      exact h

/-- What `build` demands of a builder, and what it returns. -/
structure Accepts (builder : TorConfigBuilder) (config : TorConfig) : Prop where
  rangeError : builder.socks.rangeError = none
  exists_listener : ¬ (builder.control = none ∧ builder.socks.listeners = [])
  nodup : builder.validateDuplicatePorts = .ok ()
  bridges : ∀ bridges ∈ builder.bridges, bridges.validate = .ok ()
  warnings : ∃ warnings, builder.controlWarnings = .ok warnings ∧ config =
    { toTorConfigBuilder := builder, warnings := warnings ++ builder.otherWarnings }

/-- The check of the bridges, if there are any. -/
def bridgesCheck (builder : TorConfigBuilder) : Except TorConfigError Unit :=
  match builder.bridges with
  | some bridges => bridges.validate
  | none => .ok ()

/-- The other checks, where a port range has left no error. -/
theorem build_of_rangeError_none {builder : TorConfigBuilder}
    (hrange : builder.socks.rangeError = none) : builder.build =
      if builder.control = none ∧ builder.socks.listeners = [] then .error .noListeners
      else do
        let warnings ← builder.controlWarnings
        builder.validateDuplicatePorts
        builder.bridgesCheck
        return {
          toTorConfigBuilder := builder
          warnings := warnings ++ builder.otherWarnings } := by
  unfold build controlWarnings bridgesCheck
  rw [hrange]
  cases builder.control <;> split_ifs <;> cases builder.bridges <;> rfl

/-- The check of the bridges passes if they are accepted. -/
theorem bridgesCheck_eq_ok_iff {builder : TorConfigBuilder} :
    builder.bridgesCheck = .ok () ↔ ∀ bridges ∈ builder.bridges, bridges.validate = .ok () := by
  unfold bridgesCheck
  cases builder.bridges <;> simp

/-- All checks have passed where a configuration is returned, and if they pass, one is. -/
theorem build_eq_ok_iff {builder : TorConfigBuilder} {config : TorConfig} :
    builder.build = .ok config ↔ Accepts builder config := by
  constructor
  · intro h
    cases hrange : builder.socks.rangeError with
    | some error =>
      rw [build_of_rangeError hrange] at h
      cases h
    | none =>
      rw [build_of_rangeError_none hrange] at h
      by_cases hlistener : builder.control = none ∧ builder.socks.listeners = []
      · rw [if_pos hlistener] at h
        cases h
      rw [if_neg hlistener] at h
      -- The checks are made one after the other, and each of them has passed.
      cases hwarnings : builder.controlWarnings with
      | error error =>
        rw [hwarnings] at h
        cases h
      | ok warnings =>
        cases hnodup : builder.validateDuplicatePorts with
        | error error =>
          rw [hwarnings, hnodup] at h
          cases h
        | ok =>
          cases hbridges : builder.bridgesCheck with
          | error error =>
            rw [hwarnings, hnodup, hbridges] at h
            cases h
          | ok =>
            rw [hwarnings, hnodup, hbridges] at h
            exact ⟨hrange, hlistener, hnodup, bridgesCheck_eq_ok_iff.mp hbridges, warnings,
              hwarnings, (Except.ok.inj h).symm⟩
  · rintro ⟨hrange, hlistener, hnodup, hbridges, warnings, hwarnings, rfl⟩
    rw [build_of_rangeError_none hrange, if_neg hlistener, hwarnings, hnodup,
      bridgesCheck_eq_ok_iff.mpr hbridges]
    rfl

/-- What is written of an accepted builder is accepted, with the same warnings. -/
theorem build_written {builder : TorConfigBuilder} {config : TorConfig}
    (h : builder.build = .ok config) : builder.written.build =
      .ok { toTorConfigBuilder := builder.written, warnings := config.warnings } := by
  obtain ⟨hrange, hlistener, hnodup, hbridges, warnings, hwarnings, rfl⟩ := build_eq_ok_iff.mp h
  refine build_eq_ok_iff.mpr ⟨rfl, ?_, ?_, hbridges, warnings, ?_, ?_⟩
  · rintro ⟨hcontrol, hsocks⟩
    exact hlistener ⟨Option.map_eq_none_iff.mp hcontrol, List.map_eq_nil_iff.mp hsocks⟩
  · rw [validateDuplicatePorts_eq, fixedPorts_written, ← validateDuplicatePorts_eq, hnodup]
  · have hcontrol : builder.written.control = builder.control.map (·.written) := rfl
    unfold controlWarnings at hwarnings ⊢
    rw [hcontrol]
    cases hconfig : builder.control with
    | none =>
      rw [hconfig] at hwarnings
      exact hwarnings
    | some control =>
      rw [hconfig] at hwarnings
      exact validateControl_written hwarnings
  · have hother : builder.written.otherWarnings = builder.otherWarnings := by
      have hlength : builder.written.socks.listeners.length = builder.socks.listeners.length :=
        List.length_map _
      unfold otherWarnings
      rw [hlength]
      rfl
    rw [hother]

end TorConfigBuilder

/-- What is written of a configuration has the same text. -/
theorem render_written (config : TorConfig) (warnings : List TorConfigWarning) :
    ({ toTorConfigBuilder := config.written, warnings } : TorConfig).render = config.render := by
  have hcontrol : (config.control.map (·.written)).map renderControl =
      config.control.map renderControl := by
    have hport (listen : ControlListen) :
        renderControlPort listen.written = renderControlPort listen := by
      cases listen with
      | unix path => rfl
      | tcp addr port => cases port <;> rfl
    have hlines (control : ControlConfig) :
        renderControl control.written = renderControl control := by
      unfold renderControl ControlConfig.written
      rw [hport]
    rw [Option.map_map]
    exact Option.map_congr fun control _ => hlines control
  have hsocks : (config.socks.listeners.map (·.written)).map renderSocksPort =
      config.socks.listeners.map renderSocksPort := by
    have hport (listener : SocksPort) :
        renderSocksPort listener.written = renderSocksPort listener := by
      obtain ⟨addr, port, flags, isolation⟩ := listener
      cases port <;> rfl
    rw [List.map_map]
    exact List.map_congr_left fun listener _ => hport listener
  have hduration (name : String) (value : Option ℕ) :
      durationLine name (value.map wholeSeconds) = durationLine name value := by
    cases value with
    | none => rfl
    | some duration =>
      show some (optionLine name (decimal (asSecs (wholeSeconds duration)))) = _
      rw [asSecs_wholeSeconds]
      rfl
  have hsections : sections { toTorConfigBuilder := config.written, warnings } =
      sections config := by
    simp only [sections, TorConfigBuilder.written, CircuitConfig.written, PaddingConfig.written,
      hcontrol, hsocks, hduration]
  unfold TorConfig.render
  rw [hsections]

/-- The text of an accepted configuration that is legible is read as what is written of its builder.
That is accepted as well, with the same warnings, and has the same text. -/
theorem readConfig_render {builder : TorConfigBuilder} {config : TorConfig}
    (h : builder.build = .ok config) (hlegible : builder.IsLegible) :
    readConfig config.render = some builder.written ∧
      ∃ config', builder.written.build = .ok config' ∧ config'.warnings = config.warnings ∧
        config'.render = config.render := by
  obtain rfl := TorConfigBuilder.build_eq_ok h
  exact ⟨readConfig_of_isLegible hlegible, _, TorConfigBuilder.build_written h, rfl,
    render_written config config.warnings⟩

/-- A builder with settings of each kind. -/
def fullBuilder : TorConfigBuilder :=
  { TorConfigBuilder.new "/tmp/tor/data".toList with
    control := some (ControlConfig.autoTcp.withPortFile "/tmp/tor/control-port".toList)
    socks := (SocksConfig.isolatedAuth (.unix "/tmp/tor/socks".toList)).listener
      ⟨.v6 (.ofGroups [0, 0, 0, 0, 0, 0, 0, 1]), .num 9050, [.cacheDNS], [.sessionGroup (-1)]⟩
    circuits := { CircuitConfig.default with newCircuitPeriod := some 1500000000 }
    bridges := some {
      useBridges := true
      bridges := [⟨some "obfs4".toList, .v4 .localhost 443, some "0123456789ABCDEF".toList,
        [("cert".toList, "abc=".toList), ("iat-mode".toList, ['0'])]⟩]
      transportPlugins := [⟨["obfs4".toList], "/usr/bin/lyrebird".toList, []⟩] }
    nodeSelection := ⟨["first".toList, "second".toList], [], some true⟩
    logging := ⟨[⟨.notice, .file "/tmp/tor/notice log".toList⟩], none, none⟩
    rawOptions := [plainOption] }

/-- A configuration with settings of each kind is read back, and the half second of one of them is
lost. -/
theorem readConfig_render_fullBuilder : ∃ config, fullBuilder.build = .ok config ∧
    readConfig config.render = some fullBuilder.written ∧
      fullBuilder.written.circuits.newCircuitPeriod = some 1000000000 := by
  refine ⟨_, rfl, (readConfig_render rfl ?_).1, rfl⟩
  constructor
  · unfold IsUnbroken
    decide
  · decide
  · intro control hcontrol l hl
    obtain rfl := Option.some.inj hcontrol
    obtain rfl := Option.some.inj hl
    exact fun hauto => by simpa using hauto.2
  · intro listener hlistener
    rcases List.mem_pair.mp hlistener with rfl | rfl
    · refine ⟨fun l hl => Option.some_ne_none l hl.symm |>.elim, fun path hpath => ?_⟩
      obtain rfl := PortSpec.unix.inj hpath
      decide
    · refine ⟨fun l hl hauto => ?_, fun path hpath => by cases hpath⟩
      obtain rfl := Option.some.inj hl
      exact Option.some_ne_none _ hauto.1
  · decide
  · intro bridges hbridges
    obtain rfl := Option.some.inj hbridges
    constructor
    · intro plugin hplugin
      obtain rfl := List.mem_singleton.mp hplugin
      exact ⟨by decide, by decide, by decide⟩
    · intro bridge hbridge
      obtain rfl := List.mem_singleton.mp hbridge
      refine ⟨by decide, fun transport htransport => ?_, by decide, by decide⟩
      obtain rfl := Option.some.inj htransport
      decide

end Torlane
