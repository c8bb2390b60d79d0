import Torlane.Torc.RawOptions
import Torlane.Torc.Values

/-!
# The tables of a configuration

Each section of the text that `render_config` of `src/tor/torc/render.rs` writes is a table: the
names of its options, with the values that are written behind them. `entries_eq_table` says that the
entries of the text are those of the table of the whole configuration, and the raw options behind
them.
-/

namespace Torlane

open Text Table

/-- The lines of a table. -/
def tableLines (table : List (String × List Text)) : List Text :=
  (flatten table).map fun (name, value) => optionLine name value

/-- The row of an optional switch. -/
def switchRow (name : String) (value : Option Bool) : String × List Text :=
  (name, (value.map displayFlag).toList)

/-- The row of an optional number. -/
def numberRow (name : String) (value : Option UInt32) : String × List Text :=
  (name, (value.map fun n => decimal n.toNat).toList)

/-- The row of an optional duration. -/
def durationRow (name : String) (value : Option ℕ) : String × List Text :=
  (name, (value.map fun duration => decimal (asSecs duration)).toList)

/-! ## The sections of a text -/

/-- The value of the cookie's switch. -/
def cookieValue : ControlAuth → Option Text
  | .cookie => some ['1']
  | .hashedPassword _ => none
  | .none => some ['0']

/-- The value of a password's line. -/
def passwordValue : ControlAuth → Option Text
  | .hashedPassword hash => some hash
  | _ => none

/-- The table of the control interface. -/
def controlTable (control : Option ControlConfig) : List (String × List Text) :=
  [("ControlPort", (control.map fun config => controlValue config.listen).toList),
    ("CookieAuthentication", (control.bind fun config => cookieValue config.auth).toList),
    ("HashedControlPassword", (control.bind fun config => passwordValue config.auth).toList),
    ("ControlPortWriteToFile", (control.bind (·.writePortToFile)).toList),
    numberRow "__OwningControllerProcess" (control.bind (·.owningControllerProcess))]

/-- The table of address families. -/
def NetworkConfig.table (network : NetworkConfig) : List (String × List Text) :=
  [switchRow "ClientUseIPv4" network.clientUseIpv4, switchRow "ClientUseIPv6" network.clientUseIpv6]

/-- The table of circuits. -/
def CircuitConfig.table (circuits : CircuitConfig) : List (String × List Text) :=
  [durationRow "MaxCircuitDirtiness" circuits.maxCircuitDirtiness,
    durationRow "NewCircuitPeriod" circuits.newCircuitPeriod,
    durationRow "CircuitsAvailableTimeout" circuits.circuitsAvailableTimeout,
    durationRow "SocksTimeout" circuits.socksTimeout,
    durationRow "CircuitBuildTimeout" circuits.circuitBuildTimeout,
    switchRow "LearnCircuitBuildTimeout" circuits.learnCircuitBuildTimeout,
    durationRow "CircuitStreamTimeout" circuits.circuitStreamTimeout,
    numberRow "MaxClientCircuitsPending" circuits.maxClientCircuitsPending,
    numberRow "NumEntryGuards" circuits.numEntryGuards,
    switchRow "UseEntryGuards" circuits.useEntryGuards]

/-- The table of padding. -/
def PaddingConfig.table (padding : PaddingConfig) : List (String × List Text) :=
  [("ConnectionPadding", (padding.connectionPadding.map (·.display)).toList),
    switchRow "ReducedConnectionPadding" padding.reducedConnectionPadding,
    switchRow "CircuitPadding" padding.circuitPadding,
    switchRow "ReducedCircuitPadding" padding.reducedCircuitPadding,
    durationRow "KeepalivePeriod" padding.keepalivePeriod]

/-- The table of bridges and plugins. -/
def bridgesTable (bridges : Option BridgeConfig) : List (String × List Text) :=
  [switchRow "UseBridges" (bridges.map (·.useBridges)),
    ("ClientTransportPlugin", ((bridges.map (·.transportPlugins)).getD []).map renderPlugin),
    ("Bridge", ((bridges.map (·.bridges)).getD []).map fun bridge =>
      [' '].intercalate (bridgeParts bridge))]

/-- The table of node selection. -/
def NodeSelectionConfig.table (nodes : NodeSelectionConfig) : List (String × List Text) :=
  [("ExitNodes", textsValue nodes.exitNodes),
    ("ExcludeExitNodes", textsValue nodes.excludeExitNodes),
    switchRow "StrictNodes" nodes.strictNodes]

/-- The table of the system. -/
def SystemConfig.table (system : SystemConfig) : List (String × List Text) :=
  [switchRow "AvoidDiskWrites" system.avoidDiskWrites,
    switchRow "HardwareAccel" system.hardwareAccel,
    numberRow "ConnLimit" system.connLimit,
    switchRow "DisableDebuggerAttachment" system.disableDebuggerAttachment]

/-- The table of logging. -/
def LoggingConfig.table (logging : LoggingConfig) : List (String × List Text) :=
  [("Log", logging.logs.map logValue),
    switchRow "SafeLogging" logging.safeLogging,
    ("SyslogIdentityTag", logging.syslogIdentityTag.toList)]

/-- The table of the sections up to that of the SOCKS listeners. -/
def TorConfigBuilder.earlierTable (builder : TorConfigBuilder) : List (String × List Text) :=
  ("DataDirectory", [builder.dataDirectory]) :: controlTable builder.control ++
    [("SocksPort", builder.socks.listeners.map socksValue)]

/-- The table of the sections behind that of the SOCKS listeners. -/
def TorConfigBuilder.laterTable (builder : TorConfigBuilder) : List (String × List Text) :=
  builder.network.table ++ builder.circuits.table ++ builder.padding.table ++
    bridgesTable builder.bridges ++ builder.nodeSelection.table ++ builder.system.table ++
    builder.logging.table

/-- The table of a builder. -/
def TorConfigBuilder.table (builder : TorConfigBuilder) : List (String × List Text) :=
  builder.earlierTable ++ builder.laterTable

/-! ## The lines of a table -/

@[simp] theorem tableLines_nil : tableLines [] = [] := rfl

/-- The lines of a row, and of the rows behind it. -/
@[simp] theorem tableLines_cons (row : String × List Text) (table : List (String × List Text)) :
    tableLines (row :: table) = row.2.map (optionLine row.1) ++ tableLines table := by
  rw [tableLines, flatten, List.flatMap_cons, List.map_append, List.map_map]
  rfl

@[simp] theorem tableLines_append (table table' : List (String × List Text)) :
    tableLines (table ++ table') = tableLines table ++ tableLines table' := by
  rw [tableLines, flatten, List.flatMap_append, List.map_append]
  rfl

/-- The line of a switch. -/
theorem tableLines_switchRow (name : String) (value : Option Bool) :
    (flagLine name value).toList = (switchRow name value).2.map (optionLine name) := by
  cases value <;> rfl

/-- The line of a number. -/
theorem tableLines_numberRow (name : String) (value : Option UInt32) :
    (numberLine name value).toList = (numberRow name value).2.map (optionLine name) := by
  cases value <;> rfl

/-- The line of a duration. -/
theorem tableLines_durationRow (name : String) (value : Option ℕ) :
    (durationLine name value).toList = (durationRow name value).2.map (optionLine name) := by
  cases value <;> rfl

/-- The line of a list. -/
theorem tableLines_texts (name : String) (texts : List Text) :
    (nonEmptyList name texts).toList = (textsValue texts).map (optionLine name) := by
  unfold nonEmptyList textsValue
  split_ifs <;> rfl

/-- The lines that are there. -/
theorem present_eq_flatMap (items : List (Option Text)) :
    present items = items.flatMap (·.toList) := by
  have hlines := flatMap_present (fun line => [line]) items
  simpa only [List.flatMap_singleton'] using hlines

/-- The lines of the control interface. -/
theorem renderControl_eq (control : Option ControlConfig) :
    (control.map renderControl).getD [] = tableLines (controlTable control) := by
  cases control with
  | none => rfl
  | some control =>
    obtain ⟨listen, auth, file, owner⟩ := control
    have hport : renderControlPort listen = optionLine "ControlPort" (controlValue listen) := by
      cases listen <;> rfl
    have hauth : [match auth with
        | .cookie => optionLine "CookieAuthentication" ['1']
        | .hashedPassword hash => optionLine "HashedControlPassword" hash
        | .none => optionLine "CookieAuthentication" ['0']] =
          (cookieValue auth).toList.map (optionLine "CookieAuthentication") ++
            (passwordValue auth).toList.map (optionLine "HashedControlPassword") := by
      cases auth <;> rfl
    have hlines : renderControl ⟨listen, auth, file, owner⟩ = [renderControlPort listen] ++
        [match auth with
          | .cookie => optionLine "CookieAuthentication" ['1']
          | .hashedPassword hash => optionLine "HashedControlPassword" hash
          | .none => optionLine "CookieAuthentication" ['0']] ++
        (file.map (optionLine "ControlPortWriteToFile")).toList ++
        (numberLine "__OwningControllerProcess" owner).toList := rfl
    rw [Option.map_some, Option.getD_some, hlines, hauth, hport, tableLines_numberRow,
      Option.toList_map]
    simp [controlTable, numberRow]

/-- The lines up to those of the SOCKS listeners. -/
theorem earlierLines_eq (config : TorConfig) :
    earlierLines config = tableLines config.earlierTable := by
  have hsocks (listener : SocksPort) :
      renderSocksPort listener = optionLine "SocksPort" (socksValue listener) := by
    rw [renderSocksPort_eq, socksValue, intercalate_cons]
  unfold earlierLines TorConfigBuilder.earlierTable
  rw [renderControl_eq]
  simp [hsocks]

/-- The lines of bridges and plugins. -/
theorem renderBridges_eq (bridges : Option BridgeConfig) :
    (bridges.map renderBridges).getD [] = tableLines (bridgesTable bridges) := by
  cases bridges with
  | none => rfl
  | some bridges =>
    simp [bridgesTable, renderBridges, switchRow, renderBridge_eq, Function.comp_def]

/-- The lines of logging. -/
theorem renderLogging_eq (logging : LoggingConfig) :
    renderLogging logging = tableLines logging.table := by
  unfold renderLogging LoggingConfig.table
  rw [tableLines_switchRow, Option.toList_map]
  simp [logValue, switchRow]

/-- The lines behind those of the SOCKS listeners. -/
theorem laterLines_eq (config : TorConfig) :
    laterLines config = tableLines config.laterTable := by
  have hpadding : (config.padding.connectionPadding.map fun v =>
      optionLine "ConnectionPadding" v.display).toList =
        (config.padding.connectionPadding.map (·.display)).toList.map
          (optionLine "ConnectionPadding") := by
    cases config.padding.connectionPadding <;> rfl
  simp only [laterLines, sections, List.dropLast_cons_cons, List.dropLast_singleton,
    List.drop_succ_cons, List.drop_zero, List.flatMap_cons, List.flatMap_nil, present_eq_flatMap,
    tableLines_switchRow, tableLines_numberRow, tableLines_durationRow, tableLines_texts, hpadding,
    renderBridges_eq, renderLogging_eq]
  simp only [TorConfigBuilder.laterTable, NetworkConfig.table, CircuitConfig.table,
    PaddingConfig.table, NodeSelectionConfig.table, SystemConfig.table, tableLines_append,
    tableLines_cons, tableLines_nil, List.append_assoc, List.append_nil]
  rfl

/-- The lines of the table are all lines but those of raw options. -/
theorem lines_eq_table (config : TorConfig) :
    earlierLines config ++ laterLines config = tableLines config.table := by
  rw [earlierLines_eq, laterLines_eq, ← tableLines_append]
  rfl

/-! ## The entries of a text -/

/-- The entries of raw options. -/
def rawEntries (options : List TorOption) : List (String × Text) :=
  options.map fun option => (String.ofList option.key, option.value)

/-- The names of a table do not depend on the settings. -/
theorem names_table (builder : TorConfigBuilder) :
    builder.table.map (·.1) = (TorConfigBuilder.new []).table.map (·.1) := rfl

/-- The names of a table are different. -/
theorem nodup_table (builder : TorConfigBuilder) : (builder.table.map (·.1)).Nodup := by
  rw [names_table]
  decide

/-- The names of a table are those of the options that the renderer sets. -/
theorem mem_names_table {builder : TorConfigBuilder} {name : String} :
    name ∈ builder.table.map (·.1) ↔ name ∈ settingNames := by
  have hsubset : (TorConfigBuilder.new []).table.map (·.1) ⊆ settingNames := by decide
  have hsubset' : settingNames ⊆ (TorConfigBuilder.new []).table.map (·.1) := by decide
  rw [names_table]
  exact ⟨fun h => hsubset h, fun h => hsubset' h⟩

/-- The lines that set options are those of the table. -/
theorem filter_settingLines {config : TorConfig} (h : ∀ text ∈ config.strings, IsUnbroken text) :
    (settingLines config).filter isOptionLine = tableLines config.table := by
  -- They are the option lines of the same configuration without raw options.
  let bare : TorConfig := { config with rawOptions := [] }
  have hunbroken := settingLines_unbroken h
  have hrender : bare.render = unlines (settingLines config) := render_eq bare
  have hlines : optionLines bare.render = tableLines config.table := by
    have hall := @optionLines_of_noRaw bare rfl fun text htext => (h text htext).1
    rw [hall]
    exact lines_eq_table config
  have hblank : [([] : Text)].filter isOptionLine = [] := rfl
  rw [hrender, optionLines, splitOn_unlines fun line hline => (hunbroken line hline).1,
    List.filter_append, hblank, List.append_nil] at hlines
  exact hlines

/-- The entries of a rendered configuration are those of its table, and its raw options. -/
theorem entries_eq_table {config : TorConfig} (h : ∀ text ∈ config.strings, IsUnbroken text)
    (hraw : ∀ option ∈ config.rawOptions, ¬ option.isComment ∧ ¬ isContinued option.value) :
    entries config.render = (flatten config.table ++ rawEntries config.rawOptions).map
      fun (name, value) => optionLine name value := by
  have hsettings := filter_settingLines h
  have hlines : (config.rawOptions.map (·.line)).filter isOptionLine =
      config.rawOptions.map (·.line) := by
    refine List.filter_eq_self.mpr fun line hline => ?_
    obtain ⟨option, hoption, rfl⟩ := List.mem_map.mp hline
    rw [option.line_spec.2.2.2]
    simpa using (hraw option hoption).1
  have hnames : (rawEntries config.rawOptions).map (fun (name, value) => optionLine name value) =
      config.rawOptions.map (·.line) := by
    simp [rawEntries, optionLine, TorOption.line]
  have hblank : readEntries none [[]] = [] := rfl
  rw [entries_render h, readEntries_rawOptions fun option hoption => .inr (hraw option hoption).2,
    hsettings, hlines, hblank, List.append_nil, List.map_append, hnames]
  rfl

end Torlane
