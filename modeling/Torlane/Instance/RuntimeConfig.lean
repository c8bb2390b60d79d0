import Torlane.Torc.Lines
import Torlane.Torc.Validation

/-!
# The configuration of a managed instance

`build_runtime_config` of `src/tor/instance/runtime_config.rs` puts an application's policy into a
configuration whose listeners, paths and owner are the runtime's own. Some of the policy's values
are free-form texts, and the renderer writes them as they are. So a line break in one of them
starts an option line of its own, and that line may have any name. `ownsTopology_iff` says that
this is the only way in which a policy can change the options that the runtime owns.
-/

namespace Torlane

open Text

/-- `InstanceLayout`: the paths of it that the configuration uses. -/
structure InstanceLayout where
  dataDir : Path
  controlPortFile : Path
  deriving DecidableEq, Repr

/-- The builder that `build_runtime_config` makes. -/
def runtimeBuilder (policy : TorPolicy) (layout : InstanceLayout) (parentPid : UInt32) :
    TorConfigBuilder :=
  let builder := { TorConfigBuilder.new layout.dataDir with
    network := policy.network
    circuits := policy.circuits
    padding := policy.padding
    nodeSelection := policy.nodeSelection
    system := policy.system
    logging := policy.logging
    socks := .isolatedAuthAuto
    control := some (((ControlConfig.autoTcp.cookieAuthentication).withPortFile
      layout.controlPortFile).withOwner parentPid) }
  match policy.bridges with
  | some bridges => { builder with bridges := some bridges }
  | none => builder

/-- The builder has the policy's settings and the runtime's, and no raw options. -/
theorem runtimeBuilder_eq (policy : TorPolicy) (layout : InstanceLayout) (parentPid : UInt32) :
    runtimeBuilder policy layout parentPid =
      { dataDirectory := layout.dataDir
        control := some ⟨.tcp (.v4 .localhost) .auto, .cookie, some layout.controlPortFile,
          some parentPid⟩
        socks := ⟨[.isolatedAuth .auto], none⟩
        network := policy.network
        circuits := policy.circuits
        padding := policy.padding
        bridges := policy.bridges
        nodeSelection := policy.nodeSelection
        system := policy.system
        logging := policy.logging
        rawOptions := [] } := by
  unfold runtimeBuilder
  cases policy.bridges <;> rfl

/-- `build_runtime_config`. -/
def buildRuntimeConfig (policy : TorPolicy) (layout : InstanceLayout) (parentPid : UInt32) :
    Except TorConfigError TorConfig :=
  (runtimeBuilder policy layout parentPid).build

/-! ## The owned options -/

/-- The names of the options that the runtime owns. -/
def ownedNames : List String :=
  ["SocksPort", "ControlPort", "CookieAuthentication", "DataDirectory", "ControlPortWriteToFile",
    "__OwningControllerProcess", "HashedControlPassword"]

/-- The options that the runtime owns, as they are written. -/
def ownedOptions : List Text := ownedNames.map String.toList

/-- A name is that of an owned option. -/
theorem mem_ownedOptions {name : String} : name.toList ∈ ownedOptions ↔ name ∈ ownedNames := by
  simp [ownedOptions, String.toList_inj]

/-- A text sets each of the owned options once, to the runtime's value, and sets no password. -/
structure OwnsTopology (layout : InstanceLayout) (pid : UInt32) (text : Text) : Prop where
  socksPort : linesNamed "SocksPort" text =
    ["SocksPort 127.0.0.1:auto ExtendedErrors IsolateSOCKSAuth KeepAliveIsolateSOCKSAuth".toList]
  controlPort : linesNamed "ControlPort" text = ["ControlPort 127.0.0.1:auto".toList]
  cookieAuthentication : linesNamed "CookieAuthentication" text = ["CookieAuthentication 1".toList]
  dataDirectory : linesNamed "DataDirectory" text = [optionLine "DataDirectory" layout.dataDir]
  controlPortFile : linesNamed "ControlPortWriteToFile" text =
    [optionLine "ControlPortWriteToFile" layout.controlPortFile]
  owner : linesNamed "__OwningControllerProcess" text =
    [optionLine "__OwningControllerProcess" (decimal pid.toNat)]
  hashedControlPassword : linesNamed "HashedControlPassword" text = []

/-- The lines that the runtime itself puts into a configuration. -/
def ownedLines (layout : InstanceLayout) (pid : UInt32) : List Text :=
  [optionLine "DataDirectory" layout.dataDir,
    "ControlPort 127.0.0.1:auto".toList,
    "CookieAuthentication 1".toList,
    optionLine "ControlPortWriteToFile" layout.controlPortFile,
    optionLine "__OwningControllerProcess" (decimal pid.toNat),
    "SocksPort 127.0.0.1:auto ExtendedErrors IsolateSOCKSAuth KeepAliveIsolateSOCKSAuth".toList]

/-- The lines of a configuration that come from the policy. -/
def policyLines (config : TorConfig) : List Text := ((sections config).drop 3).flatMap (·.2)

/-- Each of the runtime's lines is one option line. -/
theorem flatMap_ownedLines {layout : InstanceLayout} (hdata : '\n' ∉ layout.dataDir)
    (hport : '\n' ∉ layout.controlPortFile) (pid : UInt32) :
    (ownedLines layout pid).flatMap optionLines = ownedLines layout pid := by
  have hline {name : String} (hname : '\n' ∉ name.toList) {value : Text} (h : '\n' ∉ value) :
      '\n' ∉ optionLine name value := by
    simp [optionLine, hname, h]
  have hpid : '\n' ∉ decimal pid.toNat := notMem_decimal (by decide) _
  simp only [ownedLines, List.flatMap_cons, List.flatMap_nil]
  rw [optionLines_eq_singleton (hline (by decide) hdata) rfl,
    optionLines_eq_singleton (hline (by decide) hport) rfl,
    optionLines_eq_singleton (hline (by decide) hpid) rfl]
  rfl

/-- The option lines of a runtime configuration: the runtime's, and then the policy's. -/
theorem optionLines_runtimeConfig {policy : TorPolicy} {layout : InstanceLayout} {pid : UInt32}
    {config : TorConfig} (hdata : '\n' ∉ layout.dataDir) (hport : '\n' ∉ layout.controlPortFile)
    (h : config.toTorConfigBuilder = runtimeBuilder policy layout pid) :
    optionLines config.render =
      ownedLines layout pid ++ (policyLines config).flatMap optionLines := by
  -- The first three sections hold nothing of the policy.
  have howned : ((sections config).take 3).flatMap (·.2) = ownedLines layout pid := by
    rw [sections, h, runtimeBuilder_eq]
    rfl
  rw [optionLines_render, ← List.flatMap_assoc, ← List.take_append_drop 3 (sections config),
    List.flatMap_append, List.flatMap_append, howned, flatMap_ownedLines hdata hport, policyLines]

/-! ## The policy's lines -/

/-- A line begins with the name of an owned option. -/
def isOwned (line : Text) : Bool := ownedOptions.contains (keyword line)

/-- A line begins with the name of an owned option. -/
theorem isOwned_iff {line : Text} : isOwned line = true ↔ keyword line ∈ ownedOptions :=
  List.contains_iff_mem

/-- The lines of a text that set an owned option. -/
def strayLines (text : Text) : List Text := (optionLines text).filter isOwned

/-- The further lines of a value that begin with the name of an owned option. -/
def smuggled (value : Text) : List Text := (extraLines value).filter isOwned

/-- A line that begins with the name of an owned option is not blank, nor a comment. -/
theorem isOptionLine_of_isOwned {line : Text} (h : isOwned line) : isOptionLine line := by
  have hheads : ∀ name ∈ ownedOptions, name ≠ [] ∧ name.head? ≠ some '#' := by decide
  obtain ⟨hne, hhead⟩ := hheads _ (isOwned_iff.mp h)
  exact isOptionLine_of_keyword hne hhead

/-- An option whose name is a word, and not that of an owned option. -/
def isPolicyName (name : String) : Bool :=
  isWord name.toList ∧ ¬ ownedNames.contains name

/-- The line of a policy's option sets an owned option only from a further line of its value. -/
theorem strayLines_optionLine {name : String} (hname : isPolicyName name) (value : Text) :
    strayLines (optionLine name value) = smuggled value := by
  obtain ⟨hword, hname⟩ := of_decide_eq_true hname
  have howned : name.toList ∉ ownedOptions :=
    fun hmem => hname (List.contains_iff_mem.mpr (mem_ownedOptions.mp hmem))
  have hstart : '\n' ∉ name.toList ++ [' '] := by simp [isWord.notMem_newline hword]
  have hline : optionLine name value = (name.toList ++ [' ']) ++ value := by
    rw [List.append_assoc]
    rfl
  -- The first line keeps the name of the option, which is not owned.
  have hfirst (first : Text) : isOwned (name.toList ++ [' '] ++ first) = false := by
    rw [Bool.eq_false_iff, ne_eq, isOwned_iff, List.append_assoc, List.singleton_append,
      keyword_append hword]
    exact howned
  -- A line that sets an owned option is never dropped as a comment.
  have hboth : (fun line => isOwned line && isOptionLine line) = isOwned := by
    funext line
    cases h : isOwned line with
    | false => rfl
    | true => rw [isOptionLine_of_isOwned h, Bool.true_and]
  rw [strayLines, optionLines, List.filter_filter, hboth, hline, splitOn_append_of_notMem hstart,
    smuggled, extraLines]
  cases value.splitOn '\n' with
  | nil => rfl
  | cons first rest => rw [List.modifyHead_cons, List.tail_cons,
      List.filter_cons_of_neg (Bool.eq_false_iff.mp (hfirst first))]

/-- A value without a line break smuggles nothing in. -/
theorem smuggled_of_notMem {value : Text} (h : '\n' ∉ value) : smuggled value = [] := by
  rw [smuggled, extraLines_of_notMem h]
  rfl

/-- Text put before a value on its first line makes no difference. -/
theorem smuggled_append {start : Text} (h : '\n' ∉ start) (value : Text) :
    smuggled (start ++ value) = smuggled value := by
  rw [smuggled, extraLines_append h, smuggled]

/-- The line of an optional setting, whose text has no line break. -/
theorem strayLines_setting {α : Type} {name : String} (hname : isPolicyName name)
    {display : α → Text} (hdisplay : ∀ a, '\n' ∉ display a) (value : Option α) :
    (value.map fun a => optionLine name (display a)).toList.flatMap strayLines = [] := by
  cases value with
  | none => rfl
  | some a =>
    rw [Option.map_some, Option.toList_some, List.flatMap_singleton, strayLines_optionLine hname,
      smuggled_of_notMem (hdisplay a)]

/-- `strayLines_setting` for a flag. -/
theorem strayLines_flagLine {name : String} (hname : isPolicyName name) (value : Option Bool) :
    (flagLine name value).toList.flatMap strayLines = [] :=
  strayLines_setting hname (by decide) value

/-- `strayLines_setting` for a number. -/
theorem strayLines_numberLine {name : String} (hname : isPolicyName name) (value : Option UInt32) :
    (numberLine name value).toList.flatMap strayLines = [] :=
  strayLines_setting hname (fun _ => notMem_decimal (by decide) _) value

/-- `strayLines_setting` for a duration. -/
theorem strayLines_durationLine {name : String} (hname : isPolicyName name) (value : Option ℕ) :
    (durationLine name value).toList.flatMap strayLines = [] :=
  strayLines_setting hname (fun _ => notMem_decimal (by decide) _) value

/-- The line of a list of nodes. -/
theorem strayLines_nonEmptyList {name : String} (hname : isPolicyName name) (values : List Text) :
    (nonEmptyList name values).toList.flatMap strayLines = smuggled ([','].intercalate values) := by
  unfold nonEmptyList
  split_ifs with h
  · rw [h]
    rfl
  · rw [Option.toList_some, List.flatMap_singleton, strayLines_optionLine hname]

/-- The values of bridge lines: those of plugins, and those of bridges. -/
def bridgeValues (bridges : BridgeConfig) : List Text :=
  bridges.transportPlugins.map renderPlugin ++
    bridges.bridges.map fun bridge => [' '].intercalate (bridgeParts bridge)

/-- The lines of bridges: the values of plugins and of bridges may have further lines. -/
theorem strayLines_renderBridges (bridges : BridgeConfig) :
    (renderBridges bridges).flatMap strayLines = (bridgeValues bridges).flatMap smuggled := by
  have huse : strayLines (optionLine "UseBridges" (displayFlag bridges.useBridges)) = [] := by
    rw [strayLines_optionLine (by decide),
      smuggled_of_notMem (by cases bridges.useBridges <;> decide)]
  have hplugin (plugin : TransportPlugin) :
      strayLines (optionLine "ClientTransportPlugin" (renderPlugin plugin)) =
        smuggled (renderPlugin plugin) :=
    strayLines_optionLine (by decide) _
  have hbridge (bridge : Bridge) :
      strayLines (renderBridge bridge) = smuggled ([' '].intercalate (bridgeParts bridge)) := by
    rw [renderBridge_eq]
    exact strayLines_optionLine (by decide) _
  simp only [renderBridges, bridgeValues, List.flatMap_append, List.flatMap_map,
    List.flatMap_singleton, huse, hplugin, hbridge, List.nil_append]

/-- The path of a log file. -/
def LogDest.filePath : LogDest → Option Path
  | .file path => some path
  | _ => none

/-- The lines of logging. -/
theorem strayLines_renderLogging (logging : LoggingConfig) :
    (renderLogging logging).flatMap strayLines =
      (logging.logs.filterMap (·.destination.filePath) ++ logging.syslogIdentityTag.toList).flatMap
        smuggled := by
  have hlog (log : LogLine) :
      strayLines (optionLine "Log" (log.severity.display ++ ' ' :: log.destination.display)) =
        log.destination.filePath.toList.flatMap smuggled := by
    -- Of the destination, only the path is free-form; the rest stands on the first line.
    have hseverity : ∀ severity : Severity, '\n' ∉ severity.display ++ [' '] := by
      rintro ⟨⟩ <;> decide
    have hfile : '\n' ∉ "file ".toList := by decide
    rw [strayLines_optionLine (by decide), List.append_cons, smuggled_append (hseverity _)]
    cases log.destination with
    | file path =>
      show smuggled ("file ".toList ++ path) = [path].flatMap smuggled
      rw [smuggled_append hfile, List.flatMap_singleton]
    | _ => rfl
  have htag : (logging.syslogIdentityTag.map (optionLine "SyslogIdentityTag")).toList.flatMap
      strayLines = logging.syslogIdentityTag.toList.flatMap smuggled := by
    cases logging.syslogIdentityTag with
    | none => rfl
    | some tag => simpa using strayLines_optionLine (by decide) tag
  have hlogs : (logging.logs.flatMap fun log => log.destination.filePath.toList.flatMap smuggled) =
      (logging.logs.filterMap (·.destination.filePath)).flatMap smuggled := by
    rw [List.filterMap_eq_flatMap_toList, List.flatMap_assoc]
  simp (disch := decide) only [renderLogging, List.flatMap_append, List.flatMap_map, hlog, htag,
    hlogs, strayLines_flagLine, List.append_nil]

/-- The free-form values of a policy, as they stand after an option's name. -/
def freeText (policy : TorPolicy) : List Text :=
  (policy.bridges.map bridgeValues).getD [] ++
  [[','].intercalate policy.nodeSelection.exitNodes,
    [','].intercalate policy.nodeSelection.excludeExitNodes] ++
  (policy.logging.logs.filterMap (·.destination.filePath) ++
    policy.logging.syslogIdentityTag.toList)

/-- The policy's lines set an owned option only from the further lines of its free-form values. -/
theorem strayLines_policyLines {policy : TorPolicy} {layout : InstanceLayout} {pid : UInt32}
    {config : TorConfig} (h : config.toTorConfigBuilder = runtimeBuilder policy layout pid) :
    (policyLines config).flatMap strayLines = (freeText policy).flatMap smuggled := by
  have hpadding (value : Option Tristate) :
      (value.map fun v => optionLine "ConnectionPadding" v.display).toList.flatMap strayLines =
        [] :=
    strayLines_setting (by decide) (by rintro ⟨⟩ <;> decide) value
  have hbridges (bridges : Option BridgeConfig) :
      ((bridges.map renderBridges).getD []).flatMap strayLines =
        ((bridges.map bridgeValues).getD []).flatMap smuggled := by
    cases bridges with
    | none => rfl
    | some bridges => exact strayLines_renderBridges bridges
  rw [policyLines, sections, h, runtimeBuilder_eq]
  simp (disch := decide) only [freeText, hpadding, hbridges,
    List.drop_succ_cons, List.drop_zero, List.map_nil, List.flatMap_cons, List.flatMap_append,
    List.flatMap_nil, List.append_nil, List.nil_append, flatMap_present, strayLines_flagLine,
    strayLines_durationLine, strayLines_numberLine, strayLines_nonEmptyList,
    strayLines_renderLogging, List.append_assoc]

/-! ## Ownership -/

/-- The lines named by an owned option: the runtime's own, and the policy's stray ones. -/
theorem linesNamed_runtimeConfig {policy : TorPolicy} {layout : InstanceLayout} {pid : UInt32}
    {config : TorConfig} (hdata : '\n' ∉ layout.dataDir) (hport : '\n' ∉ layout.controlPortFile)
    (h : config.toTorConfigBuilder = runtimeBuilder policy layout pid) {name : String}
    (hname : name ∈ ownedNames) :
    linesNamed name config.render =
      (ownedLines layout pid).filter (keyword · = name.toList) ++
        ((freeText policy).flatMap smuggled).filter (keyword · = name.toList) := by
  -- A line with this name is one that sets an owned option.
  have howned : (fun line => decide (keyword line = name.toList) && isOwned line) =
      fun line => decide (keyword line = name.toList) := by
    funext line
    by_cases hline : keyword line = name.toList
    · simp [isOwned, hline, mem_ownedOptions, hname]
    · simp [hline]
  rw [linesNamed, optionLines_runtimeConfig hdata hport h, List.filter_append,
    ← strayLines_policyLines h]
  simp only [List.filter_flatMap, strayLines, List.filter_filter, howned]

/-- A text sets the owned options as the runtime does if, name by name, its lines are the
runtime's. -/
theorem ownsTopology_iff_linesNamed {layout : InstanceLayout} {pid : UInt32} {text : Text} :
    OwnsTopology layout pid text ↔ ∀ name ∈ ownedNames,
      linesNamed name text = (ownedLines layout pid).filter (keyword · = name.toList) := by
  have hsocks : (ownedLines layout pid).filter (keyword · = "SocksPort".toList) =
    ["SocksPort 127.0.0.1:auto ExtendedErrors IsolateSOCKSAuth KeepAliveIsolateSOCKSAuth".toList] :=
    rfl
  have hcontrol : (ownedLines layout pid).filter (keyword · = "ControlPort".toList) =
      ["ControlPort 127.0.0.1:auto".toList] := rfl
  have hcookie : (ownedLines layout pid).filter (keyword · = "CookieAuthentication".toList) =
      ["CookieAuthentication 1".toList] := rfl
  have hdir : (ownedLines layout pid).filter (keyword · = "DataDirectory".toList) =
      [optionLine "DataDirectory" layout.dataDir] := rfl
  have hfile : (ownedLines layout pid).filter (keyword · = "ControlPortWriteToFile".toList) =
      [optionLine "ControlPortWriteToFile" layout.controlPortFile] := rfl
  have howner : (ownedLines layout pid).filter (keyword · = "__OwningControllerProcess".toList) =
      [optionLine "__OwningControllerProcess" (decimal pid.toNat)] := rfl
  have hpassword : (ownedLines layout pid).filter (keyword · = "HashedControlPassword".toList) =
      [] := rfl
  simp only [ownedNames, List.forall_mem_cons, hsocks, hcontrol, hcookie, hdir, hfile, howner,
    hpassword]
  constructor
  · rintro ⟨hsocks, hcontrol, hcookie, hdir, hfile, howner, hpassword⟩
    exact ⟨hsocks, hcontrol, hcookie, hdir, hfile, howner, hpassword, List.forall_mem_nil _⟩
  · rintro ⟨hsocks, hcontrol, hcookie, hdir, hfile, howner, hpassword, -⟩
    exact ⟨hsocks, hcontrol, hcookie, hdir, hfile, howner, hpassword⟩

/-- A runtime configuration keeps the runtime's options if and only if no line after the first of
one of the policy's free-form values begins with the name of an owned option. -/
theorem ownsTopology_iff {policy : TorPolicy} {layout : InstanceLayout} {pid : UInt32}
    {config : TorConfig} (hdata : '\n' ∉ layout.dataDir) (hport : '\n' ∉ layout.controlPortFile)
    (h : buildRuntimeConfig policy layout pid = .ok config) :
    OwnsTopology layout pid config.render ↔
      ∀ value ∈ freeText policy, ∀ line ∈ extraLines value, keyword line ∉ ownedOptions := by
  have hbuilder := TorConfigBuilder.build_eq_ok h
  -- The lines of one name are the runtime's if none of the policy's stray lines has that name.
  have hnamed {name : String} (hname : name ∈ ownedNames) :
      linesNamed name config.render = (ownedLines layout pid).filter (keyword · = name.toList) ↔
        ((freeText policy).flatMap smuggled).filter (keyword · = name.toList) = [] := by
    rw [linesNamed_runtimeConfig hdata hport hbuilder hname, List.append_right_eq_self]
  -- Name by name, the topology is owned if no stray line has an owned name.
  have hall : OwnsTopology layout pid config.render ↔ ∀ key ∈ ownedOptions,
      ((freeText policy).flatMap smuggled).filter (keyword · = key) = [] := by
    rw [ownsTopology_iff_linesNamed, ownedOptions, List.forall_mem_map]
    exact forall₂_congr fun name hname => hnamed hname
  rw [hall]
  constructor
  · intro hnone value hvalue line hline hkey
    have hstray : line ∈ (freeText policy).flatMap smuggled :=
      List.mem_flatMap.mpr ⟨value, hvalue, List.mem_filter.mpr ⟨hline, isOwned_iff.mpr hkey⟩⟩
    have := List.filter_eq_nil_iff.mp (hnone _ hkey) line hstray
    exact this (decide_eq_true rfl)
  · intro hnone key hkey
    refine List.filter_eq_nil_iff.mpr fun line hline heq => ?_
    obtain ⟨value, hvalue, hline⟩ := List.mem_flatMap.mp hline
    exact hnone value hvalue line (List.mem_filter.mp hline).1 (of_decide_eq_true heq ▸ hkey)

/-- The paths of an example. -/
def exampleLayout : InstanceLayout :=
  ⟨"/srv/tor/data".toList, "/srv/tor/runtime/control.port".toList⟩

/-- A policy with a value of each free-form kind. -/
def examplePolicy : TorPolicy :=
  { TorPolicy.default with
    bridges := some
      { useBridges := true
        bridges := [{
          transport := some "obfs4".toList
          addr := .v4 .localhost 443
          fingerprint := some "0123456789ABCDEF".toList
          args := [("cert".toList, "abc".toList), ("iat-mode".toList, "0".toList)] }]
        transportPlugins := [⟨["obfs4".toList], "/usr/bin/obfs4proxy".toList, ["-v".toList]⟩] }
    nodeSelection := ⟨["{us}".toList, "{de}".toList], ["{fr}".toList], some true⟩
    logging := ⟨[⟨.notice, .file "/srv/tor/log".toList⟩], some true, some "pool".toList⟩ }

/-- `ownsTopology_iff` for a policy without line breaks. -/
theorem ownsTopology_iff_example :
    '\n' ∉ exampleLayout.dataDir ∧ '\n' ∉ exampleLayout.controlPortFile ∧
      ∃ config, buildRuntimeConfig examplePolicy exampleLayout 4242 = .ok config ∧
        OwnsTopology exampleLayout 4242 config.render := by
  refine ⟨by decide, by decide, _, rfl, ?_⟩
  have hiff := @ownsTopology_iff examplePolicy exampleLayout 4242 _ (by decide) (by decide) rfl
  exact hiff.mpr (by decide)

/-- A policy whose one exit node has a second line, which opens a SOCKS port on every address. -/
def brokenNodePolicy : TorPolicy :=
  { TorPolicy.default with
    nodeSelection := ⟨["{us}\nSocksPort 0.0.0.0:9050".toList], [], none⟩ }

/-- A policy can add a listener: its configuration has two SOCKS port lines. -/
theorem exit_node_opens_port :
    '\n' ∉ exampleLayout.dataDir ∧ '\n' ∉ exampleLayout.controlPortFile ∧
      ∃ config, buildRuntimeConfig brokenNodePolicy exampleLayout 4242 = .ok config ∧
        (linesNamed "SocksPort" config.render).length = 2 ∧
        ¬ OwnsTopology exampleLayout 4242 config.render := by
  have htwo (config : TorConfig) (hlines : (linesNamed "SocksPort" config.render).length = 2) :
      ¬ OwnsTopology exampleLayout 4242 config.render := by
    intro h
    rw [h.socksPort] at hlines
    simp at hlines
  refine ⟨by decide, by decide, _, rfl, rfl, htwo _ rfl⟩

end Torlane
