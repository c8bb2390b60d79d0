import Torlane.Net.Shape
import Torlane.Torc.Lines

/-!
# The settings of a configuration

A configuration takes strings and paths from its builder, and the renderer puts them into the values
of option lines. Where each of them has a property that is kept when texts are put together, such
as that of having no line break, each value has it too (`allSet_otherLines`). The raw options are
left out: they are not checked for such a property, and have lines of their own kind.
-/

namespace Torlane

open Text

/-! ## The strings of a builder -/

/-- The path of a port. -/
def PortSpec.strings : PortSpec → List Text
  | .unix path => [path]
  | _ => []

/-- The path of a control port. -/
def ControlListen.strings : ControlListen → List Text
  | .tcp _ port => port.strings
  | .unix path => [path]

/-- The hash of a password. -/
def ControlAuth.strings : ControlAuth → List Text
  | .hashedPassword hash => [hash]
  | _ => []

/-- The strings of the control interface. -/
def ControlConfig.strings (control : ControlConfig) : List Text :=
  control.listen.strings ++ control.auth.strings ++ control.writePortToFile.toList

/-- The strings of a bridge. -/
def Bridge.strings (bridge : Bridge) : List Text :=
  bridge.transport.toList ++ bridge.fingerprint.toList ++
    bridge.args.flatMap fun (key, value) => [key, value]

/-- The strings of a plugin. -/
def TransportPlugin.strings (plugin : TransportPlugin) : List Text :=
  plugin.names ++ [plugin.executable] ++ plugin.args

/-- The strings of bridges and plugins. -/
def BridgeConfig.strings (bridges : BridgeConfig) : List Text :=
  bridges.transportPlugins.flatMap (·.strings) ++ bridges.bridges.flatMap (·.strings)

/-- The path of a log. -/
def LogDest.strings : LogDest → List Text
  | .file path => [path]
  | _ => []

/-- The strings of logging. -/
def LoggingConfig.strings (logging : LoggingConfig) : List Text :=
  logging.logs.flatMap (·.destination.strings) ++ logging.syslogIdentityTag.toList

/-- The strings and paths of a builder, except those of raw options. -/
def TorConfigBuilder.strings (builder : TorConfigBuilder) : List Text :=
  [builder.dataDirectory] ++ (builder.control.map (·.strings)).getD [] ++
    builder.socks.listeners.flatMap (·.port.strings) ++
    (builder.bridges.map (·.strings)).getD [] ++ builder.nodeSelection.exitNodes ++
    builder.nodeSelection.excludeExitNodes ++ builder.logging.strings

/-! ## Properties of values -/

/-- A property of texts that is kept when they are put together, and that texts without line breaks
and backslashes have. -/
structure IsValueProperty (P : Text → Prop) : Prop where
  plain : ∀ {text}, (∀ c ∈ text, c ≠ '\n' ∧ c ≠ '\\') → P text
  append : ∀ {a b}, P a → P b → P (a ++ b)

/-- The names of the options that the renderer sets, except those of listeners. -/
def otherNames : List String :=
  ["DataDirectory", "CookieAuthentication", "HashedControlPassword", "ControlPortWriteToFile",
    "__OwningControllerProcess", "ClientUseIPv4", "ClientUseIPv6", "MaxCircuitDirtiness",
    "NewCircuitPeriod", "CircuitsAvailableTimeout", "SocksTimeout", "CircuitBuildTimeout",
    "LearnCircuitBuildTimeout", "CircuitStreamTimeout", "MaxClientCircuitsPending",
    "NumEntryGuards", "UseEntryGuards", "ConnectionPadding", "ReducedConnectionPadding",
    "CircuitPadding", "ReducedCircuitPadding", "KeepalivePeriod", "UseBridges",
    "ClientTransportPlugin", "Bridge", "ExitNodes", "ExcludeExitNodes", "StrictNodes",
    "AvoidDiskWrites", "HardwareAccel", "ConnLimit", "DisableDebuggerAttachment", "Log",
    "SafeLogging", "SyslogIdentityTag"]

/-- The line sets one of the options, to a value that has the property. -/
def Sets (P : Text → Prop) (names : List String) (line : Text) : Prop :=
  ∃ name ∈ names, ∃ value, line = optionLine name value ∧ P value

/-- Each line sets an option that is not one of listeners. -/
def AllSet (P : Text → Prop) (lines : List Text) : Prop := ∀ line ∈ lines, Sets P otherNames line

namespace IsValueProperty

variable {P : Text → Prop}

/-- A text of the renderer's own, which can be searched. -/
theorem literal (hP : IsValueProperty P) {text : Text}
    (h : text.all fun c => c ≠ '\n' ∧ c ≠ '\\') : P text :=
  hP.plain fun c hc => by simpa using List.all_eq_true.mp h c hc

/-- The empty text has the property. -/
theorem nil (hP : IsValueProperty P) : P [] := hP.literal rfl

/-- A text with a character before it. -/
theorem cons (hP : IsValueProperty P) {c : Char} {text : Text} (hc : c ≠ '\n' ∧ c ≠ '\\')
    (h : P text) : P (c :: text) := by
  have hfirst : P [c] := by
    refine hP.plain fun d hd => ?_
    rwa [List.mem_singleton.mp hd]
  exact hP.append hfirst h

/-- Joined texts. -/
theorem intercalate (hP : IsValueProperty P) {c : Char} {texts : List Text}
    (hc : c ≠ '\n' ∧ c ≠ '\\') (h : ∀ text ∈ texts, P text) : P ([c].intercalate texts) := by
  induction texts with
  | nil => exact hP.nil
  | cons text texts ih =>
    obtain ⟨htext, htexts⟩ := List.forall_mem_cons.mp h
    cases texts with
    | nil => rwa [List.intercalate_singleton]
    | cons next texts =>
      rw [List.intercalate_cons_cons, List.append_assoc, List.singleton_append]
      exact hP.append htext (hP.cons hc (ih htexts))

/-- Texts with a character before each. -/
theorem flatMap_cons (hP : IsValueProperty P) {c : Char} {texts : List Text}
    (hc : c ≠ '\n' ∧ c ≠ '\\') (h : ∀ text ∈ texts, P text) : P (texts.flatMap (c :: ·)) := by
  induction texts with
  | nil => exact hP.nil
  | cons text texts ih =>
    obtain ⟨htext, htexts⟩ := List.forall_mem_cons.mp h
    rw [List.flatMap_cons]
    exact hP.append (hP.cons hc htext) (ih htexts)

/-- A number. -/
theorem decimal (hP : IsValueProperty P) (n : ℕ) : P (decimal n) := by
  refine hP.plain fun c hc => ?_
  constructor <;> rintro rfl
  · exact notMem_decimal (by decide) n hc
  · exact notMem_decimal (by decide) n hc

/-- An address. -/
theorem addr (hP : IsValueProperty P) (addr : SocketAddr) : P addr.display := by
  refine hP.plain fun c hc => ?_
  constructor <;> rintro rfl
  · exact addr.notMem_display (by decide) hc
  · exact addr.notMem_display (by decide) hc

/-- The address of a listener. -/
theorem ip (hP : IsValueProperty P) (addr : IpAddr) : P addr.display := by
  refine hP.plain fun c hc => ?_
  cases addr with
  | v4 addr =>
    constructor <;> rintro rfl
    · exact addr.notMem_display (by decide) hc
    · exact addr.notMem_display (by decide) hc
  | v6 addr =>
    constructor <;> rintro rfl
    · exact addr.notMem_display (by decide) hc
    · exact addr.notMem_display (by decide) hc

/-- A signed number. -/
theorem decimalInt (hP : IsValueProperty P) (z : ℤ) : P (decimalInt z) := by
  cases z with
  | ofNat n => exact hP.decimal n
  | negSucc n => exact hP.cons (by decide) (hP.decimal (n + 1))

/-- A flag of a SOCKS listener. -/
theorem socksFlag (hP : IsValueProperty P) (flag : SocksFlag) : P flag.display := by
  refine hP.literal ?_
  cases flag <;> decide

/-- An isolation setting. -/
theorem isolation (hP : IsValueProperty P) (isolation : Isolation) : P isolation.display := by
  cases isolation with
  | sessionGroup group => exact hP.append (hP.literal (by decide)) (hP.decimalInt _)
  | _ => exact hP.literal (by decide)

/-- A line has the property if its value has it. -/
theorem optionLine (hP : IsValueProperty P) {name : String} {value : Text}
    (hname : name.toList.all fun c => c ≠ '\n' ∧ c ≠ '\\') (h : P value) :
    P (optionLine name value) :=
  hP.append (hP.literal hname) (hP.cons (by decide) h)

end IsValueProperty

/-! ## The lines of one setting -/

section Lines

variable {P : Text → Prop}

@[simp] theorem allSet_nil : AllSet P [] ↔ True := by simp [AllSet]

@[simp] theorem allSet_append {lines lines' : List Text} :
    AllSet P (lines ++ lines') ↔ AllSet P lines ∧ AllSet P lines' := List.forall_mem_append

/-- The lines that are there. -/
theorem allSet_present {items : List (Option Text)} :
    AllSet P (present items) ↔ AllSet P (items.flatMap (·.toList)) := by
  have hlines := flatMap_present (fun line => [line]) items
  simp only [List.flatMap_singleton'] at hlines
  rw [hlines]

/-- The line of an option. -/
theorem allSet_optionLine {name : String} (hname : name ∈ otherNames) {value : Text}
    (h : P value) : AllSet P [optionLine name value] := by
  intro line hline
  exact ⟨name, hname, value, List.mem_singleton.mp hline, h⟩

/-- The line of an optional setting. -/
theorem allSet_setting {α : Type} {name : String} (hname : name ∈ otherNames)
    {display : α → Text} {value : Option α} (h : ∀ a ∈ value, P (display a)) :
    AllSet P (value.map fun a => optionLine name (display a)).toList := by
  cases value with
  | none => exact allSet_nil.mpr trivial
  | some a => exact allSet_optionLine hname (h a rfl)

/-- The line of a flag. -/
theorem allSet_flagLine (hP : IsValueProperty P) {name : String} (hname : name ∈ otherNames)
    (value : Option Bool) : AllSet P (flagLine name value).toList := by
  refine allSet_setting hname fun flag _ => hP.literal ?_
  cases flag <;> decide

/-- The line of a number. -/
theorem allSet_numberLine (hP : IsValueProperty P) {name : String} (hname : name ∈ otherNames)
    (value : Option UInt32) : AllSet P (numberLine name value).toList :=
  allSet_setting hname fun n _ => hP.decimal n.toNat

/-- The line of a duration. -/
theorem allSet_durationLine (hP : IsValueProperty P) {name : String} (hname : name ∈ otherNames)
    (value : Option ℕ) : AllSet P (durationLine name value).toList :=
  allSet_setting hname fun n _ => hP.decimal (asSecs n)

/-- The line of a list. -/
theorem allSet_nonEmptyList (hP : IsValueProperty P) {name : String} (hname : name ∈ otherNames)
    {values : List Text} (h : ∀ value ∈ values, P value) :
    AllSet P (nonEmptyList name values).toList := by
  unfold nonEmptyList
  split_ifs
  · exact allSet_nil.mpr trivial
  · exact allSet_optionLine hname (hP.intercalate (by decide) h)

/-- The lines of the control interface, but the first one. -/
theorem allSet_renderControl (hP : IsValueProperty P) {control : ControlConfig}
    (h : ∀ text ∈ control.strings, P text) : AllSet P (renderControl control).tail := by
  obtain ⟨⟨-, hauth⟩, hfile⟩ := by
    simpa only [ControlConfig.strings, List.forall_mem_append] using h
  unfold renderControl
  rw [List.append_assoc, List.cons_append, List.tail_cons, ← List.append_assoc, allSet_append,
    allSet_append]
  refine ⟨⟨?_, ?_⟩, ?_⟩
  · cases hcontrol : control.auth with
    | cookie => exact allSet_optionLine (by decide) (hP.literal (by decide))
    | hashedPassword hash =>
      refine allSet_optionLine (by decide) (hauth hash ?_)
      rw [hcontrol]
      exact List.mem_singleton_self hash
    | none => exact allSet_optionLine (by decide) (hP.literal (by decide))
  · exact allSet_setting (by decide) fun path hpath => hfile path (Option.mem_toList.mpr hpath)
  · exact allSet_setting (by decide) fun pid _ => hP.decimal pid.toNat

/-- The lines of bridges and plugins. -/
theorem allSet_renderBridges (hP : IsValueProperty P) {bridges : BridgeConfig}
    (h : ∀ text ∈ bridges.strings, P text) : AllSet P (renderBridges bridges) := by
  obtain ⟨hplugins, hbridges⟩ := by
    simpa only [BridgeConfig.strings, List.forall_mem_append, List.forall_mem_flatMap] using h
  unfold renderBridges
  rw [allSet_append, allSet_append]
  refine ⟨⟨?_, fun line hline => ?_⟩, fun line hline => ?_⟩
  · refine allSet_optionLine (by decide) (hP.literal ?_)
    cases bridges.useBridges <;> decide
  · obtain ⟨plugin, hplugin, rfl⟩ := List.mem_map.mp hline
    obtain ⟨⟨hnames, hexecutable⟩, hargs⟩ := by
      simpa only [TransportPlugin.strings, List.forall_mem_append, List.forall_mem_singleton] using
        hplugins plugin hplugin
    refine ⟨"ClientTransportPlugin", by decide, _, rfl, ?_⟩
    exact hP.append (hP.append (hP.append (hP.intercalate (by decide) hnames)
      (hP.literal (by decide))) hexecutable) (hP.flatMap_cons (by decide) hargs)
  · obtain ⟨bridge, hbridge, rfl⟩ := List.mem_map.mp hline
    obtain ⟨⟨htransport, hfingerprint⟩, hargs⟩ := by
      simpa only [Bridge.strings, List.forall_mem_append, List.forall_mem_flatMap] using
        hbridges bridge hbridge
    refine ⟨"Bridge", by decide, _, renderBridge_eq bridge, hP.intercalate (by decide) ?_⟩
    unfold bridgeParts
    simp only [List.forall_mem_append, List.forall_mem_singleton, List.forall_mem_map]
    refine ⟨⟨⟨htransport, hP.addr bridge.addr⟩, hfingerprint⟩, fun arg harg => ?_⟩
    obtain ⟨hkey, hvalue⟩ := List.forall_mem_cons.mp (hargs arg harg)
    exact hP.append hkey (hP.cons (by decide) (List.forall_mem_singleton.mp hvalue))

/-- The lines of logging. -/
theorem allSet_renderLogging (hP : IsValueProperty P) {logging : LoggingConfig}
    (h : ∀ text ∈ logging.strings, P text) : AllSet P (renderLogging logging) := by
  obtain ⟨hlogs, htag⟩ := by
    simpa only [LoggingConfig.strings, List.forall_mem_append, List.forall_mem_flatMap] using h
  unfold renderLogging
  rw [allSet_append, allSet_append]
  refine ⟨⟨fun line hline => ?_, allSet_flagLine hP (by decide) _⟩, ?_⟩
  · obtain ⟨log, hlog, rfl⟩ := List.mem_map.mp hline
    refine ⟨"Log", by decide, _, rfl, hP.append ?_ (hP.cons (by decide) ?_)⟩
    · refine hP.literal ?_
      cases log.severity <;> decide
    · cases hdestination : log.destination with
      | file path =>
        refine hP.append (hP.literal (by decide)) (hlogs log hlog path ?_)
        rw [hdestination]
        exact List.mem_singleton_self path
      | _ => exact hP.literal (by decide)
  · exact allSet_setting (by decide) fun tag ht => htag tag (Option.mem_toList.mpr ht)

/-- The address and the port of a listener. -/
theorem IsValueProperty.addrPort (hP : IsValueProperty P) {addr : IpAddr} {port : PortSpec}
    (h : ∀ text ∈ port.strings, P text) : P (renderAddrPort addr port) := by
  cases port with
  | num port => exact hP.addr _
  | auto => exact hP.append (hP.ip addr) (hP.literal (by decide))
  | unix path => exact hP.append (hP.literal (by decide)) (h path (List.mem_singleton_self path))

/-- The line of a control port. -/
theorem sets_renderControlPort (hP : IsValueProperty P) {listen : ControlListen}
    (h : ∀ text ∈ listen.strings, P text) : Sets P ["ControlPort"] (renderControlPort listen) := by
  refine ⟨"ControlPort", List.mem_singleton_self _, ?_⟩
  cases listen with
  | tcp addr port => exact ⟨_, rfl, hP.addrPort h⟩
  | unix path =>
    exact ⟨_, rfl, hP.append (hP.literal (by decide)) (h path (List.mem_singleton_self path))⟩

/-- The tokens of a SOCKS listener. -/
def SocksPort.tokens (listener : SocksPort) : List Text :=
  listener.flags.map (·.display) ++ listener.isolation.map (·.display)

/-- A SOCKS port's line has its tokens behind the address and the port. -/
theorem renderSocksPort_eq (listener : SocksPort) : renderSocksPort listener =
    optionLine "SocksPort" (renderAddrPort listener.addr listener.port ++
      listener.tokens.flatMap (' ' :: ·)) := by
  unfold renderSocksPort
  rw [List.append_assoc, List.singleton_append, intercalate_cons]
  unfold optionLine
  rw [List.append_assoc, List.cons_append]
  rfl

/-- The line of a SOCKS port. -/
theorem sets_renderSocksPort (hP : IsValueProperty P) {listener : SocksPort}
    (h : ∀ text ∈ listener.port.strings, P text) :
    Sets P ["SocksPort"] (renderSocksPort listener) := by
  refine ⟨"SocksPort", List.mem_singleton_self _, _, renderSocksPort_eq listener, ?_⟩
  refine hP.append (hP.addrPort h) (hP.flatMap_cons (by decide) ?_)
  unfold SocksPort.tokens
  simp only [List.forall_mem_append, List.forall_mem_map]
  exact ⟨fun flag _ => hP.socksFlag flag, fun isolation _ => hP.isolation isolation⟩

end Lines

/-- The names of the options that the renderer sets. -/
def settingNames : List String := "ControlPort" :: "SocksPort" :: otherNames

/-- The names are words, and no comments. -/
theorem isWord_of_mem_settingNames :
    ∀ name ∈ settingNames, isWord name.toList ∧ name.toList.head? ≠ some '#' := by
  decide

/-- All names but two are other names. -/
theorem otherNames_subset : otherNames ⊆ settingNames := fun _ hname =>
  List.mem_cons_of_mem _ (List.mem_cons_of_mem _ hname)

/-- The option may be one of more options. -/
theorem Sets.mono {P : Text → Prop} {names names' : List String} {line : Text}
    (h : Sets P names line) (hnames : names ⊆ names') : Sets P names' line := by
  obtain ⟨name, hname, hvalue⟩ := h
  exact ⟨name, hnames hname, hvalue⟩

/-- The first word of a line that sets an option is the name of it. -/
theorem Sets.keyword {P : Text → Prop} {names : List String} {line : Text} (h : Sets P names line)
    (hnames : names ⊆ settingNames) : ∃ name ∈ names, keyword line = name.toList := by
  obtain ⟨name, hname, value, rfl, -⟩ := h
  exact ⟨name, hname, keyword_append (isWord_of_mem_settingNames name (hnames hname)).1 value⟩

/-- A line that sets an option is an option line. -/
theorem Sets.isOptionLine {P : Text → Prop} {names : List String} {line : Text}
    (h : Sets P names line) (hnames : names ⊆ settingNames) : isOptionLine line := by
  obtain ⟨name, hname, hkeyword⟩ := h.keyword hnames
  obtain ⟨hword, hhead⟩ := isWord_of_mem_settingNames name (hnames hname)
  rw [← hkeyword] at hhead
  refine isOptionLine_of_keyword ?_ hhead
  rw [hkeyword]
  simpa using (of_decide_eq_true hword).1

/-- A line has the property if its value has it. -/
theorem Sets.value {P : Text → Prop} (hP : IsValueProperty P) {names : List String} {line : Text}
    (h : Sets P names line) (hnames : names ⊆ settingNames) : P line := by
  obtain ⟨name, hname, value, rfl, hvalue⟩ := h
  have hplain : ∀ name ∈ settingNames, name.toList.all fun c => c ≠ '\n' ∧ c ≠ '\\' := by decide
  exact hP.optionLine (hplain name (hnames hname)) hvalue

/-! ## The lines of a configuration -/

/-- The lines of the sections behind that of the SOCKS listeners, except raw options. -/
def laterLines (config : TorConfig) : List Text :=
  ((sections config).dropLast.drop 3).flatMap (·.2)

/-- The lines behind those of the listeners set other options. -/
theorem allSet_laterLines {P : Text → Prop} (hP : IsValueProperty P) {config : TorConfig}
    (h : ∀ text ∈ config.strings, P text) : AllSet P (laterLines config) := by
  obtain ⟨⟨⟨⟨-, hbridges⟩, hexit⟩, hexclude⟩, hlogging⟩ := by
    simpa only [TorConfigBuilder.strings, List.forall_mem_append] using h
  have hpadding : AllSet P (config.padding.connectionPadding.map fun v =>
      optionLine "ConnectionPadding" v.display).toList := by
    refine allSet_setting (by decide) fun v _ => hP.literal ?_
    cases v <;> decide
  have hbridgeLines : AllSet P ((config.bridges.map renderBridges).getD []) := by
    cases hconfig : config.bridges with
    | none => exact allSet_nil.mpr trivial
    | some bridges =>
      rw [hconfig] at hbridges
      exact allSet_renderBridges hP hbridges
  simp (disch := decide) only [laterLines, sections, List.dropLast_cons_cons,
    List.dropLast_singleton, List.drop_succ_cons, List.drop_zero, List.flatMap_cons,
    List.flatMap_nil, allSet_append, allSet_nil, allSet_present, allSet_flagLine hP,
    allSet_numberLine hP, allSet_durationLine hP, hpadding, hbridgeLines,
    allSet_renderLogging hP hlogging, true_and, and_true]
  exact ⟨allSet_nonEmptyList hP (by decide) hexit, allSet_nonEmptyList hP (by decide) hexclude⟩

/-- The lines of the sections up to that of the SOCKS listeners. -/
def earlierLines (config : TorConfig) : List Text :=
  [optionLine "DataDirectory" config.dataDirectory] ++ (config.control.map renderControl).getD [] ++
    config.socks.listeners.map renderSocksPort

/-- The lines of raw options. -/
def rawLines (options : List TorOption) : List Text :=
  options.map fun option => option.key ++ ' ' :: option.value

/-- The lines of all sections but the last one. -/
theorem flatMap_dropLast_sections (config : TorConfig) :
    (sections config).dropLast.flatMap (·.2) = earlierLines config ++ laterLines config := by
  have hearlier : ((sections config).take 3).flatMap (·.2) = earlierLines config := by
    simp [sections, earlierLines]
  have hsections : (sections config).dropLast =
      (sections config).take 3 ++ (sections config).dropLast.drop 3 := rfl
  rw [hsections, List.flatMap_append, hearlier]
  rfl

/-- The last section is that of raw options. -/
theorem sections_eq_concat (config : TorConfig) : sections config =
    (sections config).dropLast ++ [("Raw", rawLines config.rawOptions)] := rfl

/-- The lines of all sections. -/
theorem flatMap_sections (config : TorConfig) : (sections config).flatMap (·.2) =
    earlierLines config ++ laterLines config ++ rawLines config.rawOptions := by
  rw [sections_eq_concat, List.flatMap_append, flatMap_dropLast_sections, List.flatMap_singleton]

/-- The lines before and of the listeners: the data directory, the control port, other settings of
the control interface, and the SOCKS ports. -/
theorem earlierLines_cases {P : Text → Prop} (hP : IsValueProperty P) {config : TorConfig}
    (h : ∀ text ∈ config.strings, P text) :
    ∃ others, earlierLines config = [optionLine "DataDirectory" config.dataDirectory] ++
        config.control.toList.map (renderControlPort ·.listen) ++ others ++
          config.socks.listeners.map renderSocksPort ∧
      Sets P ["DataDirectory"] (optionLine "DataDirectory" config.dataDirectory) ∧
      (∀ line ∈ config.control.toList.map (renderControlPort ·.listen),
        Sets P ["ControlPort"] line) ∧
      AllSet P others ∧
      ∀ line ∈ config.socks.listeners.map renderSocksPort, Sets P ["SocksPort"] line := by
  obtain ⟨⟨⟨⟨⟨⟨hdirectory, hcontrol⟩, hsocks⟩, -⟩, -⟩, -⟩, -⟩ := by
    simpa only [TorConfigBuilder.strings, List.forall_mem_append, List.forall_mem_singleton] using h
  have hfirst : Sets P ["DataDirectory"] (optionLine "DataDirectory" config.dataDirectory) :=
    ⟨"DataDirectory", List.mem_singleton_self _, _, rfl, hdirectory⟩
  have hlisteners : ∀ line ∈ config.socks.listeners.map renderSocksPort,
      Sets P ["SocksPort"] line := by
    simp only [List.forall_mem_map]
    exact fun listener hlistener => sets_renderSocksPort hP fun text htext =>
      hsocks text (List.mem_flatMap.mpr ⟨listener, hlistener, htext⟩)
  unfold earlierLines
  cases hconfig : config.control with
  | none => exact ⟨[], by simp, hfirst, by simp, allSet_nil.mpr trivial, hlisteners⟩
  | some control =>
    rw [hconfig] at hcontrol
    have hport : Sets P ["ControlPort"] (renderControlPort control.listen) :=
      sets_renderControlPort hP fun text htext =>
        hcontrol text (List.mem_append_left _ (List.mem_append_left _ htext))
    refine ⟨(renderControl control).tail, ?_, hfirst, ?_, allSet_renderControl hP hcontrol,
      hlisteners⟩
    · -- The first line of the control interface is the one of the listener.
      rw [Option.map_some, Option.getD_some, Option.toList_some, List.map_singleton,
        List.append_assoc _ [_]]
      rfl
    · simpa using hport

/-- Each line but those of raw options sets an option. -/
theorem sets_lines {P : Text → Prop} (hP : IsValueProperty P) {config : TorConfig}
    (h : ∀ text ∈ config.strings, P text) :
    ∀ line ∈ earlierLines config ++ laterLines config, Sets P settingNames line := by
  obtain ⟨others, hearlier, hfirst, hports, hothers, hlisteners⟩ := earlierLines_cases hP h
  rw [hearlier]
  simp only [List.forall_mem_append, List.forall_mem_singleton]
  exact ⟨⟨⟨⟨hfirst.mono (by decide), fun line hline => (hports line hline).mono (by decide)⟩,
    fun line hline => (hothers line hline).mono otherNames_subset⟩,
    fun line hline => (hlisteners line hline).mono (by decide)⟩,
    fun line hline => (allSet_laterLines hP h line hline).mono otherNames_subset⟩

end Torlane
