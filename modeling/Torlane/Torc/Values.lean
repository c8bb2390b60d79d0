import Torlane.Radix
import Torlane.Table
import Torlane.Torc.ListenerLines

/-!
# The values of settings

Readers of the values that `render_config` of `src/tor/torc/render.rs` writes behind the names of
options. Each one reads back what the renderer displays, as long as the strings in a value do not
have the character that separates them. The renderer writes strings as they are, and does not write
the fraction of a second, nor the address of a Unix socket: `written` is what is left of such a
value.
-/

namespace Torlane

open Text Table

/-! ## Switches and numbers -/

/-- A torrc boolean. -/
def readSwitch : Text → Option Bool
  | ['0'] => some false
  | ['1'] => some true
  | _ => none

/-- A boolean is read back. -/
theorem readSwitch_displayFlag (value : Bool) : readSwitch (displayFlag value) = some value := by
  cases value <;> rfl

/-- An optional boolean is read back. -/
theorem readOptional_switch (value : Option Bool) :
    readOptional readSwitch (value.map displayFlag).toList = some value :=
  readOptional_map fun flag _ => readSwitch_displayFlag flag

/-- A three-way switch. -/
def readTristate (text : Text) : Option Tristate :=
  [Tristate.off, .on, .auto].find? (·.display = text)

/-- A three-way switch is read back. -/
theorem readTristate_display (value : Tristate) : readTristate value.display = some value := by
  cases value <;> decide

/-- A number of 32 bits. -/
def readUInt32 (text : Text) : Option UInt32 := (parseUnsigned (2^32 - 1) text).map .ofNat

/-- A number is read back. -/
theorem readUInt32_decimal (n : UInt32) : readUInt32 (decimal n.toNat) = some n := by
  have hlt : n.toNat < 2^32 := n.toNat_lt
  have hread : parseUnsigned (2^32 - 1) (decimal n.toNat) = some n.toNat :=
    parseUnsigned_decimal (by omega)
  rw [readUInt32, hread, Option.map_some, UInt32.ofNat_toNat]

/-- An optional number is read back. -/
theorem readOptional_number (value : Option UInt32) :
    readOptional readUInt32 (value.map fun n => decimal n.toNat).toList = some value :=
  readOptional_map fun n _ => readUInt32_decimal n

/-- An optional text is read back. -/
theorem readOptional_text (value : Option Text) :
    readOptional some value.toList = some value := by
  cases value <;> rfl

/-- A duration in whole seconds. -/
def wholeSeconds (duration : ℕ) : ℕ := asSecs duration * 1000000000

/-- What is left of a duration in whole seconds has as many seconds. -/
theorem asSecs_wholeSeconds (duration : ℕ) : asSecs (wholeSeconds duration) = asSecs duration := by
  unfold wholeSeconds asSecs
  omega

/-- A number of seconds. -/
def readDuration (text : Text) : Option ℕ :=
  if text ≠ [] ∧ text.all Char.isDigit then some (spelledNumber 10 text * 1000000000) else none

/-- A duration is read back in whole seconds. -/
theorem readDuration_decimal (duration : ℕ) :
    readDuration (decimal (asSecs duration)) = some (wholeSeconds duration) := by
  have hdigits : (decimal (asSecs duration)).all Char.isDigit :=
    List.all_eq_true.mpr fun c hc => isDigit_of_mem_decimal hc
  have hvalue : spelledNumber 10 (decimal (asSecs duration)) = asSecs duration :=
    spelledNumber_toDigits (by decide) (by decide) _
  rw [readDuration, if_pos ⟨decimal_ne_nil _, hdigits⟩, hvalue]
  rfl

/-- An optional duration is read back in whole seconds. -/
theorem readOptional_duration (value : Option ℕ) :
    readOptional readDuration (value.map fun duration => decimal (asSecs duration)).toList =
      some (value.map wholeSeconds) :=
  readOptional_written fun duration _ => readDuration_decimal duration

/-! ## Lists -/

/-- A list with commas between its texts, and no list. -/
def readTexts : List Text → Option (List Text)
  | [] => some []
  | [value] => some (value.splitOn ',')
  | _ => none

/-- The value of a list that is not empty. -/
def textsValue (texts : List Text) : List Text :=
  if texts = [] then [] else [[','].intercalate texts]

/-- A list is read back. -/
theorem readTexts_textsValue {texts : List Text} (h : ∀ text ∈ texts, ',' ∉ text) :
    readTexts (textsValue texts) = some texts := by
  unfold textsValue
  split_ifs with hempty
  · rw [hempty]
    rfl
  · have hsplit : ([','].intercalate texts).splitOn ',' = texts :=
      List.splitOn_intercalate ',' h hempty
    show some (([','].intercalate texts).splitOn ',') = some texts
    rw [hsplit]

/-! ## Listeners -/

/-- The port of a TCP listener, if Tor does not choose it. -/
def tcpSpec : Option UInt16 → PortSpec
  | some port => .num port
  | none => .auto

/-- An address and a TCP port. -/
def readTcpPort (text : Text) : Option (IpAddr × PortSpec) := do
  let (host, port) ← splitHost text
  let addr ← readHost host
  let port ← readPortText port
  return (addr, tcpSpec port)

/-- The path of a Unix socket. -/
def readUnixPath (text : Text) : Option Path := stripPrefix "unix:".toList text

/-- The listener of a control port. -/
def readControlListen (text : Text) : Option ControlListen :=
  match readTcpPort text with
  | some (addr, port) => some (.tcp addr port)
  | none => (readUnixPath text).map .unix

/-- A SOCKS listener: the address and the port, the flags, and the isolation settings. -/
def readSocksPort (text : Text) : Option SocksPort :=
  match text.splitOn ' ' with
  | [] => none
  | address :: tokens => do
    let (addr, port) ← (readTcpPort address).or
      ((readUnixPath address).map fun path => (.v4 .localhost, .unix path))
    let isolation ← (readFlags tokens).2.mapM readIsolation
    return ⟨addr, port, (readFlags tokens).1, isolation⟩

/-- What is written of a control port's listener: an address and a Unix socket are the socket. -/
def ControlListen.written : ControlListen → ControlListen
  | .tcp _ (.unix path) => .unix path
  | listen => listen

/-- What is written of a SOCKS listener: a Unix socket has no address, and is given the default
one. -/
def SocksPort.written (listener : SocksPort) : SocksPort :=
  match listener.port with
  | .unix _ => { listener with addr := .v4 .localhost }
  | _ => listener

/-- The value of a control port's line. -/
def controlValue : ControlListen → Text
  | .tcp addr port => renderAddrPort addr port
  | .unix path => "unix:".toList ++ path

/-- The value of a SOCKS port's line. -/
def socksValue (listener : SocksPort) : Text :=
  [' '].intercalate (renderAddrPort listener.addr listener.port :: listener.tokens)

/-- A TCP port is read back, unless it has an IPv6 address and is chosen by Tor. -/
theorem readTcpPort_render {addr : IpAddr} {port : PortSpec} {p : Option UInt16}
    (hport : port.tcp = some p) (hauto : ¬ (TcpListener.mk addr p [] []).IsAutoV6) :
    readTcpPort (renderAddrPort addr port) = some (addr, port) := by
  have hspec : tcpSpec p = port := by
    cases port with
    | num n =>
      obtain rfl : some n = p := Option.some.inj hport
      rfl
    | auto =>
      obtain rfl : none = p := Option.some.inj hport
      rfl
    | unix path => cases hport
  have htext := (@renderAddrPort_eq_iff ⟨addr, p, [], []⟩ port hport).mpr hauto
  dsimp only at htext
  unfold readTcpPort
  rw [htext]
  simp only [TcpListener.splitHost_host, TcpListener.readHost_host,
    TcpListener.readPortText_portText, Option.bind_eq_bind, Option.bind_some, hspec]
  rfl

/-- A Unix socket is no TCP port. -/
theorem readTcpPort_unix (path : Path) : readTcpPort ("unix:".toList ++ path) = none := by
  have haddress : splitHost ("unix:".toList ++ path) = some ("unix".toList, path) := rfl
  have hhost : readHost "unix".toList = none := by decide
  unfold readTcpPort
  simp only [haddress, hhost, Option.bind_eq_bind, Option.bind_some, Option.bind_none]

/-- A Unix socket is read back. -/
theorem readUnixPath_append (path : Path) : readUnixPath ("unix:".toList ++ path) = some path :=
  stripPrefix_append _ path

/-- A control port's listener is read back as far as it is written. -/
theorem readControlListen_value {listen : ControlListen}
    (h : ∀ listener ∈ listen.tcpListener, ¬ listener.IsAutoV6) :
    readControlListen (controlValue listen) = some listen.written := by
  have hunix (path : Path) : readControlListen ("unix:".toList ++ path) = some (.unix path) := by
    unfold readControlListen
    rw [readTcpPort_unix, readUnixPath_append]
    rfl
  have htcp {addr : IpAddr} {port : PortSpec} {p : Option UInt16} (hport : port.tcp = some p)
      (hauto : ¬ (TcpListener.mk addr p [] []).IsAutoV6) :
      readControlListen (renderAddrPort addr port) = some (.tcp addr port) := by
    unfold readControlListen
    rw [readTcpPort_render hport hauto]
  cases listen with
  | unix path => exact hunix path
  | tcp addr port =>
    cases port with
    | num n => exact @htcp addr (.num n) (some n) rfl (h ⟨addr, some n, [], []⟩ rfl)
    | auto => exact @htcp addr .auto none rfl (h ⟨addr, none, [], []⟩ rfl)
    | unix path => exact hunix path

/-- The address and the port of a listener have no space, if its path has none. -/
theorem notMem_renderAddrPort {addr : IpAddr} {port : PortSpec}
    (h : ∀ path, port = .unix path → ' ' ∉ path) : ' ' ∉ renderAddrPort addr port := by
  cases port with
  | num n => exact (SocketAddr.new addr n).notMem_display (by decide)
  | auto =>
    have haddr : ' ' ∉ addr.display := by
      cases addr with
      | v4 ip => exact ip.notMem_display (by decide)
      | v6 ip => exact ip.notMem_display (by decide)
    intro hmem
    rcases List.mem_append.mp hmem with hmem | hmem
    · exact haddr hmem
    · exact absurd hmem (by decide)
  | unix path =>
    intro hmem
    rcases List.mem_append.mp hmem with hmem | hmem
    · exact absurd hmem (by decide)
    · exact h path rfl hmem

/-- A SOCKS listener is read back as far as it is written. -/
theorem readSocksPort_value {listener : SocksPort}
    (hauto : ∀ l ∈ listener.tcpListener, ¬ l.IsAutoV6)
    (hpath : ∀ path, listener.port = .unix path → ' ' ∉ path) :
    readSocksPort (socksValue listener) = some listener.written := by
  obtain ⟨addr, port, flags, isolation⟩ := listener
  have htokens : ∀ token ∈ (SocksPort.mk addr port flags isolation).tokens, ' ' ∉ token := by
    unfold SocksPort.tokens
    simp only [List.forall_mem_append, List.forall_mem_map]
    exact ⟨fun flag _ => notMem_flag flag, fun isolation _ => notMem_isolation isolation⟩
  have hsplit : (socksValue ⟨addr, port, flags, isolation⟩).splitOn ' ' =
      renderAddrPort addr port :: (SocksPort.mk addr port flags isolation).tokens := by
    refine List.splitOn_intercalate ' ' ?_ (List.cons_ne_nil _ _)
    exact List.forall_mem_cons.mpr ⟨notMem_renderAddrPort hpath, htokens⟩
  have haddress : (readTcpPort (renderAddrPort addr port)).or
      ((readUnixPath (renderAddrPort addr port)).map fun path => (.v4 .localhost, .unix path)) =
        some ((SocksPort.mk addr port flags isolation).written.addr, port) := by
    cases port with
    | num n =>
      rw [readTcpPort_render rfl (hauto ⟨addr, some n, flags, isolation⟩ rfl)]
      rfl
    | auto =>
      rw [readTcpPort_render rfl (hauto ⟨addr, none, flags, isolation⟩ rfl)]
      rfl
    | unix path =>
      unfold renderAddrPort
      rw [readTcpPort_unix, readUnixPath_append]
      rfl
  unfold readSocksPort
  rw [hsplit]
  unfold SocksPort.tokens
  simp only [haddress, readFlags_append, mapM_readIsolation, Option.bind_eq_bind, Option.bind_some]
  cases port <;> rfl

/-! ## Bridges -/

/-- A plugin: its names, the word in front of the executable, and the words behind it. -/
def readPlugin (text : Text) : Option TransportPlugin :=
  match text.splitOn ' ' with
  | names :: word :: executable :: args =>
    if word = "exec".toList then some ⟨names.splitOn ',', executable, args⟩ else none
  | _ => none

/-- The words behind a bridge's address: the fingerprint, if the first one has no `=`, and the
arguments. -/
def readBridgeWords (transport : Option Text) (addr : SocketAddr) : List Text → Option Bridge
  | [] => some ⟨transport, addr, none, []⟩
  | word :: words =>
    if '=' ∈ word then
      ((word :: words).mapM (splitOnce '=')).map fun args => ⟨transport, addr, none, args⟩
    else (words.mapM (splitOnce '=')).map fun args => ⟨transport, addr, some word, args⟩

/-- A bridge. The word in front of its address is its transport. -/
def readBridge (text : Text) : Option Bridge :=
  match text.splitOn ' ' with
  | [] => none
  | word :: words =>
    match parseSocketAddr word, words with
    | some addr, words => readBridgeWords none addr words
    | none, [] => none
    | none, address :: words =>
      (parseSocketAddr address).bind fun addr => readBridgeWords (some word) addr words

/-- The words of a plugin's line can be told apart. -/
structure TransportPlugin.IsLegible (plugin : TransportPlugin) : Prop where
  names_ne_nil : plugin.names ≠ []
  names : ∀ name ∈ plugin.names, ',' ∉ name
  words : ∀ text ∈ plugin.strings, ' ' ∉ text

/-- The words of a bridge's line can be told apart. -/
structure Bridge.IsLegible (bridge : Bridge) : Prop where
  words : ∀ text ∈ bridge.strings, ' ' ∉ text
  transport : ∀ transport ∈ bridge.transport, parseSocketAddr transport = none
  fingerprint : ∀ fingerprint ∈ bridge.fingerprint, '=' ∉ fingerprint
  keys : ∀ arg ∈ bridge.args, '=' ∉ arg.1

/-- A plugin is read back. -/
theorem readPlugin_render {plugin : TransportPlugin} (h : plugin.IsLegible) :
    readPlugin (renderPlugin plugin) = some plugin := by
  obtain ⟨⟨hnames, hexecutable⟩, hargs⟩ := by
    simpa only [TransportPlugin.strings, List.forall_mem_append, List.forall_mem_singleton] using
      h.words
  have hjoined : ' ' ∉ [','].intercalate plugin.names := by
    intro hmem
    rcases mem_intercalate hmem with hmem | ⟨name, hname, hmem⟩
    · exact absurd (List.mem_singleton.mp hmem) (by decide)
    · exact hnames name hname hmem
  have hline : renderPlugin plugin = [' '].intercalate
      ([','].intercalate plugin.names :: "exec".toList :: plugin.executable :: plugin.args) := by
    rw [intercalate_cons, List.flatMap_cons, List.flatMap_cons]
    simp [renderPlugin]
  have hsplit : (renderPlugin plugin).splitOn ' ' =
      [','].intercalate plugin.names :: "exec".toList :: plugin.executable :: plugin.args := by
    rw [hline]
    refine List.splitOn_intercalate ' ' ?_ (List.cons_ne_nil _ _)
    simp only [List.forall_mem_cons]
    exact ⟨hjoined, by decide, hexecutable, hargs⟩
  unfold readPlugin
  rw [hsplit]
  simp only [if_true, List.splitOn_intercalate ',' h.names h.names_ne_nil]

/-- The arguments of a bridge are read back. -/
theorem mapM_splitOnce {args : List (Text × Text)} (h : ∀ arg ∈ args, '=' ∉ arg.1) :
    (args.map fun (key, value) => key ++ '=' :: value).mapM (splitOnce '=') = some args := by
  refine mapM_read_map fun arg harg => ?_
  exact splitOnce_eq_some_iff.mpr ⟨rfl, h arg harg⟩

/-- The words behind a bridge's address are read back. -/
theorem readBridgeWords_parts {bridge : Bridge} (h : bridge.IsLegible) :
    readBridgeWords bridge.transport bridge.addr (bridge.fingerprint.toList ++
      bridge.args.map fun (key, value) => key ++ '=' :: value) = some bridge := by
  obtain ⟨transport, addr, fingerprint, args⟩ := bridge
  have hargs := mapM_splitOnce h.keys
  dsimp only at hargs ⊢
  cases fingerprint with
  | some fingerprint =>
    have hfingerprint : '=' ∉ fingerprint := h.fingerprint fingerprint rfl
    rw [Option.toList_some, List.singleton_append, readBridgeWords, if_neg hfingerprint, hargs]
    rfl
  | none =>
    rw [Option.toList_none, List.nil_append]
    cases args with
    | nil => rfl
    | cons arg args =>
      have hword : '=' ∈ arg.1 ++ '=' :: arg.2 := List.mem_append_right _ List.mem_cons_self
      rw [List.map_cons] at hargs ⊢
      rw [readBridgeWords, if_pos hword, hargs]
      rfl

/-- A bridge is read back. -/
theorem readBridge_parts {bridge : Bridge} (h : bridge.IsLegible) :
    readBridge ([' '].intercalate (bridgeParts bridge)) = some bridge := by
  obtain ⟨⟨htransport, hfingerprint⟩, hargs⟩ := by
    simpa only [Bridge.strings, List.forall_mem_append, List.forall_mem_flatMap] using h.words
  have hwords : ∀ word ∈ bridgeParts bridge, ' ' ∉ word := by
    unfold bridgeParts
    simp only [List.forall_mem_append, List.forall_mem_singleton, List.forall_mem_map]
    refine ⟨⟨⟨htransport, bridge.addr.notMem_display (by decide)⟩, hfingerprint⟩,
      fun arg harg hmem => ?_⟩
    obtain ⟨hkey, hvalue⟩ := List.forall_mem_cons.mp (hargs arg harg)
    rcases List.mem_append.mp hmem with hmem | hmem
    · exact hkey hmem
    · rcases List.mem_cons.mp hmem with hmem | hmem
      · exact absurd hmem (by decide)
      · exact List.forall_mem_singleton.mp hvalue hmem
  have hne : bridgeParts bridge ≠ [] := by simp [bridgeParts]
  have hparts : bridgeParts bridge = bridge.transport.toList ++ bridge.addr.display ::
      (bridge.fingerprint.toList ++ bridge.args.map fun (key, value) => key ++ '=' :: value) := by
    simp [bridgeParts]
  have hrest := readBridgeWords_parts h
  unfold readBridge
  rw [List.splitOn_intercalate ' ' hwords hne, hparts]
  cases hname : bridge.transport with
  | none =>
    rw [hname] at hrest
    rw [Option.toList_none, List.nil_append]
    simp only [parseSocketAddr_display, hrest]
  | some transport =>
    rw [hname] at hrest
    rw [Option.toList_some, List.singleton_append]
    simp only [h.transport transport hname, parseSocketAddr_display, Option.bind_some, hrest]

/-! ## Logs -/

/-- A severity level. -/
def readSeverity (text : Text) : Option Severity :=
  [Severity.debug, .info, .notice, .warn, .err].find? (·.display = text)

/-- A log destination. -/
def readLogDest (text : Text) : Option LogDest :=
  match stripPrefix "file ".toList text with
  | some path => some (.file path)
  | none => [LogDest.stdout, .stderr, .syslog].find? (·.display = text)

/-- A log line: the severity, and the destination behind a space. -/
def readLog (text : Text) : Option LogLine := do
  let (severity, destination) ← splitOnce ' ' text
  let severity ← readSeverity severity
  let destination ← readLogDest destination
  return ⟨severity, destination⟩

/-- The value of a log's line. -/
def logValue (log : LogLine) : Text := log.severity.display ++ ' ' :: log.destination.display

/-- A severity level is read back. -/
theorem readSeverity_display (severity : Severity) :
    readSeverity severity.display = some severity := by
  cases severity <;> decide

/-- A log destination is read back. -/
theorem readLogDest_display (destination : LogDest) :
    readLogDest destination.display = some destination := by
  cases destination with
  | file path =>
    unfold readLogDest LogDest.display
    rw [stripPrefix_append]
  | _ => decide

/-- A log line is read back. -/
theorem readLog_value (log : LogLine) : readLog (logValue log) = some log := by
  have hseverity : ' ' ∉ log.severity.display := by
    cases log.severity <;> decide
  have hsplit : splitOnce ' ' (logValue log) =
      some (log.severity.display, log.destination.display) :=
    splitOnce_eq_some_iff.mpr ⟨rfl, hseverity⟩
  unfold readLog
  simp only [hsplit, readSeverity_display, readLogDest_display, Option.bind_eq_bind,
    Option.bind_some]
  rfl

end Torlane
