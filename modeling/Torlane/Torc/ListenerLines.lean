import Mathlib.Data.List.Forall2
import Torlane.Torc.Settings

/-!
# Listener lines

The lines of TCP listeners, as the grammar of a torrc has them: the address and the port, with an
IPv6 address in brackets, and the flags and isolation settings of a SOCKS listener. They are
compared with what `render_control_port` and `render_socks_port` of `src/tor/torc/render.rs` write,
which print a fixed port through `SocketAddr` and an automatic one through `IpAddr`.
`listenersReadBack_iff` says where the two disagree.
-/

namespace Torlane

open Text

/-! ## Listeners -/

/-- A TCP listener. It has no port if Tor chooses one. -/
structure TcpListener where
  addr : IpAddr
  port : Option UInt16
  flags : List SocksFlag
  isolation : List Isolation
  deriving DecidableEq, Repr

/-- The fixed or automatic port of a TCP listener. -/
def PortSpec.tcp : PortSpec → Option (Option UInt16)
  | .num port => some (some port)
  | .auto => some none
  | .unix _ => none

/-- The TCP listener of a control port. -/
def ControlListen.tcpListener : ControlListen → Option TcpListener
  | .tcp addr port => port.tcp.map fun port => ⟨addr, port, [], []⟩
  | .unix _ => none

/-- The TCP listener of a SOCKS port. -/
def SocksPort.tcpListener (listener : SocksPort) : Option TcpListener :=
  listener.port.tcp.map fun port => ⟨listener.addr, port, listener.flags, listener.isolation⟩

namespace TcpListener

variable (listener : TcpListener)

/-- The host, with an IPv6 address in brackets. -/
def host : Text :=
  match listener.addr with
  | .v4 ip => ip.display
  | .v6 ip => '[' :: (ip.display ++ [']'])

/-- The port, or the word that stands for an automatic one. -/
def portText : Text := (listener.port.map fun port => decimal port.toNat).getD "auto".toList

/-- The flags and the isolation settings. -/
def tokens : List Text := listener.flags.map (·.display) ++ listener.isolation.map (·.display)

/-- The line of a listener. -/
def line (key : String) : Text :=
  optionLine key (listener.host ++ ':' :: listener.portText ++ listener.tokens.flatMap (' ' :: ·))

end TcpListener

/-! ## Reading a line -/

/-- An IPv4 address, or an IPv6 address in brackets. -/
def readHost : Text → Option IpAddr
  | '[' :: text =>
    match readIpv6Addr text with
    | some (ip, [']']) => some (.v6 ip)
    | _ => none
  | text => (parseWith readIpv4Addr text).map .v4

/-- A port, or the word that stands for an automatic one. -/
def readPortText (text : Text) : Option (Option UInt16) :=
  if text = "auto".toList then some none
  else (parseUnsigned 65535 text).map fun port => some (.ofNat port)

/-- A number with a sign or without one. -/
def readInt32 : Text → Option Int32
  | '-' :: digits => (parseUnsigned (2^31) digits).map fun (n : ℕ) => .ofInt (-(n : ℤ))
  | digits => (parseUnsigned (2^31 - 1) digits).map fun (n : ℕ) => .ofInt (n : ℤ)

/-- A flag. -/
def readFlag (token : Text) : Option SocksFlag :=
  [SocksFlag.noIPv4Traffic, .ipv6Traffic, .preferIPv6, .noDNSRequest, .noOnionTraffic,
    .onionTrafficOnly, .cacheDNS, .useDNSCache, .preferSocksNoAuth, .extendedErrors].find?
      fun flag => flag.display = token

/-- An isolation setting. -/
def readIsolation (token : Text) : Option Isolation :=
  match stripPrefix "SessionGroup=".toList token with
  | some group => (readInt32 group).map .sessionGroup
  | none =>
    [Isolation.isolateClientAddr, .noIsolateClientAddr, .isolateSocksAuth, .noIsolateSocksAuth,
      .isolateClientProtocol, .isolateDestPort, .isolateDestAddr, .keepAliveIsolateSocksAuth].find?
        fun isolation => isolation.display = token

/-- The flags at the front of the tokens, and the other tokens. -/
def readFlags : List Text → List SocksFlag × List Text
  | [] => ([], [])
  | token :: tokens =>
    match readFlag token with
    | some flag => (flag :: (readFlags tokens).1, (readFlags tokens).2)
    | none => ([], token :: tokens)

/-- The listener of a line. -/
def readListener (line : Text) : Option TcpListener :=
  match line.splitOn ' ' with
  | _ :: address :: tokens => do
    let (host, port) ← splitHost address
    let addr ← readHost host
    let port ← readPortText port
    let isolation ← (readFlags tokens).2.mapM readIsolation
    return ⟨addr, port, (readFlags tokens).1, isolation⟩
  | _ => none

/-! ## Lines that show their listeners -/

/-- A line shows a TCP listener if it is the listener's line and is read back as the listener. What
is no TCP listener has a line that is read as none. -/
def Shows (key : String) : Option TcpListener → Text → Prop
  | some listener, line => line = listener.line key ∧ readListener line = some listener
  | none, line => readListener line = none

/-- The lines with the names of listeners show the configured listeners, one line for each. -/
structure ListenersReadBack (config : TorConfig) : Prop where
  control : List.Forall₂ (Shows "ControlPort")
    (config.control.toList.map (·.listen.tcpListener)) (linesNamed "ControlPort" config.render)
  socks : List.Forall₂ (Shows "SocksPort")
    (config.socks.listeners.map (·.tcpListener)) (linesNamed "SocksPort" config.render)

/-- The configured TCP listeners. -/
def TorConfig.tcpListeners (config : TorConfig) : List TcpListener :=
  (config.control.toList.map (·.listen.tcpListener) ++
    config.socks.listeners.map (·.tcpListener)).filterMap id

/-- An IPv6 address with an automatic port. -/
def TcpListener.IsAutoV6 (listener : TcpListener) : Prop :=
  listener.port = none ∧ ∃ ip, listener.addr = .v6 ip

/-! ## Tokens are read back -/

/-- A flag is read back. -/
theorem readFlag_display (flag : SocksFlag) : readFlag flag.display = some flag := by
  cases flag <;> decide

/-- An isolation setting is not read as a flag. -/
theorem readFlag_isolation (isolation : Isolation) : readFlag isolation.display = none := by
  cases isolation with
  | sessionGroup group => rfl
  | _ => decide

/-- A number with a sign is read back. -/
theorem readInt32_decimalInt (n : Int32) : readInt32 (decimalInt n.toInt) = some n := by
  have hmin := n.le_toInt
  have hmax := n.toInt_lt
  have hback := n.ofInt_toInt
  generalize n.toInt = z at hmin hmax hback ⊢
  cases z with
  | ofNat m =>
    rw [Int.ofNat_eq_natCast] at hmax
    have hread : parseUnsigned (2^31 - 1) (decimal m) = some m := parseUnsigned_decimal (by omega)
    have hsign : ∀ digits, decimal m ≠ '-' :: digits := by
      intro digits h
      have hminus : '-' ∉ decimal m := notMem_decimal (by decide) m
      rw [h] at hminus
      exact hminus List.mem_cons_self
    show readInt32 (decimal m) = some n
    unfold readInt32
    split
    · next digits heq => exact absurd heq (hsign digits)
    · rw [hread, Option.map_some, ← hback]
      rfl
  | negSucc m =>
    have hread : parseUnsigned (2^31) (decimal (m + 1)) = some (m + 1) :=
      parseUnsigned_decimal (by omega)
    show (parseUnsigned (2^31) (decimal (m + 1))).map (fun (n : ℕ) => Int32.ofInt (-(n : ℤ))) =
      some n
    rw [hread, Option.map_some, ← hback]
    rfl

/-- An isolation setting is read back. -/
theorem readIsolation_display (isolation : Isolation) :
    readIsolation isolation.display = some isolation := by
  cases isolation with
  | sessionGroup group =>
    unfold readIsolation Isolation.display
    rw [stripPrefix_append]
    simp only [readInt32_decimalInt, Option.map_some]
  | _ => decide

/-- A flag has no space. -/
theorem notMem_flag (flag : SocksFlag) : ' ' ∉ flag.display := by
  cases flag <;> decide

/-- An isolation setting has no space. -/
theorem notMem_isolation (isolation : Isolation) : ' ' ∉ isolation.display := by
  cases isolation with
  | sessionGroup group =>
    have hgroup : ' ' ∉ decimalInt group.toInt := by
      cases group.toInt with
      | ofNat n => exact notMem_decimal (by decide) n
      | negSucc n => simpa [decimalInt] using notMem_decimal (by decide) (n + 1)
    intro hmem
    rcases List.mem_append.mp hmem with h | h
    · exact absurd h (by decide)
    · exact hgroup h
  | _ => decide

/-- Flags are read up to the first isolation setting. -/
theorem readFlags_append (flags : List SocksFlag) (isolation : List Isolation) :
    readFlags (flags.map (·.display) ++ isolation.map (·.display)) =
      (flags, isolation.map (·.display)) := by
  induction flags with
  | nil =>
    cases isolation with
    | nil => rfl
    | cons first isolation =>
      simp only [List.map_nil, List.nil_append, List.map_cons, readFlags, readFlag_isolation]
  | cons flag flags ih =>
    simp only [List.map_cons, List.cons_append, readFlags, readFlag_display, ih]

/-- Isolation settings are read back. -/
theorem mapM_readIsolation (isolation : List Isolation) :
    (isolation.map (·.display)).mapM readIsolation = some isolation := by
  induction isolation with
  | nil => rfl
  | cons first isolation ih =>
    rw [List.map_cons, List.mapM_cons, readIsolation_display, ih]
    rfl

/-! ## Lines are read back -/

namespace TcpListener

variable (listener : TcpListener)

/-- A host is read back. -/
theorem readHost_host : readHost listener.host = some listener.addr := by
  unfold host
  cases haddr : listener.addr with
  | v4 ip =>
    have hopen : ∀ text, ip.display ≠ '[' :: text := by
      intro text h
      have hnot : '[' ∉ ip.display := ip.notMem_display (by decide)
      rw [h] at hnot
      exact hnot List.mem_cons_self
    have hread := @readIpv4Addr_display ip [] nofun
    rw [List.append_nil] at hread
    show readHost ip.display = _
    unfold readHost
    split
    · next text heq => exact absurd heq (hopen text)
    · unfold parseWith
      rw [hread]
      rfl
  | v6 ip =>
    have hread := @readIpv6Addr_display ip [']'] (ends_cons (by decide) (by decide))
    show (match readIpv6Addr (ip.display ++ [']']) with
      | some (ip, [']']) => some (IpAddr.v6 ip)
      | _ => none) = _
    rw [hread]
    rfl

/-- A port is read back. -/
theorem readPortText_portText : readPortText listener.portText = some listener.port := by
  unfold portText
  cases listener.port with
  | none => rfl
  | some port =>
    have hlt : port.toNat < 65536 := port.toNat_lt
    have hread : parseUnsigned 65535 (decimal port.toNat) = some port.toNat :=
      parseUnsigned_decimal (by omega)
    have hauto : decimal port.toNat ≠ "auto".toList := by
      intro h
      have hletter : 'a' ∉ decimal port.toNat := notMem_decimal (by decide) _
      rw [h] at hletter
      exact hletter (by decide)
    show readPortText (decimal port.toNat) = _
    unfold readPortText
    rw [if_neg hauto, hread, Option.map_some, UInt16.ofNat_toNat]

/-- The address and the port are found. -/
theorem splitHost_host : splitHost (listener.host ++ ':' :: listener.portText) =
    some (listener.host, listener.portText) := by
  have hhost : listener.host = (SocketAddr.new listener.addr 0).displayHost := by
    unfold host SocketAddr.new
    cases listener.addr <;> simp [SocketAddr.displayHost]
  refine splitHost_append ?_
  rw [hhost]
  exact isHost_displayHost _

/-- A line is split at its spaces. -/
theorem splitOn_line {key : String} (hkey : ' ' ∉ key.toList) : (listener.line key).splitOn ' ' =
    key.toList :: (listener.host ++ ':' :: listener.portText) :: listener.tokens := by
  have hhost : ' ' ∉ listener.host := by
    unfold host
    cases listener.addr with
    | v4 ip => exact ip.notMem_display (by decide)
    | v6 ip =>
      intro hmem
      rcases List.mem_cons.mp hmem with h | h
      · exact absurd h (by decide)
      · rcases List.mem_append.mp h with h | h
        · exact ip.notMem_display (by decide) h
        · exact absurd (List.mem_singleton.mp h) (by decide)
  have hport : ' ' ∉ listener.portText := by
    unfold portText
    cases listener.port with
    | none => decide
    | some port => exact notMem_decimal (by decide) _
  have htokens : ∀ token ∈ listener.tokens, ' ' ∉ token := by
    unfold tokens
    simp only [List.forall_mem_append, List.forall_mem_map]
    exact ⟨fun flag _ => notMem_flag flag, fun isolation _ => notMem_isolation isolation⟩
  have hline : listener.line key = [' '].intercalate
      (key.toList :: (listener.host ++ ':' :: listener.portText) :: listener.tokens) := by
    rw [intercalate_cons, List.flatMap_cons]
    rfl
  rw [hline]
  refine List.splitOn_intercalate ' ' ?_ (List.cons_ne_nil _ _)
  simp only [List.forall_mem_cons]
  refine ⟨hkey, ?_, htokens⟩
  simp [hhost, hport]

/-- A listener's line is read back. -/
theorem readListener_line {key : String} (hkey : ' ' ∉ key.toList) :
    readListener (listener.line key) = some listener := by
  unfold readListener
  rw [listener.splitOn_line hkey]
  unfold tokens
  simp only [listener.splitHost_host, listener.readHost_host, listener.readPortText_portText,
    readFlags_append, mapM_readIsolation, Option.bind_eq_bind, Option.bind_some]
  rfl

end TcpListener

/-! ## Rendering -/

/-- The address and the port are rendered as in a listener's line, except for an IPv6 address with
an automatic port, which has no brackets. -/
theorem renderAddrPort_eq_iff {listener : TcpListener} {port : PortSpec}
    (h : port.tcp = some listener.port) :
    renderAddrPort listener.addr port = listener.host ++ ':' :: listener.portText ↔
      ¬ listener.IsAutoV6 := by
  obtain ⟨addr, p, flags, isolation⟩ := listener
  unfold TcpListener.IsAutoV6 TcpListener.host TcpListener.portText
  cases port with
  | num n =>
    obtain rfl : some n = p := Option.some.inj h
    refine iff_of_true ?_ (fun hauto => Option.some_ne_none n hauto.1)
    cases addr <;> simp [renderAddrPort, SocketAddr.new, SocketAddr.display]
  | auto =>
    obtain rfl : none = p := Option.some.inj h
    cases addr with
    | v4 ip =>
      refine iff_of_true rfl ?_
      rintro ⟨-, _, hip⟩
      cases hip
    | v6 ip =>
      refine iff_of_false (fun heq => ?_) (not_not_intro ⟨rfl, ip, rfl⟩)
      have hlength := congrArg List.length heq
      simp [renderAddrPort, IpAddr.display] at hlength
  | unix path => cases h

/-- A listener's line is shown unless the listener has an IPv6 address and an automatic port. -/
theorem shows_iff {key : String} (hkey : ' ' ∉ key.toList) {listener : TcpListener}
    {port : PortSpec} (h : port.tcp = some listener.port) :
    Shows key (some listener) (optionLine key (renderAddrPort listener.addr port ++
      listener.tokens.flatMap (' ' :: ·))) ↔ ¬ listener.IsAutoV6 := by
  rw [← renderAddrPort_eq_iff h]
  constructor
  · rintro ⟨heq, -⟩
    have hvalue := (List.cons.inj (List.append_cancel_left heq)).2
    exact List.append_cancel_right hvalue
  · intro heq
    rw [heq]
    exact ⟨rfl, listener.readListener_line hkey⟩

/-- A Unix socket's line is read as no TCP listener. -/
theorem readListener_unix {key : String} (hkey : ' ' ∉ key.toList) (text : Text) :
    readListener (optionLine key ("unix:".toList ++ text)) = none := by
  have hsplit : (optionLine key ("unix:".toList ++ text)).splitOn ' ' =
      key.toList :: (text.splitOn ' ').modifyHead ("unix:".toList ++ ·) := by
    unfold optionLine
    rw [splitOn_append_cons hkey, splitOn_append_of_notMem (by decide)]
  unfold readListener
  rw [hsplit]
  cases text.splitOn ' ' with
  | nil => rfl
  | cons first others =>
    have haddress : splitHost ("unix:".toList ++ first) = some ("unix".toList, first) := rfl
    have hhost : readHost "unix".toList = none := by decide
    simp only [List.modifyHead_cons, haddress, hhost, Option.bind_eq_bind, Option.bind_some,
      Option.bind_none]

/-- The line of a control port shows its TCP listener unless it has an IPv6 address and an automatic
port. -/
theorem shows_renderControlPort (listen : ControlListen) :
    Shows "ControlPort" listen.tcpListener (renderControlPort listen) ↔
      ∀ listener ∈ listen.tcpListener, ¬ listener.IsAutoV6 := by
  cases listen with
  | unix path => exact iff_of_true (readListener_unix (by decide) path) nofun
  | tcp addr port =>
    cases hport : port.tcp with
    | none =>
      cases port with
      | unix path => exact iff_of_true (readListener_unix (by decide) path) nofun
      | _ => cases hport
    | some p =>
      have hlistener : (ControlListen.tcp addr port).tcpListener = some ⟨addr, p, [], []⟩ := by
        simp [ControlListen.tcpListener, hport]
      have hline : renderControlPort (.tcp addr port) =
          optionLine "ControlPort" (renderAddrPort addr port ++
            (TcpListener.mk addr p [] []).tokens.flatMap (' ' :: ·)) := by
        simp [renderControlPort, TcpListener.tokens]
      rw [hlistener, hline, shows_iff (by decide) hport]
      simp

/-- The line of a SOCKS port shows its TCP listener unless it has an IPv6 address and an automatic
port. -/
theorem shows_renderSocksPort (listener : SocksPort) :
    Shows "SocksPort" listener.tcpListener (renderSocksPort listener) ↔
      ∀ l ∈ listener.tcpListener, ¬ l.IsAutoV6 := by
  rw [renderSocksPort_eq]
  unfold SocksPort.tcpListener
  cases hport : listener.port.tcp with
  | none =>
    refine iff_of_true ?_ nofun
    cases haddr : listener.port with
    | unix path =>
      show readListener (optionLine "SocksPort" ("unix:".toList ++ path ++ _)) = none
      rw [List.append_assoc]
      exact readListener_unix (by decide) _
    | _ =>
      rw [haddr] at hport
      cases hport
  | some p =>
    have hshows := @shows_iff "SocksPort" (by decide)
      ⟨listener.addr, p, listener.flags, listener.isolation⟩ listener.port hport
    refine hshows.trans ?_
    simp

/-! ## The lines of a configuration -/

/-- A text without a line break. -/
theorem notMem_newline : IsValueProperty ('\n' ∉ ·) where
  plain h hmem := (h '\n' hmem).1 rfl
  append ha hb hmem := (List.mem_append.mp hmem).elim ha hb

section Config

variable {config : TorConfig}

/-- The option lines of a configuration without raw options. -/
theorem optionLines_of_noRaw (hraw : config.rawOptions = [])
    (h : ∀ text ∈ config.strings, '\n' ∉ text) :
    optionLines config.render = earlierLines config ++ laterLines config := by
  have hlines := sets_lines notMem_newline h
  have hall : (sections config).flatMap (·.2) = earlierLines config ++ laterLines config := by
    rw [flatMap_sections, hraw]
    exact List.append_nil _
  rw [optionLines_render, ← List.flatMap_assoc, hall]
  have hsingle : ∀ line ∈ earlierLines config ++ laterLines config, optionLines line = [line] :=
    fun line hline => optionLines_eq_singleton
      ((hlines line hline).value notMem_newline (List.Subset.refl _))
      ((hlines line hline).isOptionLine (List.Subset.refl _))
  rw [List.flatMap_congr hsingle, List.flatMap_singleton']

/-- No line has a name that its option does not have. -/
theorem filter_keyword_eq_nil {P : Text → Prop} {names : List String} {name : String}
    {lines : List Text} (h : ∀ line ∈ lines, Sets P names line) (hnames : names ⊆ settingNames)
    (hname : ∀ n ∈ names, n.toList ≠ name.toList) :
    lines.filter (keyword · = name.toList) = [] := by
  refine List.filter_eq_nil_iff.mpr fun line hline hkeyword => ?_
  obtain ⟨n, hn, heq⟩ := (h line hline).keyword hnames
  rw [heq] at hkeyword
  exact hname n hn (of_decide_eq_true hkeyword)

/-- Each line has the name of its option. -/
theorem filter_keyword_eq_self {P : Text → Prop} {name : String} {lines : List Text}
    (h : ∀ line ∈ lines, Sets P [name] line) (hname : [name] ⊆ settingNames) :
    lines.filter (keyword · = name.toList) = lines := by
  refine List.filter_eq_self.mpr fun line hline => ?_
  obtain ⟨n, hn, heq⟩ := (h line hline).keyword hname
  rw [heq, List.mem_singleton.mp hn]
  exact decide_eq_true rfl

/-- The lines of control ports and of SOCKS ports. -/
theorem linesNamed_listener (hraw : config.rawOptions = [])
    (h : ∀ text ∈ config.strings, '\n' ∉ text) :
    linesNamed "ControlPort" config.render =
        config.control.toList.map (renderControlPort ·.listen) ∧
      linesNamed "SocksPort" config.render = config.socks.listeners.map renderSocksPort := by
  have hlater := allSet_laterLines notMem_newline h
  obtain ⟨others, hearlier, hfirst, hports, hothers, hlisteners⟩ :=
    earlierLines_cases notMem_newline h
  have hdirectory := List.forall_mem_singleton.mpr hfirst
  unfold linesNamed
  rw [optionLines_of_noRaw hraw h, hearlier]
  simp only [List.filter_append]
  constructor
  · rw [filter_keyword_eq_nil hdirectory (by decide) (by decide),
      filter_keyword_eq_self hports (by decide),
      filter_keyword_eq_nil hothers otherNames_subset (by decide),
      filter_keyword_eq_nil hlisteners (by decide) (by decide),
      filter_keyword_eq_nil hlater otherNames_subset (by decide)]
    simp
  · rw [filter_keyword_eq_nil hdirectory (by decide) (by decide),
      filter_keyword_eq_nil hports (by decide) (by decide),
      filter_keyword_eq_nil hothers otherNames_subset (by decide),
      filter_keyword_eq_self hlisteners (by decide),
      filter_keyword_eq_nil hlater otherNames_subset (by decide)]
    simp

/-- Without raw options and line breaks, the listener lines show the configured listeners if and
only if no TCP listener has an IPv6 address and an automatic port. -/
theorem listenersReadBack_iff (hraw : config.rawOptions = [])
    (h : ∀ text ∈ config.strings, '\n' ∉ text) :
    ListenersReadBack config ↔ ∀ listener ∈ config.tcpListeners, ¬ listener.IsAutoV6 := by
  obtain ⟨hcontrol, hsocks⟩ := linesNamed_listener hraw h
  have hsame {α : Type} {key : String} {listener : α → Option TcpListener} {line : α → Text}
      (hshows : ∀ a, Shows key (listener a) (line a) ↔ ∀ l ∈ listener a, ¬ l.IsAutoV6)
      (items : List α) : List.Forall₂ (Shows key) (items.map listener) (items.map line) ↔
        ∀ a ∈ items, ∀ l ∈ listener a, ¬ l.IsAutoV6 := by
    rw [List.forall₂_map_left_iff, List.forall₂_map_right_iff, List.forall₂_same]
    simp only [hshows]
  have hparts : (∀ listener ∈ config.tcpListeners, ¬ listener.IsAutoV6) ↔
      (∀ control ∈ config.control.toList, ∀ l ∈ control.listen.tcpListener, ¬ l.IsAutoV6) ∧
        ∀ listener ∈ config.socks.listeners, ∀ l ∈ listener.tcpListener, ¬ l.IsAutoV6 := by
    unfold TorConfig.tcpListeners
    rw [List.forall_mem_filterMap, List.forall_mem_append, List.forall_mem_map, List.forall_mem_map]
    rfl
  rw [hparts]
  constructor
  · intro hread
    have hread₁ := hread.control
    have hread₂ := hread.socks
    rw [hcontrol] at hread₁
    rw [hsocks] at hread₂
    exact ⟨(hsame (fun control => shows_renderControlPort control.listen) _).mp hread₁,
      (hsame shows_renderSocksPort _).mp hread₂⟩
  · rintro ⟨hread₁, hread₂⟩
    constructor
    · rw [hcontrol]
      exact (hsame (fun control => shows_renderControlPort control.listen) _).mpr hread₁
    · rw [hsocks]
      exact (hsame shows_renderSocksPort _).mpr hread₂

end Config

/-- A configuration with one SOCKS port. -/
def socksBuilder (listener : SocksPort) : TorConfigBuilder :=
  { TorConfigBuilder.new "/tmp/tor/data".toList with socks := SocksConfig.none.listener listener }

/-- A listener at `[::1]` with a fixed port, a flag, and a session group. -/
theorem listenersReadBack_iff_fixed : ∃ config,
    (socksBuilder ⟨.v6 ⟨#v[0, 0, 0, 0, 0, 0, 0, 1]⟩, .num 9050, [.extendedErrors],
      [.sessionGroup (-1)]⟩).build = .ok config ∧ ListenersReadBack config := by
  refine ⟨_, rfl, (listenersReadBack_iff rfl ?_).mpr ?_⟩
  · decide
  · intro listener hlistener
    obtain rfl := List.mem_singleton.mp hlistener
    exact fun hauto => Option.some_ne_none _ hauto.1

/-- A listener at `[::1]` with an automatic port is written without brackets. -/
theorem listenersReadBack_autoV6 : ∃ config,
    (socksBuilder ⟨.v6 ⟨#v[0, 0, 0, 0, 0, 0, 0, 1]⟩, .auto, [], []⟩).build = .ok config ∧
      config.rawOptions = [] ∧ (∀ text ∈ config.strings, '\n' ∉ text) ∧
      linesNamed "SocksPort" config.render = ["SocksPort ::1:auto".toList] ∧
      ¬ ListenersReadBack config := by
  refine ⟨_, rfl, rfl, by decide, rfl, fun h => ?_⟩
  cases h.socks with
  | cons hshows _ => exact absurd hshows.1 (by decide)

end Torlane
