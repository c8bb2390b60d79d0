import Torlane.Torc.Values

/-!
# Typed obfs4 bridges

`Obfs4Bridge` of `src/tor/torc/bridges.rs`, its conversion to a bridge, and the configuration that
`BridgeConfig::obfs4` and `BridgeConfig::bridge` make of a list of them. `BridgeConfig::validate`
finds the arguments of a bridge by name and parses the text of the mode: `obfs4_spec` says that what
it finds is what the typed bridges hold, that it reports the first of them that is at fault, and
that the bridge lines are read back as the typed bridges.
-/

namespace Torlane

open Text Table

/-- `Obfs4Bridge`. -/
structure Obfs4Bridge where
  addr : SocketAddr
  fingerprint : Text
  cert : Text
  iatMode : UInt8
  deriving DecidableEq, Repr

/-- `Bridge::from` of an obfs4 bridge. -/
def Obfs4Bridge.toBridge (value : Obfs4Bridge) : Bridge where
  transport := some "obfs4".toList
  addr := value.addr
  fingerprint := some value.fingerprint
  args := [("cert".toList, value.cert), ("iat-mode".toList, decimal value.iatMode.toNat)]

/-- `TransportPlugin::exec`. -/
def TransportPlugin.exec (names : List Text) (executable : Path) : TransportPlugin :=
  ⟨names, executable, []⟩

namespace BridgeConfig

/-- `BridgeConfig::new`. -/
def new : BridgeConfig := ⟨true, [], []⟩

/-- `BridgeConfig::bridge`. -/
def bridge (config : BridgeConfig) (bridge : Bridge) : BridgeConfig :=
  { config with bridges := config.bridges ++ [bridge] }

/-- `BridgeConfig::transport_plugin`. -/
def transportPlugin (config : BridgeConfig) (plugin : TransportPlugin) : BridgeConfig :=
  { config with transportPlugins := config.transportPlugins ++ [plugin] }

/-- `BridgeConfig::obfs4`. -/
def obfs4 (lyrebird : Path) : BridgeConfig := new.transportPlugin (.exec ["obfs4".toList] lyrebird)

/-- The calls of `bridge` for typed bridges, in order. -/
def withObfs4 (config : BridgeConfig) (bridges : List Obfs4Bridge) : BridgeConfig :=
  bridges.foldl (fun config value => config.bridge value.toBridge) config

end BridgeConfig

/-! ## What is demanded of a typed bridge -/

/-- What is wrong with a typed bridge. -/
def Obfs4Bridge.fault (value : Obfs4Bridge) : Option String :=
  if value.fingerprint = [] then some "empty fingerprint"
  else if value.cert = [] then some "empty cert"
  else if 2 < value.iatMode.toNat then some "invalid iat-mode"
  else none

/-- A typed bridge, from the arguments of a bridge. -/
def readObfs4 (bridge : Bridge) : Option Obfs4Bridge :=
  match bridge.transport, bridge.fingerprint, bridge.args with
  | some transport, some fingerprint, [(certKey, cert), (modeKey, mode)] =>
    if transport = "obfs4".toList ∧ certKey = "cert".toList ∧ modeKey = "iat-mode".toList then
      (parseUnsigned 255 mode).map fun mode => ⟨bridge.addr, fingerprint, cert, .ofNat mode⟩
    else none
  | _, _, _ => none

/-- The values of the bridge lines, among lines of options. -/
def bridgeLineValues (lines : List Text) : List Text :=
  lines.filterMap (stripPrefix "Bridge ".toList)

/-- The typed bridges of the bridge lines. -/
def readObfs4Lines (lines : List Text) : Option (List Obfs4Bridge) :=
  (bridgeLineValues lines).mapM fun text => (readBridge text).bind readObfs4

/-- The strings of a typed bridge can be told apart on its line. -/
structure Obfs4Bridge.IsLegible (value : Obfs4Bridge) : Prop where
  fingerprint : ' ' ∉ value.fingerprint ∧ '=' ∉ value.fingerprint
  cert : ' ' ∉ value.cert

namespace Obfs4Bridge

variable (value : Obfs4Bridge)

/-- The printed mode is parsed. -/
theorem parseUnsigned_iatMode :
    parseUnsigned 255 (decimal value.iatMode.toNat) = some value.iatMode.toNat := by
  have hlt : value.iatMode.toNat < 256 := value.iatMode.toNat_lt
  exact parseUnsigned_decimal (by omega)

/-- A typed bridge is read back from the bridge that it is converted to. -/
theorem readObfs4_toBridge : readObfs4 value.toBridge = some value := by
  have hmode := value.parseUnsigned_iatMode
  show (parseUnsigned 255 (decimal value.iatMode.toNat)).map
    (fun mode => (⟨value.addr, value.fingerprint, value.cert, .ofNat mode⟩ : Obfs4Bridge)) = _
  rw [hmode, Option.map_some, UInt8.ofNat_toNat]

/-- The checks of the bridge find what is wrong with the typed one. -/
theorem validateObfs4_toBridge : value.toBridge.validateObfs4 =
    match value.fault with
    | some message => .error (.invalidObfs4Bridge message)
    | none => .ok () := by
  have hcert : (value.toBridge.args.find? (·.1 = "cert".toList)).map (·.2) = some value.cert := rfl
  have hmode : ((value.toBridge.args.find? (·.1 = "iat-mode".toList)).map (·.2)).bind
      (parseUnsigned 255) = some value.iatMode.toNat := value.parseUnsigned_iatMode
  have hfingerprint : value.toBridge.fingerprint = some value.fingerprint := rfl
  unfold Bridge.validateObfs4 fault
  simp only [hcert, hmode, hfingerprint, Option.getD_some]
  by_cases hprint : value.fingerprint = []
  · simp only [if_pos hprint]
  · by_cases hempty : value.cert = []
    · simp only [if_neg hprint, if_pos hempty]
    · by_cases hlarge : 2 < value.iatMode.toNat
      · have hnot : ¬ value.iatMode.toNat ≤ 2 := by omega
        simp only [if_neg hprint, if_neg hempty, if_pos hlarge, if_neg hnot]
      · have hle : value.iatMode.toNat ≤ 2 := by omega
        simp only [if_neg hprint, if_neg hempty, if_neg hlarge, if_pos hle]

/-- The line of a legible typed bridge can be read. -/
theorem IsLegible.toBridge {value : Obfs4Bridge} (h : value.IsLegible) :
    value.toBridge.IsLegible where
  words := by
    have hmode : ' ' ∉ decimal value.iatMode.toNat := notMem_decimal (by decide) _
    have hstrings : value.toBridge.strings = ["obfs4".toList, value.fingerprint, "cert".toList,
        value.cert, "iat-mode".toList, decimal value.iatMode.toNat] := rfl
    rw [hstrings]
    simp only [List.forall_mem_cons]
    exact ⟨by decide, h.fingerprint.1, by decide, h.cert, by decide, hmode, by simp⟩
  transport := by
    intro transport htransport
    obtain rfl := Option.some.inj htransport
    decide
  fingerprint := by
    intro fingerprint hfingerprint
    obtain rfl := Option.some.inj hfingerprint
    exact h.fingerprint.2
  keys := by
    have hargs : value.toBridge.args = [("cert".toList, value.cert),
        ("iat-mode".toList, decimal value.iatMode.toNat)] := rfl
    rw [hargs]
    simp only [List.forall_mem_cons]
    exact ⟨by decide, by decide, by simp⟩

end Obfs4Bridge

/-! ## Many typed bridges -/

/-- A line that starts with another letter is no bridge line. -/
theorem stripPrefix_bridge {c : Char} (hc : c ≠ 'B') (text : Text) :
    stripPrefix "Bridge ".toList (c :: text) = none :=
  stripPrefix_eq_none fun h => hc (List.cons_prefix_cons.mp h).1.symm

/-- The value of a bridge's line. -/
theorem stripPrefix_renderBridge (bridge : Bridge) :
    stripPrefix "Bridge ".toList (renderBridge bridge) =
      some ([' '].intercalate (bridgeParts bridge)) := by
  rw [renderBridge_eq]
  exact stripPrefix_append "Bridge ".toList _

/-- Of the lines of a section, those of the bridges are read. -/
theorem bridgeLineValues_renderBridges (config : BridgeConfig) :
    bridgeLineValues (renderBridges config) =
      config.bridges.map fun bridge => [' '].intercalate (bridgeParts bridge) := by
  have huse : stripPrefix "Bridge ".toList (optionLine "UseBridges"
      (displayFlag config.useBridges)) = none := stripPrefix_bridge (by decide) _
  have hplugins : (config.transportPlugins.map fun plugin =>
      optionLine "ClientTransportPlugin" (renderPlugin plugin)).filterMap
        (stripPrefix "Bridge ".toList) = [] := by
    rw [List.filterMap_map, List.filterMap_eq_nil_iff]
    exact fun plugin _ => stripPrefix_bridge (by decide) _
  have hbridges : (config.bridges.map renderBridge).filterMap (stripPrefix "Bridge ".toList) =
      config.bridges.map fun bridge => [' '].intercalate (bridgeParts bridge) := by
    rw [List.filterMap_map, ← List.filterMap_eq_map]
    exact List.filterMap_congr fun bridge _ => stripPrefix_renderBridge bridge
  rw [bridgeLineValues, renderBridges, List.filterMap_append, List.filterMap_append, hplugins,
    hbridges, List.filterMap_cons, huse]
  rfl

/-- The bridges that are added, behind those that are there. -/
theorem BridgeConfig.withObfs4_eq (config : BridgeConfig) (bridges : List Obfs4Bridge) :
    config.withObfs4 bridges =
      { config with bridges := config.bridges ++ bridges.map (·.toBridge) } := by
  unfold withObfs4
  induction bridges generalizing config with
  | nil => simp
  | cons value bridges ih =>
    rw [List.foldl_cons, ih]
    simp [BridgeConfig.bridge]

/-- The first typed bridge at fault is reported. -/
theorem forM_validate_toBridge {transports : List Text} (h : "obfs4".toList ∈ transports)
    (bridges : List Obfs4Bridge) :
    (bridges.map (·.toBridge)).forM (·.validate transports) =
      match bridges.findSome? (·.fault) with
      | some message => .error (.invalidObfs4Bridge message)
      | none => .ok () := by
  have hone (value : Obfs4Bridge) :
      value.toBridge.validate transports = value.toBridge.validateObfs4 := by
    have htransport : value.toBridge.transport = some "obfs4".toList := rfl
    unfold Bridge.validate
    rw [htransport]
    simp only [if_neg (not_not_intro h), if_true]
  induction bridges with
  | nil => rfl
  | cons value bridges ih =>
    show (value.toBridge.validate transports >>= fun _ =>
      (bridges.map (·.toBridge)).forM (·.validate transports)) = _
    rw [ih, hone, value.validateObfs4_toBridge, List.findSome?_cons]
    cases value.fault <;> rfl

/-- The configuration of typed bridges is accepted if and only if no bridge has an empty fingerprint
or cert, or a mode above two, and the first one that has is reported. Its bridge lines are read back
as the typed bridges, if their strings can be told apart. -/
theorem obfs4_spec (lyrebird : Path) (bridges : List Obfs4Bridge) :
    let config := (BridgeConfig.obfs4 lyrebird).withObfs4 bridges
    (config.validate =
      match bridges.findSome? (·.fault) with
      | some message => .error (.invalidObfs4Bridge message)
      | none => .ok ()) ∧
    ((∀ value ∈ bridges, value.IsLegible) →
      readObfs4Lines (renderBridges config) = some bridges) := by
  intro config
  have hconfig : config = ⟨true, bridges.map (·.toBridge),
      [.exec ["obfs4".toList] lyrebird]⟩ := BridgeConfig.withObfs4_eq _ bridges
  constructor
  · unfold BridgeConfig.validate
    rw [hconfig]
    exact forM_validate_toBridge List.mem_cons_self bridges
  · intro hlegible
    rw [readObfs4Lines, bridgeLineValues_renderBridges, hconfig, List.map_map]
    refine mapM_read_map fun value hvalue => ?_
    show (readBridge ([' '].intercalate (bridgeParts value.toBridge))).bind readObfs4 = some value
    rw [readBridge_parts (hlegible value hvalue).toBridge, Option.bind_some,
      value.readObfs4_toBridge]

/-- Two typed bridges are accepted and read back. -/
theorem obfs4_spec_two : ∃ (bridges : List Obfs4Bridge) (config : BridgeConfig),
    bridges.length = 2 ∧
      config = (BridgeConfig.obfs4 "/usr/bin/lyrebird".toList).withObfs4 bridges ∧
      config.validate = .ok () ∧ readObfs4Lines (renderBridges config) = some bridges := by
  let first : Obfs4Bridge := ⟨.v4 .localhost 443, "0123456789ABCDEF".toList, "abc=".toList, 0⟩
  let second : Obfs4Bridge := ⟨.v4 .localhost 444, "FEDCBA9876543210".toList, "abc+".toList, 2⟩
  obtain ⟨hvalid, hread⟩ := obfs4_spec "/usr/bin/lyrebird".toList [first, second]
  have hlegible : ∀ value ∈ [first, second], value.IsLegible := by
    simp only [List.forall_mem_cons]
    exact ⟨⟨by decide, by decide⟩, ⟨by decide, by decide⟩, by simp⟩
  exact ⟨[first, second], _, rfl, rfl, hvalid, hread hlegible⟩

end Torlane
