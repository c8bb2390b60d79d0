import Torlane.Net.Shape
import Torlane.Torc.Settings
import Torlane.Torc.Validation

/-!
# Bridge lines

What `BridgeConfig::validate` of `src/tor/torc/bridges.rs` checks is compared with the words of the
lines that `render_bridges` of `src/tor/torc/render.rs` writes. The validator looks at the first
`cert` and the first `iat-mode` of an obfs4 bridge, and reads the latter with the standard library's
parser. All arguments are written, as they are. `validBridgeLines_iff` says which bridges make the
difference.
-/

namespace Torlane

open Text

/-! ## The words of a line -/

/-- The transport that a bridge line names: the word behind the name of the option, unless it is the
address. -/
def lineTransport (line : Text) : Option Text :=
  match splitWhitespace line with
  | name :: word :: _ =>
    if name = "Bridge".toList ∧ parseSocketAddr word = none then some word else none
  | _ => none

/-- The transports that a plugin's line registers. -/
def registeredTransports (line : Text) : List Text :=
  match splitWhitespace line with
  | name :: names :: _ =>
    if name = "ClientTransportPlugin".toList then names.splitOn ',' else []
  | _ => []

/-- The values of `iat-mode`. -/
def iatModes : List Text := [['0'], ['1'], ['2']]

/-- The words of an obfs4 bridge's line: the fingerprint and the arguments behind the address, and
no `cert` or `iat-mode` with another value than it may have. -/
structure ValidObfs4Line (bridge : Bridge) (words : List Text) : Prop where
  layout : ∃ fingerprint args, bridge.fingerprint = some fingerprint ∧ fingerprint ≠ [] ∧
    words = ["Bridge".toList, "obfs4".toList, bridge.addr.display, fingerprint] ++ args ∧
      (∃ value, "cert=".toList ++ value ∈ args) ∧ ∃ value, "iat-mode=".toList ++ value ∈ args
  cert : ∀ value, "cert=".toList ++ value ∈ words → value ≠ []
  iatMode : ∀ value, "iat-mode=".toList ++ value ∈ words → value ∈ iatModes

/-- Each transport is registered, and each line of an obfs4 bridge has what the transport needs. -/
structure ValidBridgeLines (bridges : BridgeConfig) : Prop where
  registered : ∀ line ∈ renderBridges bridges, ∀ transport ∈ lineTransport line,
    ∃ plugin ∈ renderBridges bridges, transport ∈ registeredTransports plugin
  obfs4 : ∀ bridge ∈ bridges.bridges, lineTransport (renderBridge bridge) = some "obfs4".toList →
    ValidObfs4Line bridge (splitWhitespace (renderBridge bridge))

/-- The strings of the bridges have no whitespace, and the names of transports have no comma. -/
structure BridgeConfig.IsPlain (config : BridgeConfig) : Prop where
  strings : ∀ bridge ∈ config.bridges, ∀ text ∈ bridge.strings, ∀ c ∈ text, isWhitespace c = false
  names : ∀ plugin ∈ config.transportPlugins, ∀ name ∈ plugin.names,
    (∀ c ∈ name, isWhitespace c = false) ∧ ',' ∉ name

/-- No argument of a bridge, and no fingerprint that looks like one, has a value of `cert` or of
`iat-mode` that the transport cannot have. -/
structure Bridge.ArgsValid (bridge : Bridge) : Prop where
  fingerprint : ∀ fingerprint ∈ bridge.fingerprint, fingerprint ≠ "cert=".toList ∧
    ∀ value, fingerprint = "iat-mode=".toList ++ value → value ∈ iatModes
  key : ∀ arg ∈ bridge.args, ¬ "iat-mode=".toList <+: arg.1
  cert : ∀ arg ∈ bridge.args, arg.1 = "cert".toList → arg.2 ≠ []
  iatMode : ∀ arg ∈ bridge.args, arg.1 = "iat-mode".toList → arg.2 ∈ iatModes

/-- The first word of an option's line is its name. -/
theorem splitWhitespace_optionLine {name : String} (h : isWord name.toList) (value : Text) :
    splitWhitespace (optionLine name value) = name.toList :: splitWhitespace value := by
  obtain ⟨hne, hall⟩ := of_decide_eq_true h
  unfold optionLine
  rw [splitWhitespace_append (by decide), splitWhitespace_eq_singleton (by simpa using hne)
    (by simpa using hall), List.singleton_append]

/-- The line of another option names no transport. -/
theorem lineTransport_optionLine {name : String} (h : isWord name.toList)
    (hname : name.toList ≠ "Bridge".toList) (value : Text) :
    lineTransport (optionLine name value) = none := by
  unfold lineTransport
  rw [splitWhitespace_optionLine h]
  cases splitWhitespace value with
  | nil => rfl
  | cons word words => exact if_neg fun hline => hname hline.1

/-! ## What is checked -/

/-- An argument that has a value is there. -/
theorem exists_arg {args : List (Text × Text)} {name : Text}
    (h : args.find? (·.1 = name) ≠ none) : ∃ arg ∈ args, arg.1 = name := by
  obtain ⟨arg, hfind⟩ := Option.ne_none_iff_exists'.mp h
  exact ⟨arg, List.mem_of_find?_eq_some hfind, by simpa using List.find?_some hfind⟩

/-- What is known of the arguments of an obfs4 bridge that is accepted. -/
theorem Bridge.validateObfs4_eq_ok {bridge : Bridge} (h : bridge.validateObfs4 = .ok ()) :
    (∃ fingerprint, bridge.fingerprint = some fingerprint ∧ fingerprint ≠ []) ∧
      (∃ arg ∈ bridge.args, arg.1 = "cert".toList) ∧
        ∃ arg ∈ bridge.args, arg.1 = "iat-mode".toList := by
  unfold validateObfs4 at h
  generalize "cert".toList = cert at h ⊢
  generalize "iat-mode".toList = iatMode at h ⊢
  dsimp only at h
  split_ifs at h with hfingerprint hcert
  refine ⟨?_, exists_arg fun hnone => hcert ?_, exists_arg fun hnone => ?_⟩
  · cases hprint : bridge.fingerprint with
    | none => exact absurd (by rw [hprint]; rfl) hfingerprint
    | some fingerprint =>
      rw [hprint] at hfingerprint
      exact ⟨fingerprint, rfl, hfingerprint⟩
  · rw [hnone]
    rfl
  · rw [hnone] at h
    cases h

/-- What is known of a bridge that is accepted. -/
theorem Bridge.validate_eq_ok {bridge : Bridge} {transports : List Text}
    (h : bridge.validate transports = .ok ()) :
    (∀ transport ∈ bridge.transport, transport ∈ transports) ∧
      (bridge.transport = some "obfs4".toList → bridge.validateObfs4 = .ok ()) := by
  unfold validate at h
  cases htransport : bridge.transport with
  | none => exact ⟨nofun, nofun⟩
  | some transport =>
    rw [htransport] at h
    dsimp only at h
    split_ifs at h with hmissing hobfs4
    · refine ⟨?_, fun _ => h⟩
      rintro t ⟨⟩
      exact hmissing
    · refine ⟨?_, fun heq => absurd (Option.some.inj heq) hobfs4⟩
      rintro t ⟨⟩
      exact hmissing

/-- What is built has bridges that are accepted. -/
theorem TorConfigBuilder.validate_of_build {builder : TorConfigBuilder} {config : TorConfig}
    {bridges : BridgeConfig} (h : builder.build = .ok config)
    (hbridges : builder.bridges = some bridges) : bridges.validate = .ok () := by
  cases hvalid : bridges.validate with
  | ok => rfl
  | error error =>
    simp only [build, bind, Except.bind, pure, Except.pure, throw, throwThe,
      MonadExceptOf.throw, hbridges, hvalid] at h
    -- The other checks fail as well, or this one does.
    repeat' split at h
    all_goals cases h

/-- Each bridge is checked. -/
theorem BridgeConfig.validate_eq_ok {config : BridgeConfig} (h : config.validate = .ok ()) :
    ∀ bridge ∈ config.bridges,
      bridge.validate (config.transportPlugins.flatMap (·.names)) = .ok () := by
  unfold validate at h
  generalize config.transportPlugins.flatMap (·.names) = transports at h ⊢
  generalize config.bridges = bridges at h ⊢
  induction bridges with
  | nil => simp
  | cons bridge bridges ih =>
    change (bridge.validate transports >>= fun _ => bridges.forM (·.validate transports)) =
      .ok () at h
    cases hbridge : bridge.validate transports with
    | error error =>
      rw [hbridge] at h
      cases h
    | ok =>
      rw [hbridge] at h
      exact List.forall_mem_cons.mpr ⟨hbridge, ih h⟩

/-! ## What is written -/

section Bridge

variable {bridge : Bridge}

/-- The words of a bridge's line: its parts that are not empty. -/
theorem splitWhitespace_renderBridge
    (h : ∀ text ∈ bridge.strings, ∀ c ∈ text, isWhitespace c = false) :
    splitWhitespace (renderBridge bridge) =
      ("Bridge".toList :: bridgeParts bridge).filter fun word => ¬ word.isEmpty := by
  refine splitWhitespace_intercalate fun word hword => ?_
  unfold bridgeParts at hword
  simp only [List.mem_cons, List.mem_append, List.mem_map, Prod.exists, List.not_mem_nil,
    or_false] at hword
  rcases hword with rfl | ((hword | rfl) | hword) | ⟨key, value, harg, rfl⟩
  · simp
    decide
  · exact h word (by simp [Bridge.strings, hword])
  · exact fun c => SocketAddr.isWhitespace_of_mem_display
  · exact h word (by simp [Bridge.strings, hword])
  · have harg' : ∀ text ∈ [key, value], text ∈ bridge.strings := fun text htext =>
      List.mem_append_right _ (List.mem_flatMap.mpr ⟨(key, value), harg, htext⟩)
    intro c hc
    rcases List.mem_append.mp hc with hc | hc
    · exact h key (harg' key (by simp)) c hc
    · rcases List.mem_cons.mp hc with rfl | hc
      · decide
      · exact h value (harg' value (by simp)) c hc

/-- A bridge's line names its transport, if it is a word and no address. -/
theorem lineTransport_renderBridge
    (h : ∀ text ∈ bridge.strings, ∀ c ∈ text, isWhitespace c = false) :
    lineTransport (renderBridge bridge) = bridge.transport.filter fun transport =>
      transport ≠ [] ∧ parseSocketAddr transport = none := by
  have haddr (words : List Text) :
      (bridge.addr.display :: words).filter (fun word => ¬ word.isEmpty) =
        bridge.addr.display :: words.filter fun word => ¬ word.isEmpty := by
    rw [List.filter_cons_of_pos]
    rw [bridge.addr.display_eq]
    simp
  have hbridge (words : List Text) :
      ("Bridge".toList :: words).filter (fun word => ¬ word.isEmpty) =
        "Bridge".toList :: words.filter fun word => ¬ word.isEmpty :=
    List.filter_cons_of_pos (by simp)
  unfold lineTransport
  rw [splitWhitespace_renderBridge h]
  unfold bridgeParts
  rcases htransport : bridge.transport with _ | _ | ⟨c, transport⟩
  · rw [Option.toList_none, List.nil_append, List.singleton_append, List.cons_append, hbridge,
      haddr]
    simp [parseSocketAddr_display]
  · rw [Option.toList_some, List.singleton_append, List.cons_append, List.cons_append, hbridge,
      List.filter_cons_of_neg (by simp), List.singleton_append, List.cons_append, haddr]
    simp [parseSocketAddr_display]
    rfl
  · rw [Option.toList_some, List.singleton_append, List.cons_append, List.cons_append, hbridge]
    simp [Option.filter]

end Bridge

/-- A plugin's line registers its transports. -/
theorem registeredTransports_renderPlugin {plugin : TransportPlugin} {transport : Text}
    (h : ∀ name ∈ plugin.names, (∀ c ∈ name, isWhitespace c = false) ∧ ',' ∉ name)
    (hmem : transport ∈ plugin.names) (hne : transport ≠ []) :
    transport ∈ registeredTransports
      (optionLine "ClientTransportPlugin" (renderPlugin plugin)) := by
  have hsplit : ([','].intercalate plugin.names).splitOn ',' = plugin.names :=
    List.splitOn_intercalate ',' (fun name hname => (h name hname).2) (List.ne_nil_of_mem hmem)
  have hjoined : [','].intercalate plugin.names ≠ [] := by
    intro hnil
    rw [hnil] at hsplit
    rw [← hsplit] at hmem
    exact hne (List.mem_singleton.mp hmem)
  have hspace : ∀ c ∈ [','].intercalate plugin.names, isWhitespace c = false := by
    intro c hc
    rcases mem_intercalate hc with hc | ⟨name, hname, hc⟩
    · rw [List.mem_singleton.mp hc]
      decide
    · exact (h name hname).1 c hc
  have hvalue : renderPlugin plugin = [','].intercalate plugin.names ++
      ' ' :: ("exec ".toList ++ plugin.executable ++ plugin.args.flatMap (' ' :: ·)) := by
    simp [renderPlugin]
  unfold registeredTransports
  rw [splitWhitespace_optionLine (by decide), hvalue, splitWhitespace_append (by decide),
    splitWhitespace_eq_singleton hjoined hspace, List.singleton_append]
  simpa [hsplit] using hmem

/-- An argument's word, split at the first `=`. -/
theorem arg_eq_iff {name key value rest : Text} (hname : '=' ∉ name) :
    key ++ '=' :: value = name ++ '=' :: rest ↔
      (key = name ∧ value = rest) ∨
        ∃ between, key = name ++ '=' :: between ∧ rest = between ++ '=' :: value := by
  constructor
  · intro h
    by_cases hkey : '=' ∈ key
    · -- The first `=` is in the key, and ends the name.
      obtain ⟨pre, between, rfl, hpre⟩ := List.eq_append_cons_of_mem hkey
      rw [List.append_assoc, List.cons_append] at h
      obtain ⟨rfl, rfl⟩ := append_cons_inj_of_notMem hpre hname h
      exact .inr ⟨between, rfl, rfl⟩
    · obtain ⟨rfl, rfl⟩ := append_cons_inj_of_notMem hkey hname h
      exact .inl ⟨rfl, rfl⟩
  · rintro (⟨rfl, rfl⟩ | ⟨between, rfl, rfl⟩)
    · rfl
    · simp

/-! ## What is checked and what is written -/

section Obfs4

variable {bridge : Bridge}

/-- The words of an obfs4 bridge's line. -/
theorem splitWhitespace_obfs4 {fingerprint : Text}
    (h : ∀ text ∈ bridge.strings, ∀ c ∈ text, isWhitespace c = false)
    (htransport : bridge.transport = some "obfs4".toList)
    (hfingerprint : bridge.fingerprint = some fingerprint) (hne : fingerprint ≠ []) :
    splitWhitespace (renderBridge bridge) =
      ["Bridge".toList, "obfs4".toList, bridge.addr.display, fingerprint] ++
        bridge.args.map fun (key, value) => key ++ '=' :: value := by
  have hparts : "Bridge".toList :: bridgeParts bridge =
      ["Bridge".toList, "obfs4".toList, bridge.addr.display, fingerprint] ++
        bridge.args.map fun (key, value) => key ++ '=' :: value := by
    unfold bridgeParts
    rw [htransport, hfingerprint]
    rfl
  have haddr : bridge.addr.display ≠ [] := by
    rw [bridge.addr.display_eq]
    simp
  rw [splitWhitespace_renderBridge h, hparts]
  refine List.filter_eq_self.mpr fun word hword => ?_
  have hne' : word ≠ [] := by
    simp only [List.mem_append, List.mem_cons, List.not_mem_nil, or_false, List.mem_map,
      Prod.exists] at hword
    rcases hword with (rfl | rfl | rfl | rfl) | ⟨key, value, -, rfl⟩
    · decide
    · decide
    · exact haddr
    · exact hne
    · simp
  simpa using hne'

/-- The words with an `=` on an obfs4 bridge's line: the fingerprint may be one, and each argument
is. -/
theorem mem_obfs4Words {fingerprint word : Text} (heq : '=' ∈ word) :
    word ∈ ["Bridge".toList, "obfs4".toList, bridge.addr.display, fingerprint] ++
        bridge.args.map (fun (key, value) => key ++ '=' :: value) ↔
      word = fingerprint ∨ ∃ arg ∈ bridge.args, arg.1 ++ '=' :: arg.2 = word := by
  have hbridge : word ≠ "Bridge".toList := by
    rintro rfl
    exact absurd heq (by decide)
  have hobfs4 : word ≠ "obfs4".toList := by
    rintro rfl
    exact absurd heq (by decide)
  have haddr : word ≠ bridge.addr.display := by
    rintro rfl
    exact bridge.addr.notMem_display (by decide) heq
  rw [List.mem_append, List.mem_map, List.mem_cons, List.mem_cons, List.mem_cons,
    List.mem_singleton]
  simp only [hbridge, hobfs4, haddr, false_or]

/-- The words of a name on the line of an obfs4 bridge that is accepted. -/
theorem mem_obfs4Line {fingerprint name value : Text}
    (h : ∀ text ∈ bridge.strings, ∀ c ∈ text, isWhitespace c = false)
    (htransport : bridge.transport = some "obfs4".toList)
    (hfingerprint : bridge.fingerprint = some fingerprint) (hne : fingerprint ≠ []) :
    name ++ '=' :: value ∈ splitWhitespace (renderBridge bridge) ↔
      name ++ '=' :: value = fingerprint ∨
        ∃ arg ∈ bridge.args, arg.1 ++ '=' :: arg.2 = name ++ '=' :: value := by
  rw [splitWhitespace_obfs4 h htransport hfingerprint hne]
  exact mem_obfs4Words (by simp)

/-- A valid line has valid arguments. -/
theorem ValidObfs4Line.argsValid (h : ∀ text ∈ bridge.strings, ∀ c ∈ text, isWhitespace c = false)
    (htransport : bridge.transport = some "obfs4".toList)
    (hline : ValidObfs4Line bridge (splitWhitespace (renderBridge bridge))) :
    bridge.ArgsValid := by
  obtain ⟨fingerprint, args, hfingerprint, hne, -⟩ := hline.layout
  have hword (name value : Text) :=
    @mem_obfs4Line bridge fingerprint name value h htransport hfingerprint hne
  refine ⟨?_, fun arg harg hpart => ?_, fun arg harg hkey => ?_, fun arg harg hkey => ?_⟩
  · rw [hfingerprint]
    rintro f ⟨⟩
    refine ⟨fun heq => ?_, fun value heq => ?_⟩
    · exact hline.cert [] ((hword "cert".toList []).mpr (.inl heq.symm)) rfl
    · exact hline.iatMode value ((hword "iat-mode".toList value).mpr (.inl heq.symm))
  · -- The value that is read has the rest of the key, and the `=` behind it.
    obtain ⟨between, hbetween⟩ := hpart
    have hmode := hline.iatMode (between ++ '=' :: arg.2)
      ((hword "iat-mode".toList _).mpr (.inr ⟨arg, harg, by rw [← hbetween]; simp⟩))
    have hmodes : ∀ mode ∈ iatModes, '=' ∉ mode := by decide
    exact hmodes _ hmode (by simp)
  · exact hline.cert arg.2 ((hword "cert".toList arg.2).mpr (.inr ⟨arg, harg, by rw [hkey]⟩))
  · exact hline.iatMode arg.2
      ((hword "iat-mode".toList arg.2).mpr (.inr ⟨arg, harg, by rw [hkey]⟩))

/-- The line of a bridge that is accepted and has valid arguments is valid. -/
theorem validObfs4Line_of_argsValid
    (h : ∀ text ∈ bridge.strings, ∀ c ∈ text, isWhitespace c = false)
    (htransport : bridge.transport = some "obfs4".toList) (hvalid : bridge.validateObfs4 = .ok ())
    (hargs : bridge.ArgsValid) :
    ValidObfs4Line bridge (splitWhitespace (renderBridge bridge)) := by
  obtain ⟨⟨fingerprint, hfingerprint, hne⟩, ⟨cert, hcert, hcertKey⟩, ⟨iat, hiat, hiatKey⟩⟩ :=
    Bridge.validateObfs4_eq_ok hvalid
  have hwords := splitWhitespace_obfs4 h htransport hfingerprint hne
  have hword (name value : Text) :=
    @mem_obfs4Line bridge fingerprint name value h htransport hfingerprint hne
  obtain ⟨hfirst, hmode⟩ := hargs.fingerprint fingerprint hfingerprint
  refine ⟨⟨fingerprint, _, hfingerprint, hne, hwords, ⟨cert.2, ?_⟩, ⟨iat.2, ?_⟩⟩, ?_, ?_⟩
  · refine List.mem_map.mpr ⟨cert, hcert, ?_⟩
    show cert.1 ++ '=' :: cert.2 = _
    rw [hcertKey]
    rfl
  · refine List.mem_map.mpr ⟨iat, hiat, ?_⟩
    show iat.1 ++ '=' :: iat.2 = _
    rw [hiatKey]
    rfl
  · rintro value hvalue rfl
    rcases (hword "cert".toList _).mp hvalue with heq | ⟨arg, harg, heq⟩
    · exact hfirst heq.symm
    · rcases (arg_eq_iff (by decide)).mp heq with ⟨hkey, hempty⟩ | ⟨between, -, hempty⟩
      · exact hargs.cert arg harg hkey hempty
      · simp at hempty
  · intro value hvalue
    rcases (hword "iat-mode".toList _).mp hvalue with heq | ⟨arg, harg, heq⟩
    · exact hmode value heq.symm
    · rcases (arg_eq_iff (by decide)).mp heq with ⟨hkey, rfl⟩ | ⟨between, hkey, -⟩
      · exact hargs.iatMode arg harg hkey
      · exact absurd ⟨between, by rw [hkey]; simp⟩ (hargs.key arg harg)

end Obfs4

/-- The transport on a line is registered on the line of a plugin. -/
theorem exists_registered {bridges : BridgeConfig} (hplain : bridges.IsPlain)
    (hvalid : bridges.validate = .ok ()) : ∀ line ∈ renderBridges bridges,
      ∀ transport ∈ lineTransport line,
        ∃ plugin ∈ renderBridges bridges, transport ∈ registeredTransports plugin := by
  intro line hline transport htransport
  simp only [renderBridges, List.mem_append, List.mem_singleton, List.mem_map] at hline
  rcases hline with (rfl | ⟨plugin, -, rfl⟩) | ⟨bridge, hbridge, rfl⟩
  · rw [lineTransport_optionLine (by decide) (by decide)] at htransport
    cases htransport
  · rw [lineTransport_optionLine (by decide) (by decide)] at htransport
    cases htransport
  · rw [lineTransport_renderBridge (hplain.strings bridge hbridge), Option.mem_def,
      Option.filter_eq_some_iff] at htransport
    have hchecked := BridgeConfig.validate_eq_ok hvalid bridge hbridge
    have hmem := (Bridge.validate_eq_ok hchecked).1 transport htransport.1
    obtain ⟨plugin, hplugin, hname⟩ := List.mem_flatMap.mp hmem
    refine ⟨optionLine "ClientTransportPlugin" (renderPlugin plugin), ?_, ?_⟩
    · simp only [renderBridges, List.mem_append, List.mem_map]
      exact .inl (.inr ⟨plugin, hplugin, rfl⟩)
    · exact registeredTransports_renderPlugin (hplain.names plugin hplugin) hname
        (of_decide_eq_true htransport.2).1

/-- The bridge lines of an accepted configuration are the section of that name. They are valid if
and only if the arguments of each obfs4 bridge are. -/
theorem validBridgeLines_iff {builder : TorConfigBuilder} {config : TorConfig}
    {bridges : BridgeConfig} (hbuild : builder.build = .ok config)
    (hbridges : builder.bridges = some bridges) (hplain : bridges.IsPlain) :
    ("Bridges", renderBridges bridges) ∈ sections config ∧
      (ValidBridgeLines bridges ↔ ∀ bridge ∈ bridges.bridges,
        bridge.transport = some "obfs4".toList → bridge.ArgsValid) := by
  have hvalid : bridges.validate = .ok () := TorConfigBuilder.validate_of_build hbuild hbridges
  have hobfs4 : parseSocketAddr "obfs4".toList = none := by decide
  have hread : ∀ bridge ∈ bridges.bridges,
      (lineTransport (renderBridge bridge) = some "obfs4".toList ↔
        bridge.transport = some "obfs4".toList) := by
    intro bridge hbridge
    rw [lineTransport_renderBridge (hplain.strings bridge hbridge), Option.filter_eq_some_iff]
    refine and_iff_left_of_imp fun _ => decide_eq_true ⟨by simp, hobfs4⟩
  refine ⟨?_, fun h bridge hbridge htransport => ?_,
    fun h => ⟨exists_registered hplain hvalid, fun bridge hbridge hline => ?_⟩⟩
  · have hconfig : config.bridges = some bridges := by
      rw [← hbridges, ← TorConfigBuilder.build_eq_ok hbuild]
    unfold sections
    rw [hconfig]
    simp
  · have hline := h.obfs4 bridge hbridge ((hread bridge hbridge).mpr htransport)
    exact hline.argsValid (hplain.strings bridge hbridge) htransport
  · have htransport := (hread bridge hbridge).mp hline
    have hchecked := BridgeConfig.validate_eq_ok hvalid bridge hbridge
    exact validObfs4Line_of_argsValid (hplain.strings bridge hbridge) htransport
      ((Bridge.validate_eq_ok hchecked).2 htransport) (h bridge hbridge htransport)

/-- One obfs4 bridge with the arguments. -/
def obfs4Bridges (args : List (Text × Text)) : BridgeConfig where
  useBridges := true
  bridges := [⟨some "obfs4".toList, .v4 .localhost 443, some "0123456789ABCDEF".toList, args⟩]
  transportPlugins := [⟨["obfs4".toList], "/usr/bin/lyrebird".toList, []⟩]

/-- A builder with the bridges. -/
def bridgeBuilder (bridges : BridgeConfig) : TorConfigBuilder :=
  { TorConfigBuilder.new "/tmp/tor/data".toList with
    socks := .isolatedAuth (.num 20300)
    bridges := some bridges }

/-- The arguments that an obfs4 bridge has. -/
def obfs4Args : List (Text × Text) := [("cert".toList, "abc".toList), ("iat-mode".toList, ['0'])]

/-- The bridge is plain if its arguments are. -/
theorem isPlain_obfs4Bridges {args : List (Text × Text)}
    (h : (args.flatMap fun (key, value) => [key, value]).all fun text =>
      text.all fun c => isWhitespace c = false) : (obfs4Bridges args).IsPlain := by
  have hword (text : Text) (hall : text.all fun c => isWhitespace c = false) :
      ∀ c ∈ text, isWhitespace c = false := by
    simpa using hall
  constructor
  · intro bridge hbridge text htext
    obtain rfl := List.mem_singleton.mp hbridge
    rcases List.mem_append.mp htext with hfirst | harg
    · rcases List.mem_pair.mp hfirst with rfl | rfl <;> exact hword _ (by decide)
    · exact hword text (List.all_eq_true.mp h text harg)
  · intro plugin hplugin name hname
    obtain rfl := List.mem_singleton.mp hplugin
    obtain rfl := List.mem_singleton.mp hname
    exact ⟨hword _ (by decide), by decide⟩

/-- The lines of a bridge with these arguments are valid. -/
theorem validBridgeLines_iff_obfs4Args : ∃ config,
    (bridgeBuilder (obfs4Bridges obfs4Args)).build = .ok config ∧
      ValidBridgeLines (obfs4Bridges obfs4Args) := by
  refine ⟨_, rfl, ?_⟩
  have hiff := (@validBridgeLines_iff (bridgeBuilder (obfs4Bridges obfs4Args)) _ _ rfl rfl
    (isPlain_obfs4Bridges (by decide))).2
  refine hiff.mpr fun bridge hbridge _ => ?_
  obtain rfl := List.mem_singleton.mp hbridge
  refine ⟨?_, by decide, by decide, by decide⟩
  rintro fingerprint ⟨⟩
  exact ⟨by decide, fun value h => absurd (List.cons.inj h).1 (by decide)⟩

/-- A second `iat-mode` is not checked, and is written. -/
theorem validBridgeLines_secondMode : ∃ config,
    (bridgeBuilder (obfs4Bridges (obfs4Args ++ [("iat-mode".toList, ['7'])]))).build = .ok config ∧
      (obfs4Bridges (obfs4Args ++ [("iat-mode".toList, ['7'])])).IsPlain ∧
      ¬ ValidBridgeLines (obfs4Bridges (obfs4Args ++ [("iat-mode".toList, ['7'])])) := by
  refine ⟨_, rfl, isPlain_obfs4Bridges (by decide), fun h => ?_⟩
  have hline := h.obfs4 _ List.mem_cons_self (by decide)
  exact absurd (hline.iatMode ['7'] (by decide)) (by decide)

end Torlane
