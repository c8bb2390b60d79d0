import Mathlib.Data.List.Nodup
import Torlane.Torc.Config

/-!
# What is accepted as a configuration

`TorConfigBuilder::build` checks the listeners in four steps: the error that a port range has left,
the presence of a listener, the authentication of the control port, and the ports. `build_spec`
says which sets of listeners pass, which error the last step reports, and that what is built has
the listeners that were given.
-/

namespace Torlane

/-! ## Duplicates -/

namespace TorConfigBuilder

/-- The scan finds nothing where the ports are pairwise different and have not been seen. -/
theorem duplicatePort_eq_none_iff {seen ports : List UInt16} :
    duplicatePort seen ports = none ↔ ports.Nodup ∧ ∀ port ∈ ports, port ∉ seen := by
  induction ports generalizing seen with
  | nil => simp [duplicatePort]
  | cons port ports ih =>
    unfold duplicatePort
    split_ifs with hseen
    · simp [hseen]
    · rw [ih, List.nodup_cons, List.forall_mem_cons]
      constructor
      · rintro ⟨hnodup, hports⟩
        have hport : port ∉ ports := fun hmem => hports port hmem List.mem_cons_self
        exact ⟨⟨hport, hnodup⟩, hseen, fun p hp hmem =>
          hports p hp (List.mem_cons_of_mem port hmem)⟩
      · rintro ⟨⟨hport, hnodup⟩, -, hports⟩
        refine ⟨hnodup, fun p hp hmem => ?_⟩
        rcases List.mem_cons.mp hmem with rfl | hmem
        · exact hport hp
        · exact hports p hp hmem

/-- What the scan finds occurs twice. -/
theorem two_le_count_of_duplicatePort {seen ports : List UInt16} {port : UInt16}
    (h : duplicatePort seen ports = some port) : 2 ≤ (seen ++ ports).count port := by
  induction ports generalizing seen with
  | nil => cases h
  | cons p ports ih =>
    unfold duplicatePort at h
    split_ifs at h with hseen
    · obtain rfl := Option.some.inj h
      have hfirst : 0 < seen.count p := List.count_pos_iff.mpr hseen
      rw [List.count_append, List.count_cons_self]
      omega
    · have hperm : (seen ++ p :: ports).Perm (p :: seen ++ ports) := List.perm_middle
      rw [hperm.count_eq]
      exact ih h

/-- The fixed TCP ports of all listeners. -/
def fixedPorts (builder : TorConfigBuilder) : List UInt16 :=
  (builder.control.bind (·.listen.tcpPort)).toList ++
    builder.socks.listeners.filterMap (·.port.tcpPort)

/-- The ports are scanned, those of the control port first. -/
theorem validateDuplicatePorts_eq (builder : TorConfigBuilder) :
    builder.validateDuplicatePorts =
      match duplicatePort [] builder.fixedPorts with
      | some port => .error (.duplicatePort port)
      | none => .ok () := rfl

/-- Different ports are accepted. -/
theorem validateDuplicatePorts_eq_ok {builder : TorConfigBuilder} (h : builder.fixedPorts.Nodup) :
    builder.validateDuplicatePorts = .ok () := by
  have hnone : duplicatePort [] builder.fixedPorts = none :=
    duplicatePort_eq_none_iff.mpr ⟨h, by simp⟩
  rw [validateDuplicatePorts_eq, hnone]

/-- Where ports are not different, one that occurs twice is reported. -/
theorem validateDuplicatePorts_eq_error {builder : TorConfigBuilder}
    (h : ¬ builder.fixedPorts.Nodup) : ∃ port, 2 ≤ builder.fixedPorts.count port ∧
      builder.validateDuplicatePorts = .error (.duplicatePort port) := by
  cases hfound : duplicatePort [] builder.fixedPorts with
  | none => exact absurd (duplicatePort_eq_none_iff.mp hfound).1 h
  | some port =>
    have hcount : 2 ≤ ([] ++ builder.fixedPorts).count port := two_le_count_of_duplicatePort hfound
    refine ⟨port, hcount, ?_⟩
    rw [validateDuplicatePorts_eq, hfound]

end TorConfigBuilder

/-! ## The control port -/

/-- A control port that may be offered: its clients authenticate, or nobody but this host reaches
it. -/
def ControlConfig.IsSafe (control : ControlConfig) : Prop :=
  control.auth ≠ .none ∨
    match control.listen with
    | .tcp addr _ => addr.isLoopback = true
    | .unix _ => True

/-- What is not a loopback address is a TCP address. -/
theorem ControlConfig.isSafe_iff (control : ControlConfig) :
    control.IsSafe ↔ ¬ (control.auth = .none ∧ ¬ control.listen.isLoopbackTcp) := by
  have hlisten : (match control.listen with
      | .tcp addr _ => addr.isLoopback = true
      | .unix _ => True) ↔ control.listen.isLoopbackTcp = true := by
    unfold ControlListen.isLoopbackTcp
    cases control.listen <;> simp
  unfold IsSafe
  rw [hlisten, not_and_or, not_not]

/-! ## The SOCKS listeners -/

/-- What a set of SOCKS listeners starts from. -/
inductive SocksBase where
  | none
  | portRange (startPort count : UInt16)
  | isolatedAuth (port : PortSpec)
  deriving DecidableEq, Repr

namespace SocksBase

/-- The configuration that the crate makes. -/
def config : SocksBase → SocksConfig
  | .none => .none
  | .portRange startPort count => .portRange startPort count
  | .isolatedAuth port => .isolatedAuth port

/-- A range of ports is not empty and does not end past 65535. -/
def InRange : SocksBase → Prop
  | .portRange startPort count => count ≠ 0 ∧ startPort.toNat + (count.toNat - 1) ≤ 65535
  | _ => True

/-- The listeners that are asked for. A range has one for each of its consecutive ports. -/
def listeners : SocksBase → List SocksPort
  | .none => []
  | .portRange startPort count =>
    (List.range count.toNat).map fun i => .localhost (.num (.ofNat (startPort.toNat + i)))
  | .isolatedAuth port => [.isolatedAuth port]

end SocksBase

/-- The ports from one on. -/
theorem SocksConfig.inclusivePorts_eq {startPort count last : UInt16}
    (hlast : last.toNat = startPort.toNat + (count.toNat - 1)) (hcount : count.toNat ≠ 0) :
    inclusivePorts startPort last =
      (List.range count.toNat).map fun i => .ofNat (startPort.toNat + i) := by
  have hlength : last.toNat + 1 - startPort.toNat = count.toNat := by omega
  unfold inclusivePorts
  rw [hlength, List.range'_eq_map_range, List.map_map]
  rfl

/-- A port range leaves no error if and only if its ports exist, and then it has its listeners. -/
theorem SocksBase.config_cases (base : SocksBase) :
    (base.InRange ∧ base.config = ⟨base.listeners, .none⟩) ∨
      (¬ base.InRange ∧ ∃ error, base.config.rangeError = some error) := by
  cases base with
  | none => exact .inl ⟨trivial, rfl⟩
  | isolatedAuth port => exact .inl ⟨trivial, rfl⟩
  | portRange startPort count =>
    by_cases hcount : count = 0
    · exact .inr ⟨fun h => h.1 hcount, .emptySocksPortRange, by
        simp [config, SocksConfig.portRange, hcount]⟩
    · -- The last port is the first one and all the others after it.
      have hpos : count.toNat ≠ 0 := fun h => hcount (UInt16.toNat_inj.mp h)
      have hothers : (count - 1).toNat = count.toNat - 1 :=
        UInt16.toNat_sub_of_le _ _ (UInt16.le_iff_toNat_le.mpr (Nat.one_le_iff_ne_zero.mpr hpos))
      by_cases hfits : startPort.toNat + (count.toNat - 1) < 2^16
      · have hlast : (startPort + (count - 1)).toNat = startPort.toNat + (count.toNat - 1) := by
          rw [UInt16.toNat_add, hothers, Nat.mod_eq_of_lt hfits]
        refine .inl ⟨⟨hcount, by omega⟩, ?_⟩
        simp only [config, SocksConfig.portRange, if_neg hcount, SocksConfig.checkedAddPort,
          hothers, if_pos hfits]
        rw [SocksConfig.inclusivePorts_eq hlast hpos, List.map_map]
        rfl
      · refine .inr ⟨fun h => hfits (Nat.lt_succ_of_le h.2), .portRangeOverflow, ?_⟩
        simp only [config, SocksConfig.portRange, if_neg hcount, SocksConfig.checkedAddPort,
          hothers, if_neg hfits]

/-- A set of SOCKS listeners: what it starts from, and the listeners that are added. -/
structure SocksSetup where
  base : SocksBase
  added : List SocksPort

namespace SocksSetup

/-- The configuration after the calls of `listener`. -/
def config (setup : SocksSetup) : SocksConfig :=
  setup.added.foldl SocksConfig.listener setup.base.config

/-- The listeners that are asked for. -/
def listeners (setup : SocksSetup) : List SocksPort := setup.base.listeners ++ setup.added

/-- Calls of `listener` add to the listeners, and keep the error. -/
theorem foldl_listener (config : SocksConfig) (added : List SocksPort) :
    added.foldl SocksConfig.listener config = ⟨config.listeners ++ added, config.rangeError⟩ := by
  induction added generalizing config with
  | nil => simp
  | cons listener added ih =>
    rw [List.foldl_cons, ih]
    simp [SocksConfig.listener]

/-- The error of a port range is the one thing that is left of a set that cannot be made. -/
theorem config_cases (setup : SocksSetup) :
    (setup.base.InRange ∧ setup.config = ⟨setup.listeners, .none⟩) ∨
      (¬ setup.base.InRange ∧ ∃ error, setup.config.rangeError = some error) := by
  unfold config listeners
  rw [foldl_listener]
  rcases setup.base.config_cases with ⟨hrange, hbase⟩ | ⟨hrange, herror⟩
  · exact .inl ⟨hrange, by rw [hbase]⟩
  · exact .inr ⟨hrange, herror⟩

end SocksSetup

/-! ## The whole check -/

namespace TorConfigBuilder

/-- What is built has the builder's settings. -/
theorem build_eq_ok {builder : TorConfigBuilder} {config : TorConfig}
    (h : builder.build = .ok config) : config.toTorConfigBuilder = builder := by
  simp only [build, bind, Except.bind, pure, Except.pure, throw, throwThe, MonadExceptOf.throw] at h
  -- Every branch either fails a check or returns the builder with its warnings.
  repeat' split at h
  all_goals
    cases h
    try rfl

/-- The check of a control port, if there is one. -/
def controlWarnings (builder : TorConfigBuilder) : Except TorConfigError (List TorConfigWarning) :=
  match builder.control with
  | some control => validateControl control
  | none => .ok []

/-- The error of a port range is reported first. -/
theorem build_of_rangeError {builder : TorConfigBuilder} {error : TorConfigError}
    (h : builder.socks.rangeError = some error) : builder.build = .error error := by
  unfold build
  rw [h]
  rfl

/-- The other checks, where there are no bridges. -/
theorem build_of_noBridges {builder : TorConfigBuilder} (hrange : builder.socks.rangeError = none)
    (hbridges : builder.bridges = none) : builder.build =
      if builder.control = none ∧ builder.socks.listeners = [] then .error .noListeners
      else do
        let warnings ← builder.controlWarnings
        builder.validateDuplicatePorts
        return {
          toTorConfigBuilder := builder
          warnings := warnings ++ builder.otherWarnings } := by
  unfold build controlWarnings
  rw [hrange, hbridges]
  cases builder.control <;> split_ifs <;> rfl

/-- The check of the control port passes if and only if the port may be offered. -/
theorem controlWarnings_cases (builder : TorConfigBuilder) :
    ((∀ control ∈ builder.control, control.IsSafe) ∧
        ∃ warnings, builder.controlWarnings = .ok warnings) ∨
      ((¬ ∀ control ∈ builder.control, control.IsSafe) ∧
        ∃ error, builder.controlWarnings = .error error) := by
  unfold controlWarnings
  cases builder.control with
  | none => exact .inl ⟨by simp, _, rfl⟩
  | some control =>
    simp only [Option.mem_def, Option.some_inj, forall_eq', control.isSafe_iff]
    unfold validateControl
    by_cases hexposed : control.auth = .none ∧ ¬ control.listen.isLoopbackTcp
    · rw [if_pos hexposed]
      exact .inr ⟨fun h => h hexposed, _, rfl⟩
    · rw [if_neg hexposed]
      exact .inl ⟨hexposed, _, rfl⟩

/-- A builder with these listeners, and without bridges. -/
def withListeners (builder : TorConfigBuilder) (control : Option ControlConfig)
    (setup : SocksSetup) : TorConfigBuilder :=
  { builder with control, socks := setup.config, bridges := none }

/-- What is demanded of the listeners apart from their ports. -/
structure Usable (control : Option ControlConfig) (setup : SocksSetup) : Prop where
  inRange : setup.base.InRange
  exists_listener : control ≠ none ∨ setup.listeners ≠ []
  isSafe : ∀ c ∈ control, c.IsSafe

/-- The fixed TCP ports that are asked for. -/
def requestedPorts (control : Option ControlConfig) (setup : SocksSetup) : List UInt16 :=
  (control.bind (·.listen.tcpPort)).toList ++ setup.listeners.filterMap (·.port.tcpPort)

/-- Which of the checks decides. -/
theorem build_cases (builder : TorConfigBuilder) (control : Option ControlConfig)
    (setup : SocksSetup) :
    let given := builder.withListeners control setup
    (¬ Usable control setup ∧ ∃ error, given.build = .error error) ∨
      (Usable control setup ∧ ¬ (requestedPorts control setup).Nodup ∧
        ∃ port, 2 ≤ (requestedPorts control setup).count port ∧
          given.build = .error (.duplicatePort port)) ∨
      (Usable control setup ∧ (requestedPorts control setup).Nodup ∧
        ∃ config, given.build = .ok config ∧ config.control = control ∧
          config.socks.listeners = setup.listeners) := by
  intro given
  rcases setup.config_cases with ⟨hrange, hsocks⟩ | ⟨hrange, error, herror⟩
  swap
  · exact .inl ⟨fun h => hrange h.inRange, error, build_of_rangeError herror⟩
  have hlisteners : given.socks.listeners = setup.listeners := by
    show setup.config.listeners = setup.listeners
    rw [hsocks]
  have hports : given.fixedPorts = requestedPorts control setup := by
    unfold fixedPorts requestedPorts
    rw [hlisteners]
    rfl
  have hbuild := @build_of_noBridges given (congrArg SocksConfig.rangeError hsocks) rfl
  have hcontrol : given.control = control := rfl
  rw [hlisteners, hcontrol] at hbuild
  by_cases hempty : control = none ∧ setup.listeners = []
  · rw [if_pos hempty] at hbuild
    exact .inl ⟨fun h => not_or_intro (not_not.mpr hempty.1) (not_not.mpr hempty.2)
      h.exists_listener, _, hbuild⟩
  rw [if_neg hempty] at hbuild
  have hexists : control ≠ none ∨ setup.listeners ≠ [] := not_and_or.mp hempty
  rcases given.controlWarnings_cases with ⟨hsafe, warnings, hwarnings⟩ | ⟨hexposed, error, herror⟩
  swap
  · rw [herror] at hbuild
    exact .inl ⟨fun h => hexposed h.isSafe, error, hbuild⟩
  rw [hwarnings] at hbuild
  refine .inr ?_
  by_cases hnodup : given.fixedPorts.Nodup
  · rw [validateDuplicatePorts_eq_ok hnodup] at hbuild
    exact .inr ⟨⟨hrange, hexists, hsafe⟩, hports ▸ hnodup, _, hbuild, rfl, hlisteners⟩
  · obtain ⟨port, hcount, herror⟩ := validateDuplicatePorts_eq_error hnodup
    rw [herror] at hbuild
    rw [hports] at hnodup hcount
    exact .inl ⟨⟨hrange, hexists, hsafe⟩, hnodup, port, hcount, hbuild⟩

/-- Without bridges, `build` accepts exactly the sets of listeners that are usable and have
different ports. Where only the ports are at fault, it reports one that occurs twice, and what it
accepts has the listeners that were given. -/
theorem build_spec (builder : TorConfigBuilder) (control : Option ControlConfig)
    (setup : SocksSetup) :
    let given := builder.withListeners control setup
    let ports := requestedPorts control setup
    ((∃ config, given.build = .ok config) ↔ Usable control setup ∧ ports.Nodup) ∧
      (Usable control setup → ¬ ports.Nodup →
        ∃ port, 2 ≤ ports.count port ∧ given.build = .error (.duplicatePort port)) ∧
      (∀ config, given.build = .ok config →
        config.control = control ∧ config.socks.listeners = setup.listeners) := by
  intro given ports
  rcases build_cases builder control setup with ⟨husable, error, hbuild⟩ |
    ⟨husable, hnodup, port, hcount, hbuild⟩ | ⟨husable, hnodup, config, hbuild, hcontrol, hsocks⟩
  · have hfailed : ∀ config, given.build ≠ .ok config := by simp [given, hbuild]
    exact ⟨⟨fun ⟨config, h⟩ => absurd h (hfailed config), fun h => absurd h.1 husable⟩,
      fun h => absurd h husable, fun config h => absurd h (hfailed config)⟩
  · have hfailed : ∀ config, given.build ≠ .ok config := by simp [given, hbuild]
    exact ⟨⟨fun ⟨config, h⟩ => absurd h (hfailed config), fun h => absurd h.2 hnodup⟩,
      fun _ _ => ⟨port, hcount, hbuild⟩, fun config h => absurd h (hfailed config)⟩
  · refine ⟨⟨fun _ => ⟨husable, hnodup⟩, fun _ => ⟨config, hbuild⟩⟩,
      fun _ h => absurd hnodup h, fun config' h => ?_⟩
    obtain rfl : config = config' := Except.ok.inj (hbuild.symm.trans h)
    exact ⟨hcontrol, hsocks⟩

end TorConfigBuilder

end Torlane
