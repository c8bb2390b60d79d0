import Torlane.Instance.Startup
import Torlane.Pool.Manager
import Torlane.Process.Ownership

/-!
# The life of a pool's Tor process

`PoolBuilder::start` of `src/pool/builder.rs`, and what the manager task of `src/pool/manager.rs`
does with the instance that it holds: `restart`, `shutdown_instance`, and the end of the task, which
drops the rest. Whatever the system answers, a pool never runs two processes at once, and none of
them runs when it is over, but for a verification for which the wait has failed
(`poolLife_meets`).
-/

namespace Torlane.Host

open Text Control Machine

/-! ## The source -/

/-- `Error`, as far as the start of a pool can cause it. -/
inductive PoolError where
  | config (error : ConfigError)
  | inst (error : StartError)
  | internal (error : LaneError)

/-- `PoolBuilder`. -/
structure PoolBuilder where
  torBinary : Path
  workDir : Path
  policy : TorPolicy
  configSource : TorConfigSource
  poolConfig : PoolConfig

/-- The configuration of the pool's instance. -/
def PoolBuilder.instanceConfig (builder : PoolBuilder) : InstanceConfig where
  id := ⟨0⟩
  torBinary := builder.torBinary
  root := builder.workDir
  policy := builder.policy
  configSource := builder.configSource
  controlPortTimeout := builder.poolConfig.bootstrapTimeout
  bootstrapTimeout := builder.poolConfig.bootstrapTimeout

/-- An instance goes out of scope after its shutdown, whatever that returns. -/
def stopInstance (inst : TorInstance) : Sys (Except StartError Unit) := do
  let result ← (TorInstance.shutdown inst).run
  dropProcess inst.process
  pure result

/-- `Pool::from_instance`: the lanes. An instance whose lanes cannot be made is shut down, and
dropped. -/
def fromInstance (inst : TorInstance) (config : PoolConfig) (world : Env) :
    ExceptT PoolError Sys (List Lane) :=
  match createLanes config inst.socksAddr inst.id world with
  | .ok lanes => pure lanes
  | .error error => do
    let _ ← Sys.always (stopInstance inst)
    throw (.internal error)

/-- `PoolBuilder::start`: the lanes, and the instance that the manager holds. -/
def PoolBuilder.start (env : AuthEnv) (world : Env) (builder : PoolBuilder) :
    ExceptT PoolError Sys (List Lane × TorInstance) := do
  Sys.ofExcept (builder.poolConfig.validate.mapError .config)
  let inst ← Sys.wrapError .inst (TorInstance.start env builder.instanceConfig)
  let lanes ← fromInstance inst builder.poolConfig world
  pure (lanes, inst)

/-- `ManagerState::shutdown_instance`, as far as the instance goes. -/
def shutdownInstance : Option TorInstance → Sys (Except StartError Unit)
  | some inst => stopInstance inst
  | none => pure (.ok ())

/-- `ManagerState::restart`, as far as the instance goes: the one that is held afterwards. -/
def restartInstance (env : AuthEnv) (config : InstanceConfig) (held : Option TorInstance) :
    Sys (Option TorInstance × Except StartError Unit) := do
  match ← shutdownInstance held with
  | .error error => pure (none, .error error)
  | .ok () =>
    match ← (TorInstance.start env config).run with
    | .error error => pure (none, .error error)
    | .ok inst => pure (some inst, .ok ())

/-- The commands of a pool that concern its instance. -/
inductive Request where
  | restart
  | shutdown

/-- `run_manager`, as far as the instance goes. It ends with a shutdown, or when no handle of the
pool is left. -/
def runManager (env : AuthEnv) (config : InstanceConfig) :
    List Request → Option TorInstance → Sys (Except StartError Unit)
  | .restart :: requests, held => do
    let (held, _) ← restartInstance env config held
    runManager env config requests held
  | .shutdown :: _, held => shutdownInstance held
  | [], held => shutdownInstance held

/-- A pool from its start to the end of its manager task. -/
def poolLife (env : AuthEnv) (world : Env) (builder : PoolBuilder) (requests : List Request) :
    Sys (Except PoolError (Except StartError Unit)) := do
  match ← (builder.start env world).run with
  | .error error => pure (.error error)
  | .ok (_, inst) => do
    let result ← runManager env builder.instanceConfig requests (some inst)
    pure (.ok result)

/-! ## The calls -/

theorem file_setPrivateDir (path : Path) : (setPrivateDir path).run.Only (·.isFile) :=
  (Sys.only_io (file_call rfl)).bind_except fun _ => Sys.only_io (file_call rfl)

theorem file_prepareLayout (root : Path) : (prepareLayout root).run.Only (·.isFile) := by
  refine (Sys.only_io (file_call rfl)).bind_except fun _ => ?_
  refine (Sys.only_io (file_call rfl)).bind_except fun _ => ?_
  refine (file_setPrivateDir _).bind_except fun _ => ?_
  refine (file_setPrivateDir _).bind_except fun _ => ?_
  refine (file_setPrivateDir _).bind_except fun _ => ?_
  exact (Sys.only_io (file_removeIfPresent _)).bind_except fun _ => trivial

/-- A call of a startup is a program of such calls. -/
theorem control_call {q : SysCall} (hq : q.isControl) : (Sys.call q).Only (·.isControl) :=
  Sys.only_call hq

theorem control_session {α : Type} (s : Session α) : (session s).run.Only (·.isControl) :=
  Calls.only_interpret (fun text => control_call (q := .command text) rfl) s.run

theorem control_pollPortFile (path : Path) (rounds : ℕ) :
    (pollPortFile path rounds).run.Only (·.isControl) := by
  induction rounds with
  | zero => trivial
  | succ rounds ih =>
    refine (Sys.only_always (control_call rfl)).bind_except fun read => ?_
    split
    · split_ifs
      · trivial
      · exact ih
    · exact ih
    · trivial

theorem control_pollBootstrap (rounds : ℕ) : (pollBootstrap rounds).run.Only (·.isControl) := by
  induction rounds with
  | zero => trivial
  | succ rounds ih =>
    refine (Sys.only_always (control_call rfl)).bind_except fun answer => ?_
    rcases answer with _ | result
    · trivial
    · refine Calls.Only.bind_except trivial fun reply => ?_
      split_ifs
      · trivial
      · exact ih

/-- A startup reads the file with the control port, and speaks with the control port. -/
theorem control_finishStartup (env : AuthEnv) (config : InstanceConfig) (layout : InstanceLayout) :
    (finishStartup env config layout).run.Only (·.isControl) := by
  have hrounds {ε α : Type} {limit : ℕ} {f : ℕ → ExceptT ε Sys α}
      (hf : ∀ rounds, (f rounds).run.Only (·.isControl)) :
      (Sys.always (Sys.call (.rounds limit)) >>= f).run.Only (·.isControl) :=
    (Sys.only_always (control_call rfl)).bind_except hf
  refine (Sys.only_wrapError (hrounds (control_pollPortFile _))).bind_except fun addr => ?_
  refine (Sys.only_io (control_call rfl)).bind_except fun _ => ?_
  refine (Sys.only_wrapError (control_session _)).bind_except fun _ => ?_
  refine (Sys.only_wrapError (hrounds control_pollBootstrap)).bind_except fun _ => ?_
  exact (Sys.only_wrapError (control_session _)).bind_except fun _ => trivial

/-! ## No process is left behind -/

variable {s t : Machine}

/-- The process of an instance is held, and runs. -/
def Running (s : Machine) (config : InstanceConfig) (inst : TorInstance) (t : Machine) : Prop :=
  ∃ pid, Has s inst.process (torProcess config.torBinary config.configSource pid) t

/-- A process whose startup has failed does not run any more. -/
theorem finish_meets {config : InstanceConfig} {c : Child} {pid : UInt32}
    (h : Has s c (torProcess config.torBinary config.configSource pid) t)
    (startup : Except ControlError (SocketAddr × SocketAddr)) :
    (finish config.id c startup).run.Meets effect (OwnGuard s)
      (Calls.orElse (fun inst u => Running s config inst u)
        fun _ u => Settled s.children u.children) t := by
  rcases startup with error | ⟨controller, socksAddr⟩
  · have hholds : Holds s c (torProcess config.torBinary config.configSource pid)
        (· ≠ .abandoned) t := ⟨.running, nofun, h⟩
    refine Sys.always_bind _ (shutdown_meets hholds) fun result u hu => ?_
    refine Sys.always_bind _ (dropProcess_meets hu.1) fun _ v hv => ?_
    exact hv.ended.settled
  · exact ⟨pid, h⟩

/-- The version is asked for while no process runs. -/
theorem detectTorVersion_settles (h : Settled s.children t.children) (torBinary : Path) :
    (detectTorVersion torBinary).run.Meets effect (OwnGuard s)
      (Calls.orElse (fun _ u => Settled s.children u.children)
        fun _ u => Settled s.children u.children) t := by
  unfold detectTorVersion
  refine Sys.io_bind (fun _ u => Settled s.children u.children)
    ((output_meets h _ _).imp ?_) fun output u hu => ?_
  · rintro (error | output) u hu <;> exact hu
  · refine Sys.meets_ofExcept.mpr ?_
    rcases versionFromOutput output with error | version <;> exact hu

/-- An instance is returned whose process runs, or no process is left that does. -/
theorem start_meets (h : Settled s.children t.children) (env : AuthEnv) (config : InstanceConfig) :
    (TorInstance.start env config).run.Meets effect (OwnGuard s)
      (Calls.orElse (fun inst u => Running s config inst u)
        fun _ u => Settled s.children u.children) t := by
  unfold TorInstance.start
  have hlayout := passive_of_file (file_prepareLayout config.root)
  refine Sys.wrapError_bind _ (passive_settled hlayout h) fun layout t ht => ?_
  refine Sys.always_bind (fun _ u => Settled s.children u.children)
    (passive_keeps (passive_call rfl) fun u hu => hu ▸ ht) fun parentPid t ht => ?_
  refine Sys.ofExcept_bind (fun torConfig _ => ?_) fun _ _ => ht
  refine Sys.wrapError_bind _ (detectTorVersion_settles ht _) fun version t ht => ?_
  refine Calls.Meets.bind_except (fun _ u => Settled s.children u.children)
    (fun _ u => Settled s.children u.children) ?_ (fun report t ht => ?_)
    fun _ u (hu : Settled s.children u.children) => hu
  · refine Sys.always_bind (fun _ u => Settled s.children u.children)
      (passive_keeps (passive_call rfl) fun u hu => hu ▸ ht) fun completes u hu => ?_
    split_ifs
    · refine Sys.meets_wrapError.mpr ((verifyConfigSourceWith_meets hu _ _ _).imp ?_)
      rintro (error | report) v hv <;> exact hv
    · exact hu
  refine Sys.wrapError_bind _ (TorProcess.spawn_meets ht _ _ _) ?_
  rintro process t ⟨pid, hhas⟩
  refine Sys.always_bind (fun _ u => Has s process _ u)
    (passive_keeps ((control_finishStartup env config layout).mono fun _ =>
      SysCall.isPassive_of_isControl) fun u hu => hhas.of_eq hu)
    fun startup u hu => ?_
  exact finish_meets hu startup

/-- After a shutdown the process does not run any more, and after a successful one it has been
reaped. -/
theorem stopInstance_meets {config : InstanceConfig} {inst : TorInstance}
    (h : Running s config inst t) : (stopInstance inst).Meets effect (OwnGuard s)
      (fun r u => Settled s.children u.children ∧ (r = .ok () → ∃ process,
        u.children inst.process = some process ∧ process.status = .reaped)) t := by
  obtain ⟨pid, hhas⟩ := h
  have hholds : Holds s inst.process (torProcess config.torBinary config.configSource pid)
      (· ≠ .abandoned) t := ⟨.running, nofun, hhas⟩
  have hshutdown : (TorInstance.shutdown inst).run.Meets effect (OwnGuard s) (fun r u =>
      Holds s inst.process (torProcess config.torBinary config.configSource pid)
        (· ≠ .abandoned) u ∧ (r = .ok () →
      Holds s inst.process (torProcess config.torBinary config.configSource pid)
        (· = .reaped) u)) t := by
    refine Sys.meets_wrapError.mpr ((shutdown_meets hholds).imp ?_)
    rintro (error | ⟨⟩) u hu
    · exact ⟨hu.1, nofun⟩
    · exact ⟨hu.1, fun _ => hu.2 rfl⟩
  refine hshutdown.bind ?_
  rintro (error | ⟨⟩) u ⟨hlost, hreaped⟩
  · exact (dropProcess_meets hlost).bind fun _ v hv => ⟨hv.ended.settled, nofun⟩
  · refine (dropProcess_meets (hreaped rfl)).bind fun _ v hv => ?_
    obtain ⟨status, ⟨old, rfl, rfl⟩, hhas⟩ := hv
    exact ⟨hhas.settled (.reaped rfl), fun _ => ⟨_, hhas.child, rfl⟩⟩

/-- The held instance runs, and nothing else does that the pool has started. -/
def HoldsOnly (s : Machine) (config : InstanceConfig) : Option TorInstance → Machine → Prop
  | some inst, t => Running s config inst t
  | none, t => Settled s.children t.children

/-- A shutdown leaves nothing that runs. -/
theorem shutdownInstance_meets {config : InstanceConfig} {held : Option TorInstance}
    (h : HoldsOnly s config held t) : (shutdownInstance held).Meets effect (OwnGuard s)
      (fun _ u => Settled s.children u.children) t := by
  cases held with
  | none => exact h
  | some inst => exact (stopInstance_meets h).imp fun _ _ hu => hu.1

/-- A restart stops the held instance before it starts another one, and holds that one only. -/
theorem restartInstance_meets {config : InstanceConfig} {held : Option TorInstance}
    (h : HoldsOnly s config held t) (env : AuthEnv) :
    (restartInstance env config held).Meets effect (OwnGuard s)
      (fun r u => HoldsOnly s config r.1 u) t := by
  refine (shutdownInstance_meets h).bind ?_
  rintro (error | ⟨⟩) u hu
  · exact hu
  refine (start_meets hu env config).bind ?_
  rintro (error | inst) v hv
  · exact hv
  · exact hv

/-- The manager task leaves nothing that runs. -/
theorem runManager_meets {config : InstanceConfig} {requests : List Request}
    {held : Option TorInstance} (h : HoldsOnly s config held t) (env : AuthEnv) :
    (runManager env config requests held).Meets effect (OwnGuard s)
      (fun _ u => Settled s.children u.children) t := by
  induction requests generalizing held t with
  | nil => exact shutdownInstance_meets h
  | cons request requests ih =>
    cases request with
    | restart => exact (restartInstance_meets h env).bind fun r u hu => ih hu
    | shutdown => exact shutdownInstance_meets h

/-- Whatever the system answers: a pool never starts Tor, or runs its binary for a check, while
another one of its processes runs, and it signals only its own processes, and none that has been
reaped. When its start has failed, or its manager task has ended after any number of restarts, every
process that it has started has been reaped or killed, or is a verification for which the wait has
failed, and no other child has changed. -/
theorem poolLife_meets (env : AuthEnv) (world : Env) (builder : PoolBuilder)
    (requests : List Request) (s : Machine) :
    (poolLife env world builder requests).Meets effect (OwnGuard s)
      (fun _ u => Settled s.children u.children) s := by
  have hstart : (builder.start env world).run.Meets effect (OwnGuard s)
      (Calls.orElse (fun r u => Running s builder.instanceConfig r.2 u)
        fun _ u => Settled s.children u.children) s := by
    unfold PoolBuilder.start
    refine Sys.ofExcept_bind (fun _ _ => ?_) fun _ _ => .refl _
    refine Sys.wrapError_bind _ (start_meets (.refl _) env builder.instanceConfig)
      fun inst t ht => ?_
    refine Calls.Meets.bind_except (fun _ u => Running s builder.instanceConfig inst u)
      (fun _ u => Settled s.children u.children) ?_ (fun lanes u hu => hu) fun _ _ hu => hu
    unfold fromInstance
    split
    · exact ht
    · exact Sys.always_bind _ (stopInstance_meets ht) fun result u hu => hu.1
  refine hstart.bind ?_
  rintro (error | ⟨lanes, inst⟩) t ht
  · exact ht
  · have hheld : HoldsOnly s builder.instanceConfig (some inst) t := ht
    exact (runManager_meets hheld env).bind fun result u hu => hu

end Torlane.Host
