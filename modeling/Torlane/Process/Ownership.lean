import Torlane.Process.ConfigFile

/-!
# Who owns the processes

What the operations of `src/tor/process.rs` and `src/tor/verify.rs` do to the child processes,
whatever the system answers. `Settled` says that no child has been left behind, and `Has` that one
child is held. `TorProcess.spawn` returns a child that runs, or leaves none that does, and after a
successful `TorProcess.shutdown` the child has been reaped.
-/

namespace Torlane.Host

open Text Machine

/-- The children of a machine. -/
abbrev Children := Child → Option Process

/-- A child that is over has been reaped or killed. Only a verification can be abandoned, where
waiting for it has failed. -/
inductive Over (process : Process) : Prop
  | killed (h : process.status = .killed)
  | reaped (h : process.status = .reaped)
  | abandoned (h : process.status = .abandoned) (hargs : process.args = verifyArgs "-".toList)

/-- No child has changed, and every further one is over. -/
structure Settled (old new : Children) : Prop where
  kept : ∀ c process, old c = some process → new c = some process
  others : ∀ c process, new c = some process → old c = some process ∨ Over process

/-- No child has changed, and of the further ones, all but this one are over. -/
structure Has (s : Machine) (c : Child) (process : Process) (t : Machine) : Prop where
  fresh : s.children c = none
  rest : ∃ children, Settled s.children children ∧
    t.children = Function.update children c (some process)

/-- What a program that started at `s` may do with the children. A binary is run to its end, and a
further child is started, while no other further one runs, and a signal goes to the process of a
further child that is not reaped. -/
def OwnGuard (s t : Machine) : SysCall → Prop
  | .output _ _ | .spawn _ _ _ => ∀ c process, t.children c = some process →
      process.status = .running → s.children c = some process
  | .sigterm pid => ∃ c process, s.children c = none ∧ t.children c = some process ∧
      process.pid = pid ∧ process.status ≠ .reaped
  | .startKill c | .wait c | .waitTimeout c _ | .tryWait c | .waitWithOutput c =>
    s.children c = none
  | _ => True

variable {s t u : Machine} {c : Child} {process : Process}

/-! ## Settled children -/

/-- Nothing has happened. -/
theorem Settled.refl (old : Children) : Settled old old := ⟨fun _ _ h => h, fun _ _ h => .inl h⟩

/-- A child that is over does not run. -/
theorem Over.ne_running (h : Over process) : process.status ≠ .running := by
  cases h with
  | killed h => simp [h]
  | reaped h => simp [h]
  | abandoned h _ => simp [h]

/-- A further child is over. -/
theorem Settled.update {old new : Children} (h : Settled old new) (hfresh : old c = none)
    (hover : Over process) : Settled old (Function.update new c (some process)) := by
  have hother {c' : Child} (hc : c' ≠ c) : Function.update new c (some process) c' = new c' :=
    Function.update_of_ne hc _ _
  constructor
  · intro c' process' hold
    have hc : c' ≠ c := by
      rintro rfl
      rw [hfresh] at hold
      cases hold
    rw [hother hc]
    exact h.kept c' process' hold
  · intro c' process' hnew
    by_cases hc : c' = c
    · subst hc
      rw [Function.update_self, Option.some.injEq] at hnew
      exact .inr (hnew ▸ hover)
    · rw [hother hc] at hnew
      exact h.others c' process' hnew

/-- What runs has been there before. -/
theorem Settled.running {old new : Children} (h : Settled old new) {c : Child} {process : Process}
    (hnew : new c = some process) (hrunning : process.status = .running) : old c = some process :=
  (h.others c process hnew).resolve_right fun hover => hover.ne_running hrunning

/-- The held child. -/
theorem Has.child (h : Has s c process t) : t.children c = some process := by
  obtain ⟨children, -, hchildren⟩ := h.rest
  rw [hchildren, Function.update_self]

/-- A held child stays held where the children stay the same. -/
theorem Has.of_eq (h : Has s c process t) (heq : u.children = t.children) : Has s c process u :=
  ⟨h.fresh, by rw [heq]; exact h.rest⟩

/-- The status of a held child changes. -/
theorem Has.modify (h : Has s c process t) {change : ChildStatus → ChildStatus}
    (heq : u.children = t.modify c change) :
    Has s c { process with status := change process.status } u := by
  obtain ⟨children, hsettled, hchildren⟩ := h.rest
  refine ⟨h.fresh, children, hsettled, ?_⟩
  rw [heq, Machine.modify, hchildren, Function.update_self, Function.update_idem]
  rfl

/-- A child that is over need not be held. -/
theorem Has.settled (h : Has s c process t) (hover : Over process) :
    Settled s.children t.children := by
  obtain ⟨children, hsettled, hchildren⟩ := h.rest
  rw [hchildren]
  exact hsettled.update h.fresh hover

/-! ## Calls -/

/-- A passive call does nothing to the children. -/
theorem children_of_isPassive {q : SysCall} (hq : q.isPassive) {r : q.Answer}
    (h : effect q s r t) : t.children = s.children := by
  by_cases hfile : q.isFile
  · exact (same_of_isFile hfile h).children
  cases q with
  | takeStdin c => exact h.1.children
  | writeStdin c text => exact h.1
  | flushStdin c => exact Same.children h
  | shutdownStdin c => exact Same.children h
  | childId c => exact h.1.children
  | spawnBlocking => exact Same.children (Writes.toSame h)
  | rounds limit => exact Same.children (Writes.toSame h)
  | connect addr => exact Same.children (Writes.toSame h)
  | command text => exact Same.children (Writes.toSame h)
  | commandWithin text => exact Same.children (Writes.toSame h)
  | output => cases hq
  | spawn => cases hq
  | waitWithOutput => cases hq
  | tryWait => cases hq
  | sigterm => cases hq
  | wait => cases hq
  | waitTimeout => cases hq
  | startKill => cases hq
  | _ => exact absurd rfl hfile

/-- A passive program does nothing to the children. -/
theorem passive_meets {α : Type} {p : Sys α} (hp : p.Only (·.isPassive)) :
    p.Meets effect (OwnGuard s) (fun _ u => u.children = t.children) t := by
  refine hp.meets (fun u : Machine => u.children = t.children) (fun q u hq hu => ⟨?_, ?_⟩) rfl
  · cases q <;> trivial
  · exact fun r v hr => (children_of_isPassive hq hr).trans hu

/-- A passive program keeps what is known of the children. -/
theorem passive_keeps {α : Type} {p : Sys α} (hp : p.Only (·.isPassive)) {inv : Machine → Prop}
    (hinv : ∀ u, u.children = t.children → inv u) :
    p.Meets effect (OwnGuard s) (fun _ u => inv u) t :=
  (passive_meets hp).imp fun _ => hinv

/-- A binary is run to its end while no further child runs. -/
theorem output_meets (h : Settled s.children t.children) (binary : Path) (args : List Text) :
    (Sys.call (.output binary args)).Meets effect (OwnGuard s)
      (fun _ u => Settled s.children u.children) t := by
  refine ⟨fun c process hnew hrunning => h.running hnew hrunning, fun r u hcall => ?_⟩
  obtain ⟨hchildren, -⟩ := hcall
  show Settled s.children u.children
  rw [hchildren]
  exact h

/-- A child is started while no other further one runs, and is held. -/
theorem spawn_meets (h : Settled s.children t.children) (binary : Path) (args : List Text)
    (stdin : Stdin) : (Sys.call (.spawn binary args stdin)).Meets effect (OwnGuard s)
      (Calls.orElse (fun c u => ∃ pid, Has s c ⟨binary, args, stdin, pid, .running⟩ u)
        fun _ u => Settled s.children u.children) t := by
  refine ⟨fun c process hnew hrunning => h.running hnew hrunning, ?_⟩
  rintro (error | c) u hcall
  · show Settled s.children u.children
    rw [Same.children (Writes.toSame hcall)]
    exact h
  · obtain ⟨hfresh, -, -, pid, hchildren⟩ := hcall
    refine ⟨pid, ?_, _, h, hchildren⟩
    cases hold : s.children c with
    | none => rfl
    | some process =>
      rw [h.kept c process hold] at hfresh
      cases hfresh

/-- The child is held, and has a status with the property. -/
def Holds (s : Machine) (c : Child) (process : Process) (P : ChildStatus → Prop) (t : Machine) :
    Prop := ∃ status, P status ∧ Has s c { process with status } t

/-- The status of a held child that does not run any more. -/
def Ended (status : ChildStatus) : Prop := status = .killed ∨ status = .reaped

/-- A child that has ended has not been lost. -/
theorem Ended.ne_abandoned {status : ChildStatus} (h : Ended status) : status ≠ .abandoned := by
  rcases h with rfl | rfl <;> simp

/-- A held child that does not run any more need not be held. -/
theorem Holds.settled (h : Holds s c process Ended t) : Settled s.children t.children := by
  obtain ⟨status, rfl | rfl, hhas⟩ := h
  · exact hhas.settled (.killed rfl)
  · exact hhas.settled (.reaped rfl)

variable {P : ChildStatus → Prop}

/-- Whatever has not been lost does not run any more after the signal. -/
theorem ended_kill {status : ChildStatus} (h : status ≠ .abandoned) : Ended (kill status) := by
  cases status with
  | running => exact .inl rfl
  | killed => exact .inl rfl
  | abandoned => exact absurd rfl h
  | reaped => exact .inr rfl

/-- A held child is killed, unless it has been reaped. -/
theorem startKill_meets (h : Holds s c process P t) :
    (Sys.call (.startKill c)).Meets effect (OwnGuard s)
      (fun _ u => Holds s c process (fun status => ∃ old, P old ∧ status = kill old) u) t := by
  obtain ⟨status, hstatus, hhas⟩ := h
  refine ⟨hhas.fresh, ?_⟩
  rintro (error | ⟨⟩) u hcall
  · obtain ⟨hsame, hreaped⟩ := hcall
    have heq : status = .reaped := hreaped _ hhas.child
    exact ⟨status, ⟨status, hstatus, by rw [heq]; rfl⟩, hhas.of_eq hsame.children⟩
  · exact ⟨kill status, ⟨status, hstatus, rfl⟩, hhas.modify (Moves.children hcall)⟩

/-- What is known of the status may be said with less. -/
theorem Holds.imp {P' : ChildStatus → Prop} (h : Holds s c process P t)
    (himp : ∀ status, P status → P' status) : Holds s c process P' t :=
  let ⟨status, hstatus, hhas⟩ := h
  ⟨status, himp status hstatus, hhas⟩

/-- A child that is killed does not run any more. -/
theorem Holds.ended (h : Holds s c process
    (fun status => ∃ old, old ≠ ChildStatus.abandoned ∧ status = kill old) t) :
    Holds s c process Ended t :=
  h.imp fun _ ⟨_, hold, heq⟩ => heq ▸ ended_kill hold

/-- A process that goes out of scope is killed, unless it has been reaped. -/
theorem dropProcess_meets (h : Holds s c process P t) :
    (dropProcess c).Meets effect (OwnGuard s)
      (fun _ u => Holds s c process (fun status => ∃ old, P old ∧ status = kill old) u) t :=
  (startKill_meets h).bind fun _ _ hu => hu

/-! ## Stopping -/

/-- A child that is held at all times has been started by the program. -/
theorem Holds.fresh (h : Holds s c process P t) : s.children c = none :=
  let ⟨_, _, hhas⟩ := h
  hhas.fresh

/-- A child stays held where the children stay the same. -/
theorem Holds.of_eq (h : Holds s c process P t) (heq : u.children = t.children) :
    Holds s c process P u :=
  let ⟨status, hstatus, hhas⟩ := h
  ⟨status, hstatus, hhas.of_eq heq⟩

/-- The signal goes to the child's own process, which has not been reaped. -/
theorem startGracefulShutdown_meets (h : Holds s c process P t) :
    (TorProcess.startGracefulShutdown c).run.Meets effect (OwnGuard s)
      (fun _ u => Holds s c process P u) t := by
  unfold TorProcess.startGracefulShutdown
  refine Sys.always_bind (fun id u => Holds s c process P u ∧
      ∀ pid, id = some pid → OwnGuard s u (.sigterm pid)) ⟨trivial, ?_⟩ ?_
  · rintro id u ⟨hsame, hid⟩
    refine ⟨h.of_eq hsame.children, fun pid hpid => ?_⟩
    obtain ⟨status, -, hhas⟩ := h
    rw [hid, hhas.child] at hpid
    simp only [Option.bind_some, Option.ite_none_left_eq_some, Option.some.injEq] at hpid
    exact ⟨c, _, hhas.fresh, (hhas.of_eq hsame.children).child, hpid.2, hpid.1⟩
  · rintro (_ | pid) u ⟨hholds, hguard⟩
    · exact hholds
    · dsimp only
      split_ifs
      · refine Sys.always_bind (fun _ v => Holds s c process P v) ⟨hguard pid rfl, ?_⟩ ?_
        · exact fun r v hsame => hholds.of_eq (Same.children hsame)
        · rintro (code | ⟨⟩) v hv
          · dsimp only
            split_ifs <;> exact hv
          · exact hv
      · exact hholds

/-- A child that has not been reaped in time is killed, and waited for. -/
theorem forceExit_meets {result : Option (Except IoError ExitStatus)}
    (h : Holds s c process (· ≠ .abandoned) t)
    (hresult : ∀ status, result = some (.ok status) → Holds s c process (· = .reaped) t) :
    (TorProcess.forceExit c result).run.Meets effect (OwnGuard s) (fun r u =>
      Holds s c process (· ≠ .abandoned) u ∧ (r = .ok () → Holds s c process (· = .reaped) u))
      t := by
  rcases result with _ | error | status
  · refine Sys.io_bind (fun _ u => Holds s c process (· ≠ .abandoned) u)
      ((startKill_meets h).imp ?_) fun _ u hu => ?_
    · rintro (error | value) u hu
      · exact ⟨hu.ended.imp fun _ => Ended.ne_abandoned, nofun⟩
      · exact hu.ended.imp fun _ => Ended.ne_abandoned
    refine Sys.io_bind (fun _ v => Holds s c process (· = .reaped) v) ⟨hu.fresh, ?_⟩ ?_
    · rintro (error | status) v hcall
      · exact ⟨hu.of_eq (Same.children hcall), by simp⟩
      · obtain ⟨status, -, hhas⟩ := hu
        exact ⟨.reaped, rfl, hhas.modify (Moves.children hcall)⟩
    · exact fun _ v hv => ⟨hv.imp fun status hstatus => by simp [hstatus], fun _ => hv⟩
  · exact ⟨h, by simp⟩
  · exact ⟨h, fun _ => hresult status rfl⟩

/-- After a successful shutdown, the child has been reaped. -/
theorem shutdown_meets (h : Holds s c process (· ≠ .abandoned) t) :
    (TorProcess.shutdown c).run.Meets effect (OwnGuard s) (fun r u =>
      Holds s c process (· ≠ .abandoned) u ∧ (r = .ok () → Holds s c process (· = .reaped) u))
      t := by
  unfold TorProcess.shutdown
  refine Sys.io_bind (fun _ u => Holds s c process (· ≠ .abandoned) u) ⟨h.fresh, ?_⟩ ?_
  · rintro (error | _ | status) u hcall
    · exact ⟨h.of_eq (Same.children hcall), by simp⟩
    · exact h.of_eq (Same.children hcall)
    · obtain ⟨status, -, hhas⟩ := h
      exact ⟨.reaped, by simp, hhas.modify (Moves.children hcall)⟩
  intro exited u hu
  refine Calls.Meets.bind_except (fun _ v => Holds s c process (· ≠ .abandoned) v)
    (fun _ v => Holds s c process (· ≠ .abandoned) v) ?_ ?_ fun error v hv => ⟨hv, nofun⟩
  · unfold TorProcess.requestExit
    split_ifs
    · refine (startGracefulShutdown_meets hu).imp ?_
      rintro (error | value) v hv <;> exact hv
    · exact hu
  rintro - u hu
  refine Sys.always_bind (fun r v => Holds s c process (· ≠ .abandoned) v ∧
      ∀ status, r = some (.ok status) → Holds s c process (· = .reaped) v) ⟨hu.fresh, ?_⟩ ?_
  · rintro (_ | error | status) v hcall
    · exact ⟨hu.of_eq (Same.children hcall), nofun⟩
    · exact ⟨hu.of_eq (Same.children hcall), nofun⟩
    · obtain ⟨status, -, hhas⟩ := hu
      have hreaped := hhas.modify (Moves.children hcall)
      exact ⟨⟨.reaped, by simp, hreaped⟩, fun _ _ => ⟨.reaped, rfl, hreaped⟩⟩
  · exact fun result v hv => forceExit_meets hv.1 hv.2

/-! ## Passive programs -/

/-- A passive call is a passive program. -/
theorem passive_call {q : SysCall} (hq : q.isPassive) : (Sys.call q).Only (·.isPassive) :=
  Sys.only_call hq

/-- A program of calls to the file system is passive. -/
theorem passive_of_file {α : Type} {p : Sys α} (hp : p.Only (·.isFile)) : p.Only (·.isPassive) :=
  hp.mono fun _ => SysCall.isPassive_of_isFile

theorem passive_writeConfigToStdin (child : Child) (config : TorConfig) :
    (writeConfigToStdin child config).run.Only (·.isPassive) := by
  unfold writeConfigToStdin
  refine (Sys.only_always (passive_call rfl)).bind_except fun piped => ?_
  split_ifs
  · refine (Sys.only_io (passive_call rfl)).bind_except fun _ => ?_
    exact (Sys.only_io (passive_call rfl)).bind_except fun _ => Sys.only_io (passive_call rfl)
  · trivial

theorem passive_writeAndFlush (child : Child) (text : Text) :
    (writeAndFlush child text).Only (·.isPassive) := by
  refine (passive_call rfl).bind ?_
  rintro (error | value)
  · trivial
  · exact passive_call rfl

/-! ## Starting -/

/-- The process that `TorProcess::spawn` starts. -/
def torProcess (torBinary : Path) (source : TorConfigSource) (pid : UInt32) : Process :=
  ⟨torBinary, source.args.1, source.args.2, pid, .running⟩

/-- A process that does not get its configuration does not run any more. -/
theorem deliver_meets {source : TorConfigSource} {config : TorConfig}
    (h : Has s c process t) (hrunning : process.status = .running) :
    (source.deliver config c).run.Meets effect (OwnGuard s)
      (Calls.orElse (fun _ u => Has s c process u) fun _ u => Holds s c process Ended u) t := by
  unfold TorConfigSource.deliver
  split
  · exact h
  refine Sys.always_bind (fun _ u => Has s c process u)
    (passive_keeps (passive_writeConfigToStdin _ _) fun u hu => h.of_eq hu) ?_
  rintro (error | ⟨⟩) u hu
  · have hholds : Holds s c process (· ≠ .abandoned) u := ⟨.running, by simp, hrunning ▸ hu⟩
    refine Sys.always_bind (fun _ v => Holds s c process Ended v)
      ((startKill_meets hholds).imp fun _ _ hv => hv.ended) fun _ v hv => ?_
    refine Sys.always_bind (fun _ w => Holds s c process Ended w) ⟨hv.fresh, ?_⟩ fun _ w hw => ?_
    · rintro (error | status) w hcall
      · exact hv.of_eq (Same.children hcall)
      · obtain ⟨status, -, hhas⟩ := hv
        exact ⟨.reaped, .inr rfl, hhas.modify (Moves.children hcall)⟩
    exact Sys.always_bind (fun _ w => Holds s c process Ended w)
      ((dropProcess_meets (hw.imp fun _ => Ended.ne_abandoned)).imp fun _ _ hv => hv.ended)
      fun _ w hw => hw
  · exact hu

/-- What starts no process leaves none, whether it fails or not. -/
theorem passive_settled {ε α : Type} {p : ExceptT ε Sys α} (hp : p.run.Only (·.isPassive))
    (h : Settled s.children t.children) : p.run.Meets effect (OwnGuard s)
      (Calls.orElse (fun _ u => Settled s.children u.children)
        fun _ u => Settled s.children u.children) t := by
  refine (passive_meets hp).imp ?_
  rintro (error | value) u hu
  · show Settled s.children u.children
    exact hu ▸ h
  · show Settled s.children u.children
    exact hu ▸ h

/-- A process is returned that runs, or none is left that does. -/
theorem TorProcess.spawn_meets (h : Settled s.children t.children) (torBinary : Path)
    (config : TorConfig) (source : TorConfigSource) :
    (TorProcess.spawn torBinary config source).run.Meets effect (OwnGuard s)
      (Calls.orElse (fun c u => ∃ pid, Has s c (torProcess torBinary source pid) u)
        fun _ u => Settled s.children u.children) t := by
  unfold TorProcess.spawn
  have hstale := passive_of_file (file_removeStaleControlPortFile config)
  refine Calls.Meets.bind_except _ _ (passive_settled hstale h) (fun _ t ht => ?_) fun _ _ ht => ht
  have hprepare := passive_of_file (file_prepare source config)
  refine Calls.Meets.bind_except _ _ (passive_settled hprepare ht) (fun _ t ht => ?_)
    fun _ _ ht => ht
  refine Sys.io_bind (fun c u => ∃ pid, Has s c (torProcess torBinary source pid) u)
    ((Host.spawn_meets ht _ _ _).imp ?_) ?_
  · rintro (error | c) u hu <;> exact hu
  rintro c u ⟨pid, hhas⟩
  exact Calls.Meets.bind_except _ _ (deliver_meets hhas rfl) (fun _ v hv => ⟨pid, hv⟩)
    fun _ v hv => hv.settled

/-! ## Verifying -/

/-- A verification is over when it returns. -/
theorem verifyConfigSourceWith_meets (h : Settled s.children t.children) (config : TorConfig)
    (source : TorConfigSource) (torBinary : Path) :
    (verifyConfigSourceWith config source torBinary).run.Meets effect (OwnGuard s)
      (fun _ u => Settled s.children u.children) t := by
  unfold verifyConfigSourceWith
  cases source with
  | file path =>
    refine Sys.wrapError_bind (fun _ u => Settled s.children u.children)
      (passive_settled (passive_of_file (file_atomicWrite _ _)) h) fun _ u hu => ?_
    refine Sys.io_bind (fun _ v => Settled s.children v.children)
      ((output_meets hu _ _).imp ?_) fun output v hv => Sys.meets_ofExcept.mpr hv
    rintro (error | output) v hv <;> exact hv
  | stdin =>
    refine Sys.io_bind (fun c u => ∃ pid,
      Has s c ⟨torBinary, verifyArgs "-".toList, .piped, pid, .running⟩ u)
      ((Host.spawn_meets h _ _ _).imp ?_) ?_
    · rintro (error | c) u hu <;> exact hu
    rintro c u ⟨pid, hhas⟩
    generalize hprocess : Process.mk torBinary (verifyArgs "-".toList) .piped pid .running =
      process at hhas
    refine Sys.always_bind (fun piped v => Has s c process v ∧ piped = true) ⟨trivial, ?_⟩ ?_
    · rintro piped v ⟨hsame, hpiped⟩
      exact ⟨hhas.of_eq hsame.children, hpiped _ hhas.child (by rw [← hprocess])⟩
    rintro piped v ⟨hhas, rfl⟩
    rw [if_pos rfl]
    refine Sys.always_bind (fun _ w => Has s c process w)
      (passive_keeps (passive_writeAndFlush _ _) fun w hw => hhas.of_eq hw) fun written w hhas => ?_
    refine Sys.io_bind (fun _ x => Settled s.children x.children) ⟨hhas.fresh, ?_⟩ ?_
    · rintro (error | output) x hcall
      · exact (hhas.modify (Moves.children hcall)).settled (.abandoned rfl (by rw [← hprocess]))
      · exact (hhas.modify hcall.1).settled (.reaped rfl)
    · exact fun output x hx => hx

end Torlane.Host
