import Mathlib.Data.Set.Basic
import Torlane.Calls
import Torlane.Controller.Codec
import Torlane.Torc.Config
import Torlane.UnixPath

/-!
# Checks on paths

`validate_runtime_config` of `src/tor/verify.rs`, by which a caller checks the paths of a
configuration without running Tor. It makes directories, and writes a file to the data directory
that it removes again. `validateRuntimeConfig_meets` says that it leaves all other files as they
are, and that what it reports is there.
-/

namespace Torlane.Host

open Text UnixPath

/-- `TorRuntimeValidationError`. -/
inductive TorRuntimeValidationError where
  | missingPath (path : Text)
  | notExecutable (path : Text)
  | io (error : IoError)
  deriving DecidableEq, Repr

/-- `TorRuntimeValidation`. -/
structure TorRuntimeValidation where
  torBinary : Path
  dataDirectory : Path
  checkedPaths : List Path
  deriving DecidableEq, Repr

/-- The calls of `std::fs`. `Path::exists` is the first one, and is true if that succeeds. -/
inductive FileCall where
  | metadata (path : Path)
  | createDirAll (path : Path)
  | write (path : Path) (content : Text)
  | removeFile (path : Path)

/-- What a call returns: the mode, or nothing. -/
abbrev FileCall.Answer : FileCall → Type
  | metadata _ => Except IoError ℕ
  | createDirAll _ => Except IoError Unit
  | write _ _ => Except IoError Unit
  | removeFile _ => Except IoError Unit

/-- A program of calls. -/
abbrev Files (α : Type) := Calls FileCall FileCall.Answer α

/-- A program that may fail. -/
abbrev Check (α : Type) := ExceptT TorRuntimeValidationError (Calls FileCall FileCall.Answer) α

/-- A call whose error is an I/O error of the validation. -/
def attemptCall {α : Type} (call : Files (Except IoError α)) : Check α := Calls.attempt .io call

/-! ## The checks -/

/-- `ensure_exists`. -/
def ensureExists (path : Path) : Check Unit :=
  Calls.attempt (fun _ : IoError => .missingPath path)
    (Calls.make (FileCall.metadata path) >>= fun found => pure (found.map fun _ => ()))

/-- `ensure_executable`. -/
def ensureExecutable (path : Path) : Check Unit := do
  let mode ← attemptCall (Calls.make (FileCall.metadata path))
  if mode &&& 0o111 = 0 then throw (.notExecutable path)

/-- The file that is written to a directory and removed again. -/
def probeOf (dataDirectory : Path) : Path := join dataDirectory ".torlane-write-probe".toList

/-- The executable of a plugin is checked. -/
def checkPlugin (checked : List Path) (plugin : TransportPlugin) : Check (List Path) := do
  ensureExists plugin.executable
  ensureExecutable plugin.executable
  return checked ++ [plugin.executable]

/-- The directory of the file that is logged to, if there is one. -/
def logDir (log : LogLine) : Option Path :=
  match log.destination with
  | .file path => parent path
  | _ => none

/-- The directory of a log file is made. -/
def checkLog (checked : List Path) (log : LogLine) : Check (List Path) :=
  match logDir log with
  | some dir => do
    attemptCall (Calls.make (FileCall.createDirAll dir))
    return checked ++ [dir]
  | none => return checked

/-- The plugins of a configuration. -/
def pluginsOf (config : TorConfig) : List TransportPlugin :=
  (config.bridges.map (·.transportPlugins)).getD []

/-- `validate_runtime_config`. -/
def validateRuntimeConfig (config : TorConfig) (torBinary : Path) :
    Check TorRuntimeValidation := do
  ensureExists torBinary
  ensureExecutable torBinary
  attemptCall (Calls.make (FileCall.createDirAll config.dataDirectory))
  let probe := probeOf config.dataDirectory
  attemptCall (Calls.make (FileCall.write probe "ok".toList))
  attemptCall (Calls.make (FileCall.removeFile probe))
  let checked := [torBinary, config.dataDirectory]
  let checked ← (pluginsOf config).foldlM checkPlugin checked
  let checked ← config.logging.logs.foldlM checkLog checked
  return ⟨torBinary, config.dataDirectory, checked⟩

/-! ## The files -/

/-- What a path names. -/
inductive Node where
  | dir (mode : ℕ)
  | file (content : Text) (mode : ℕ)
  deriving DecidableEq, Repr

/-- The permission bits. -/
def Node.mode : Node → ℕ
  | dir mode => mode
  | file _ mode => mode

/-- A file system that nobody else writes to. -/
abbrev Tree := List Component → Option Node

/-- A directory is there. -/
def Tree.HasDir (t : Tree) (path : Path) : Prop := ∃ mode, t (location path) = some (.dir mode)

/-- What is there has an executable bit, for somebody. -/
def Tree.HasExecutable (t : Tree) (path : Path) : Prop :=
  ∃ node, t (location path) = some node ∧ node.mode &&& 0o111 ≠ 0

/-- Directories have been made, and nothing else has been done, except at some places. -/
def Tree.Kept (except : Set (List Component)) (s t : Tree) : Prop :=
  ∀ l ∉ except, t l = s l ∨ s l = none ∧ ∃ mode, t l = some (.dir mode)

/-- What a call does. It may fail, and may then have been made in part. -/
def fileEffect : Calls.Effect FileCall FileCall.Answer Tree
  | .metadata path, s, r, t =>
    t = s ∧ ∀ mode, r = .ok mode → ∃ node, s (location path) = some node ∧ node.mode = mode
  | .createDirAll path, s, r, t =>
    s.Kept ∅ t ∧ (r = .ok () → path ≠ [] → t.HasDir path)
  | .write path content, s, r, t =>
    match r with
    | .ok () => ∃ mode, t = Function.update s (location path) (some (.file content mode))
    | .error _ => t = s ∨ ∃ part mode, part <+: content ∧
        t = Function.update s (location path) (some (.file part mode))
  | .removeFile path, s, r, t =>
    match r with
    | .ok () => t = Function.update s (location path) none
    | .error _ => t = s

/-! ## What is checked -/

/-- The executables that are checked. -/
def executables (config : TorConfig) (torBinary : Path) : List Path :=
  torBinary :: (pluginsOf config).map (·.executable)

/-- The directories of log files. -/
def logDirs (logs : List LogLine) : List Path := logs.filterMap logDir

/-- The calls that a validation may make: it looks at executables, makes the directories of the
configuration, and writes to no file but its own. -/
def FileCall.IsAllowed (config : TorConfig) (torBinary : Path) : FileCall → Prop
  | .metadata path => path ∈ executables config torBinary
  | .createDirAll path => path ∈ config.dataDirectory :: logDirs config.logging.logs
  | .write path _ => path = probeOf config.dataDirectory
  | .removeFile path => path = probeOf config.dataDirectory

/-- What a report says is there. The binary is looked at before the probe is written, and the
plugins after that. -/
structure TorRuntimeValidation.Holds (config : TorConfig) (torBinary : Path)
    (report : TorRuntimeValidation) (t : Tree) : Prop where
  binary_eq : report.torBinary = torBinary
  dataDirectory_eq : report.dataDirectory = config.dataDirectory
  checkedPaths_eq : report.checkedPaths = [torBinary, config.dataDirectory] ++
    (pluginsOf config).map (·.executable) ++ logDirs config.logging.logs
  binary : location torBinary ≠ location (probeOf config.dataDirectory) → t.HasExecutable torBinary
  plugins : ∀ plugin ∈ pluginsOf config, t.HasExecutable plugin.executable
  dirs : ∀ dir ∈ config.dataDirectory :: logDirs config.logging.logs, dir ≠ [] → t.HasDir dir
  noProbe : ∀ content mode,
    t (location (probeOf config.dataDirectory)) ≠ some (.file content mode)

/-- What an error says. -/
def TorRuntimeValidationError.Holds (config : TorConfig) (torBinary : Path)
    (error : TorRuntimeValidationError) (t : Tree) : Prop :=
  match error with
  | .missingPath path => path ∈ executables config torBinary
  | .notExecutable path => path ∈ executables config torBinary ∧ ¬ t.HasExecutable path
  | .io _ => True

/-! ## The calls -/

namespace Tree

variable {s t u : Tree} {except : Set (List Component)} {path : Path}

/-- Nothing has been done. -/
theorem Kept.refl (s : Tree) : s.Kept except s := fun _ _ => .inl rfl

/-- Directories have been made twice. -/
theorem Kept.trans (h : s.Kept except t) (h' : t.Kept except u) : s.Kept except u := by
  intro l hl
  rcases h' l hl with heq | ⟨hnone, hdir⟩
  · rw [heq]
    exact h l hl
  · rcases h l hl with heq | ⟨-, mode, hmade⟩
    · exact .inr ⟨heq ▸ hnone, hdir⟩
    · rw [hmade] at hnone
      cases hnone

/-- Nothing else has been done at fewer places either. -/
theorem Kept.mono {except' : Set (List Component)} (h : s.Kept except t)
    (hsubset : except ⊆ except') : s.Kept except' t :=
  fun l hl => h l fun hmem => hl (hsubset hmem)

/-- A change at one of the places. -/
theorem Kept.update (h : s.Kept except t) (hpath : location path ∈ except) (node : Option Node) :
    s.Kept except (Function.update t (location path) node) := by
  intro l hl
  have hne : l ≠ location path := by
    rintro rfl
    exact hl hpath
  rw [Function.update_of_ne hne]
  exact h l hl

/-- What is there stays there. -/
theorem Kept.eq_some (h : s.Kept except t) {l : List Component} (hl : l ∉ except) {node : Node}
    (hnode : s l = some node) : t l = some node := by
  rcases h l hl with heq | ⟨hnone, -⟩
  · rw [heq, hnode]
  · rw [hnode] at hnone
    cases hnone

/-- A directory stays there. -/
theorem HasDir.kept (hdir : s.HasDir path) (h : s.Kept except t)
    (hpath : location path ∉ except) : t.HasDir path := by
  obtain ⟨mode, hmode⟩ := hdir
  exact ⟨mode, h.eq_some hpath hmode⟩

/-- An executable stays there. -/
theorem HasExecutable.kept (hexec : s.HasExecutable path) (h : s.Kept except t)
    (hpath : location path ∉ except) : t.HasExecutable path := by
  obtain ⟨node, hnode, hmode⟩ := hexec
  exact ⟨node, h.eq_some hpath hnode, hmode⟩

end Tree

section Meets

variable {config : TorConfig} {torBinary path : Path} {s t : Tree}

/-- A path is found, or is reported as missing. -/
theorem ensureExists_meets (hpath : path ∈ executables config torBinary) :
    (ensureExists path).run.Meets fileEffect (fun _ q => q.IsAllowed config torBinary)
      (Calls.orElse (fun _ u => u = t)
        fun error u => u = t ∧ error.Holds config torBinary u) t := by
  refine ⟨hpath, ?_⟩
  rintro (error | mode) u ⟨rfl, -⟩
  · exact ⟨rfl, hpath⟩
  · rfl

/-- An executable bit is found, or the lack of one is reported. -/
theorem ensureExecutable_meets (hpath : path ∈ executables config torBinary) :
    (ensureExecutable path).run.Meets fileEffect (fun _ q => q.IsAllowed config torBinary)
      (Calls.orElse (fun _ u => u = t ∧ u.HasExecutable path)
        fun error u => u = t ∧ error.Holds config torBinary u) t := by
  unfold ensureExecutable
  refine Calls.attempt_bind (fun mode u => u = t ∧
    ∃ node, u (location path) = some node ∧ node.mode = mode) ⟨hpath, ?_⟩ ?_
  · rintro (error | mode) u ⟨rfl, hfound⟩
    · exact ⟨rfl, trivial⟩
    · exact ⟨rfl, hfound mode rfl⟩
  · rintro mode u ⟨rfl, node, hnode, rfl⟩
    split_ifs with hmode
    · refine ⟨rfl, hpath, ?_⟩
      rintro ⟨node', hnode', hexec⟩
      rw [hnode] at hnode'
      exact hexec (Option.some.inj hnode' ▸ hmode)
    · exact ⟨rfl, node, hnode, hmode⟩

/-- A path is found that has an executable bit. -/
theorem ensure_meets {α : Type} (hpath : path ∈ executables config torBinary)
    {next : Check α} {post : Except TorRuntimeValidationError α → Tree → Prop}
    (hfail : ∀ error, error.Holds config torBinary t → post (.error error) t)
    (hnext : t.HasExecutable path → next.run.Meets fileEffect
      (fun _ q => q.IsAllowed config torBinary) post t) :
    (do ensureExists path; ensureExecutable path; next : Check α).run.Meets fileEffect
      (fun _ q => q.IsAllowed config torBinary) post t := by
  refine Calls.Meets.bind_except _ _ (ensureExists_meets hpath) ?_ ?_
  · rintro - u rfl
    refine Calls.Meets.bind_except _ _ (ensureExecutable_meets hpath) ?_ ?_
    · rintro - u ⟨rfl, hexec⟩
      exact hnext hexec
    · rintro error u ⟨rfl, herror⟩
      exact hfail error herror
  · rintro error u ⟨rfl, herror⟩
    exact hfail error herror

/-- The executables of plugins are found, in order. -/
theorem checkPlugins_meets {plugins : List TransportPlugin} (checked : List Path)
    (hplugins : ∀ plugin ∈ plugins, plugin.executable ∈ executables config torBinary) :
    (plugins.foldlM checkPlugin checked).run.Meets fileEffect
      (fun _ q => q.IsAllowed config torBinary)
      (Calls.orElse (fun paths u => u = t ∧ paths = checked ++ plugins.map (·.executable) ∧
        ∀ plugin ∈ plugins, u.HasExecutable plugin.executable)
          fun error u => u = t ∧ error.Holds config torBinary u) t := by
  induction plugins generalizing checked with
  | nil => exact ⟨rfl, by simp, by simp⟩
  | cons plugin plugins ih =>
    obtain ⟨hplugin, hplugins⟩ := List.forall_mem_cons.mp hplugins
    rw [List.foldlM_cons]
    have hone : (checkPlugin checked plugin).run.Meets fileEffect
        (fun _ q => q.IsAllowed config torBinary)
        (Calls.orElse (fun paths u => u = t ∧ paths = checked ++ [plugin.executable] ∧
          u.HasExecutable plugin.executable)
            fun error u => u = t ∧ error.Holds config torBinary u) t :=
      ensure_meets hplugin (fun error herror => ⟨rfl, herror⟩) fun hexec => ⟨rfl, rfl, hexec⟩
    refine Calls.Meets.bind_except _ _ hone ?_ fun error u h => h
    rintro paths u ⟨rfl, rfl, hexec⟩
    refine (ih (checked ++ [plugin.executable]) hplugins).imp ?_
    rintro (error | paths) v h
    · exact h
    · obtain ⟨rfl, rfl, hrest⟩ := h
      exact ⟨rfl, by simp, List.forall_mem_cons.mpr ⟨hexec, hrest⟩⟩

/-- A directory is made, or something on the way to it. -/
theorem createDirAll_meets {dir : Path}
    (hdir : dir ∈ config.dataDirectory :: logDirs config.logging.logs) :
    (Calls.make (FileCall.createDirAll dir)).Meets fileEffect
      (fun _ q => q.IsAllowed config torBinary)
      (Calls.orElse (fun _ u => t.Kept ∅ u ∧ (dir ≠ [] → u.HasDir dir))
        fun _ u => t.Kept ∅ u) t := by
  refine ⟨hdir, ?_⟩
  rintro (error | ⟨⟩) u ⟨hkept, hmade⟩
  · exact hkept
  · exact ⟨hkept, hmade rfl⟩

/-- Without a log file there is nothing to do. -/
theorem checkLog_eq_pure {log : LogLine} (checked : List Path) (hdir : logDir log = none) :
    checkLog checked log = pure checked := by
  unfold checkLog
  rw [hdir]

/-- The directory of a log file is made. -/
theorem checkLog_eq_make {log : LogLine} {dir : Path} (checked : List Path)
    (hdir : logDir log = some dir) :
    checkLog checked log = (do
      attemptCall (Calls.make (FileCall.createDirAll dir))
      return checked ++ [dir]) := by
  unfold checkLog
  rw [hdir]

/-- The directories of log files are made, in order. -/
theorem checkLogs_meets {logs : List LogLine} (checked : List Path)
    (hlogs : ∀ dir ∈ logDirs logs, dir ∈ logDirs config.logging.logs) :
    (logs.foldlM checkLog checked).run.Meets fileEffect (fun _ q => q.IsAllowed config torBinary)
      (Calls.orElse (fun paths u => t.Kept ∅ u ∧ paths = checked ++ logDirs logs ∧
        ∀ dir ∈ logDirs logs, dir ≠ [] → u.HasDir dir)
          fun error u => t.Kept ∅ u ∧ error.Holds config torBinary u) t := by
  induction logs generalizing checked t with
  | nil => exact ⟨.refl t, by simp [logDirs], by simp [logDirs]⟩
  | cons log logs ih =>
    rw [List.foldlM_cons]
    cases hdir : logDir log with
    | none =>
      have hskip : checkLog checked log = pure checked := checkLog_eq_pure checked hdir
      rw [logDirs, List.filterMap_cons_none hdir] at hlogs ⊢
      rw [hskip, pure_bind]
      exact ih checked hlogs
    | some dir =>
      rw [logDirs, List.filterMap_cons_some hdir] at hlogs ⊢
      obtain ⟨hhere, hlogs⟩ := List.forall_mem_cons.mp hlogs
      rw [checkLog_eq_make checked hdir, bind_assoc]
      refine Calls.attempt_bind (fun _ u => t.Kept ∅ u ∧ (dir ≠ [] → u.HasDir dir)) ?_ ?_
      · refine (createDirAll_meets (List.mem_cons_of_mem _ hhere)).imp ?_
        rintro (error | ⟨⟩) u h
        · exact ⟨h, trivial⟩
        · exact h
      · rintro - u ⟨hkept, hmade⟩
        rw [pure_bind]
        refine (ih (checked ++ [dir]) hlogs).imp ?_
        rintro (error | paths) v h
        · exact ⟨hkept.trans h.1, h.2⟩
        · obtain ⟨hlater, rfl, hrest⟩ := h
          refine ⟨hkept.trans hlater, by simp [logDirs],
            List.forall_mem_cons.mpr ⟨fun hne => ?_, hrest⟩⟩
          exact (hmade hne).kept hlater (Set.notMem_empty _)

/-- The probe is written, perhaps in part, and removed again. -/
theorem probe_meets {α : Type} {next : Check α}
    {post : Except TorRuntimeValidationError α → Tree → Prop}
    (hfail : ∀ error node, post (.error (.io error))
      (Function.update t (location (probeOf config.dataDirectory)) node))
    (hnone : ∀ error, post (.error (.io error)) t)
    (hnext : next.run.Meets fileEffect (fun _ q => q.IsAllowed config torBinary) post
      (Function.update t (location (probeOf config.dataDirectory)) none)) :
    (do attemptCall (Calls.make (FileCall.write (probeOf config.dataDirectory) "ok".toList))
        attemptCall (Calls.make (FileCall.removeFile (probeOf config.dataDirectory)))
        next : Check α).run.Meets fileEffect (fun _ q => q.IsAllowed config torBinary) post t := by
  refine Calls.attempt_bind (fun _ u =>
    ∃ node, u = Function.update t (location (probeOf config.dataDirectory)) node) ⟨rfl, ?_⟩ ?_
  · rintro (error | ⟨⟩) u hwrite
    · obtain rfl | ⟨part, mode, -, rfl⟩ := hwrite
      · exact hnone error
      · exact hfail error _
    · obtain ⟨mode, rfl⟩ := hwrite
      exact ⟨_, rfl⟩
  rintro - - ⟨node, rfl⟩
  refine Calls.attempt_bind (fun _ u =>
    u = Function.update t (location (probeOf config.dataDirectory)) none) ⟨rfl, ?_⟩ ?_
  · rintro (error | ⟨⟩) u hremove
    · obtain rfl := hremove
      exact hfail error node
    · exact hremove.trans (Function.update_idem _ _ _)
  rintro - - rfl
  exact hnext

end Meets

/-- The probe is no directory. -/
theorem location_probeOf (dataDirectory : Path) :
    location (probeOf dataDirectory) =
      location dataDirectory ++ [.normal ".torlane-write-probe".toList] :=
  location_join ⟨by decide, by decide, by decide⟩ dataDirectory

/-- What is in the data directory is not the data directory. -/
theorem location_probeOf_ne (dataDirectory : Path) :
    location dataDirectory ≠ location (probeOf dataDirectory) := by
  rw [location_probeOf]
  intro heq
  have hlength := congrArg List.length heq
  simp at hlength

/-- A validation that is reported, or an error. -/
theorem validateRuntimeConfig_meets (config : TorConfig) (torBinary : Path) (s : Tree) :
    (validateRuntimeConfig config torBinary).run.Meets fileEffect
      (fun _ q => q.IsAllowed config torBinary)
      (fun r t => s.Kept {location (probeOf config.dataDirectory)} t ∧
        match r with
        | .ok report => report.Holds config torBinary t
        | .error error => error.Holds config torBinary t) s := by
  set probe := probeOf config.dataDirectory with hprobe
  have hmem : location probe ∈ ({location probe} : Set (List Component)) := rfl
  have hempty : (∅ : Set (List Component)) ⊆ {location probe} := Set.empty_subset _
  unfold validateRuntimeConfig
  refine ensure_meets List.mem_cons_self (fun error herror => ⟨.refl s, herror⟩) fun hbinary => ?_
  -- The data directory is made.
  refine Calls.attempt_bind (fun _ t => s.Kept ∅ t ∧
    (config.dataDirectory ≠ [] → t.HasDir config.dataDirectory)) ?_ ?_
  · refine (createDirAll_meets List.mem_cons_self).imp ?_
    rintro (error | ⟨⟩) t h
    · exact ⟨h.mono hempty, trivial⟩
    · exact h
  rintro - t ⟨hkept, hdata⟩
  have hupdate (node : Option Node) :
      s.Kept {location probe} (Function.update t (location probe) node) :=
    (hkept.mono hempty).update hmem node
  refine probe_meets (fun error node => ⟨hupdate node, trivial⟩)
    (fun error => ⟨hkept.mono hempty, trivial⟩) ?_
  have hclean := hupdate none
  -- The plugins and the logs follow.
  refine Calls.Meets.bind_except _ _ (checkPlugins_meets _ fun plugin hplugin =>
    List.mem_cons_of_mem _ (List.mem_map_of_mem hplugin)) ?_ ?_
  · rintro - u ⟨rfl, rfl, hplugins⟩
    refine Calls.Meets.bind_except _ _ (checkLogs_meets _ fun dir hdir => hdir) ?_ ?_
    · rintro - u ⟨hlater, rfl, hdirs⟩
      have hall := hclean.trans (hlater.mono hempty)
      refine ⟨hall, rfl, rfl, rfl, fun hne => hbinary.kept hall hne, ?_, ?_, ?_⟩
      · intro plugin hplugin
        exact (hplugins plugin hplugin).kept hlater (Set.notMem_empty _)
      · refine List.forall_mem_cons.mpr ⟨fun hne => ?_, hdirs⟩
        obtain ⟨mode, hmode⟩ := hdata hne
        refine Tree.HasDir.kept ⟨mode, ?_⟩ hlater (Set.notMem_empty _)
        rw [Function.update_of_ne (location_probeOf_ne config.dataDirectory)]
        exact hmode
      · intro content mode hfile
        rcases hlater (location probe) (Set.notMem_empty _) with heq | ⟨-, mode', hdir⟩
        · rw [heq, Function.update_self] at hfile
          cases hfile
        · rw [hdir] at hfile
          cases hfile
    · rintro error u ⟨hlater, herror⟩
      exact ⟨hclean.trans (hlater.mono hempty), herror⟩
  · rintro error u ⟨rfl, herror⟩
    exact ⟨hclean, herror⟩

end Torlane.Host
