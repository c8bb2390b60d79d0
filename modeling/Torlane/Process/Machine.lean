import Mathlib.Logic.Function.Basic
import Torlane.Process.Verify

/-!
# The machine

What the system calls do: to the files, to the child processes, and to what Tor has been given and
has accepted. A call can always fail, and a child that runs may write to any file at any time, so
the files are known only while the machine is `Quiet`. What is assumed of the system is in `effect`
alone; nothing else writes to the files, and `effect_lonely` says that every call has an answer.
-/

namespace Torlane.Host

open Text

/-- What has become of a child. A killed one has been sent `SIGKILL`. The handle of an abandoned one
is lost. -/
inductive ChildStatus where
  | running
  | killed
  | abandoned
  | reaped
  deriving DecidableEq, Repr

/-- A child process. -/
structure Process where
  binary : Path
  args : List Text
  stdin : Stdin
  pid : UInt32
  status : ChildStatus
  deriving DecidableEq, Repr

/-- A file. -/
structure File where
  content : Text
  mode : ℕ
  deriving DecidableEq, Repr

/-- What a path names. -/
abbrev Location := List UnixPath.Component

/-- The state of the system. -/
structure Machine where
  files : Location → Option File
  children : Child → Option Process
  /-- What has been written to a child's standard input. -/
  piped : Child → Text
  /-- The configurations that a run of a binary with `--verify-config` has accepted. -/
  accepted : Path → Text → Prop

namespace Machine

variable {s t u : Machine}

/-- No child can do anything any more. -/
def Quiet (s : Machine) : Prop :=
  ∀ c process, s.children c = some process → process.status = .reaped

/-- Everything but the files is the same. -/
structure Same (s t : Machine) : Prop where
  children : t.children = s.children
  piped : t.piped = s.piped
  accepted : t.accepted = s.accepted

/-- A call writes to the files, while nobody else does. -/
structure Writes (s : Machine) (files : Location → Option File) (t : Machine) : Prop
    extends Same s t where
  files : s.Quiet → t.files = files

/-- The files with another one at a path. -/
def put (s : Machine) (path : Path) (file : Option File) : Location → Option File :=
  Function.update s.files (UnixPath.location path) file

/-- The file at a path. -/
def file (s : Machine) (path : Path) : Option File := s.files (UnixPath.location path)

/-- A part of a text is added to a file. -/
def append (s : Machine) (path : Path) (text : Text) : Location → Option File :=
  s.put path ((s.file path).map fun file => { file with content := file.content ++ text })

/-- The children after a change to one of them. -/
def modify (s : Machine) (c : Child) (change : ChildStatus → ChildStatus) :
    Child → Option Process :=
  Function.update s.children c
    ((s.children c).map fun process => { process with status := change process.status })

/-- `SIGKILL` ends what runs. -/
def kill : ChildStatus → ChildStatus
  | .running => .killed
  | status => status

/-- The children change, and the rest but the files does not. -/
structure Moves (s : Machine) (children : Child → Option Process) (t : Machine) : Prop where
  children : t.children = children
  piped : t.piped = s.piped
  accepted : t.accepted = s.accepted

/-- A child is reaped if its status is returned. -/
def Reaps {ε α : Type} (s : Machine) (c : Child) : Except ε α → Machine → Prop
  | .ok _, t => s.Moves (s.modify c fun _ => .reaped) t
  | .error _, t => s.Same t

/-- A child gets a text, or a part of it if that fails. -/
def Pipes (s : Machine) (c : Child) (text : Text) (r : Except IoError Unit) (t : Machine) : Prop :=
  t.children = s.children ∧ t.accepted = s.accepted ∧ ∃ part, part <+: text ∧
    (r = .ok () → part = text) ∧ t.piped = Function.update s.piped c (s.piped c ++ part)

/-- Further configurations are accepted. -/
def Accepts (s : Machine) (further : Path → Text → Prop) (t : Machine) : Prop :=
  ∀ binary text, t.accepted binary text ↔ s.accepted binary text ∨ further binary text

/-- The file that is named in a verification has this text. -/
def Names (s : Machine) (args : List Text) (text : Text) : Prop :=
  ∃ path file, args = verifyArgs path ∧ path ≠ ['-'] ∧ s.file path = some file ∧ file.content = text

/-- The child verifies what it reads from its standard input. -/
def Verifies (s : Machine) (c : Child) (binary : Path) : Prop :=
  ∃ process, s.children c = some process ∧ process.binary = binary ∧
    process.args = verifyArgs ['-']

end Machine

open Machine

/-- What a call does. -/
def effect : Calls.Effect SysCall SysCall.Answer Machine
  | .createDirAll _, s, _, t => s.Writes s.files t
  | .metadata _, s, _, t => s.Writes s.files t
  | .setPermissions path mode, s, r, t =>
    match r with
    | .ok () => s.Writes (s.put path ((s.file path).map fun file => { file with mode })) t
    | .error _ => s.Writes s.files t
  | .removeFile path, s, r, t =>
    match r with
    | .ok () => s.Writes (s.put path none) t
    | .error error => s.Writes s.files t ∧ (s.Quiet → isNotFound error → s.file path = none)
  | .createNew path mode, s, r, t =>
    match r with
    | .ok () => (s.Quiet → s.file path = none) ∧ s.Writes (s.put path (some ⟨[], mode⟩)) t
    | .error _ => s.Writes s.files t
  | .writeAll path text, s, r, t =>
    ∃ part, part <+: text ∧ (r = .ok () → part = text) ∧ s.Writes (s.append path part) t
  | .flush _, s, _, t => s.Writes s.files t
  | .syncAll _, s, _, t => s.Writes s.files t
  | .rename source destination, s, r, t =>
    match r with
    | .ok () => s.Writes (Function.update (s.put source none) (UnixPath.location destination)
        (s.file source)) t
    | .error _ => s.Writes s.files t
  | .readToString _, s, _, t => s.Writes s.files t
  | .processId, s, _, t => s.Writes s.files t
  | .clock, s, _, t => s.Writes s.files t
  -- A program that is run to its end can have written to any file.
  | .output binary args, s, r, t =>
    t.children = s.children ∧ t.piped = s.piped ∧
      match r with
      | .ok output => s.Accepts (fun binary' text =>
          output.status.success ∧ binary' = binary ∧ s.Names args text) t
      | .error _ => t.accepted = s.accepted
  | .spawn binary args stdin, s, r, t =>
    match r with
    | .ok c => s.children c = none ∧ t.accepted = s.accepted ∧
        t.piped = Function.update s.piped c [] ∧
        ∃ pid, t.children =
          Function.update s.children c (some ⟨binary, args, stdin, pid, .running⟩)
    | .error _ => s.Writes s.files t
  | .takeStdin c, s, r, t =>
    s.Same t ∧ ∀ process, s.children c = some process → process.stdin = .piped → r = true
  | .writeStdin c text, s, r, t => s.Pipes c text r t
  | .flushStdin _, s, _, t => s.Same t
  | .shutdownStdin _, s, _, t => s.Same t
  | .waitWithOutput c, s, r, t =>
    match r with
    | .ok output => t.children = s.modify c (fun _ => .reaped) ∧ t.piped = s.piped ∧
        s.Accepts (fun binary text =>
          output.status.success ∧ s.Verifies c binary ∧ text = s.piped c) t
    | .error _ => s.Moves (s.modify c fun _ => .abandoned) t
  | .tryWait c, s, r, t =>
    match r with
    | .ok (some _) => s.Moves (s.modify c fun _ => .reaped) t
    | _ => s.Same t
  -- The process id is known until the child is reaped.
  | .childId c, s, r, t => s.Same t ∧ r = (s.children c).bind fun process =>
      if process.status = .reaped then none else some process.pid
  | .sigterm _, s, _, t => s.Same t
  | .wait c, s, r, t => s.Reaps c r t
  | .waitTimeout c _, s, r, t =>
    match r with
    | some r => s.Reaps c r t
    | none => s.Same t
  -- The signal fails only for a child that has been reaped.
  | .startKill c, s, r, t =>
    match r with
    | .ok () => s.Moves (s.modify c kill) t
    | .error _ => s.Same t ∧ ∀ process, s.children c = some process → process.status = .reaped
  | .spawnBlocking, s, _, t => s.Writes s.files t
  | .rounds _, s, _, t => s.Writes s.files t
  | .connect _, s, _, t => s.Writes s.files t
  | .command _, s, _, t => s.Writes s.files t
  | .commandWithin _, s, _, t => s.Writes s.files t

namespace Machine

variable {s t u : Machine}

/-- Nothing but the files has changed. -/
theorem Same.refl (s : Machine) : s.Same s := ⟨rfl, rfl, rfl⟩

/-- Two calls that change nothing but the files. -/
theorem Same.trans (h : s.Same t) (h' : t.Same u) : s.Same u :=
  ⟨h'.children.trans h.children, h'.piped.trans h.piped, h'.accepted.trans h.accepted⟩

/-- Nobody else begins to write to the files. -/
theorem Same.quiet (h : s.Same t) (hs : s.Quiet) : t.Quiet := by
  unfold Quiet
  rw [h.children]
  exact hs

/-- A call can write to the files. -/
theorem writes (s : Machine) (files : Location → Option File) :
    s.Writes files { s with files } :=
  ⟨⟨rfl, rfl, rfl⟩, fun _ => rfl⟩

end Machine

/-! ## Every call has an answer -/

/-- A file is created, unless there is one. -/
def created (s : Machine) (path : Path) (mode : ℕ) : Except IoError Unit × Machine :=
  if s.file path = none then (.ok (), { s with files := s.put path (some ⟨[], mode⟩) })
  else (.error (.os 17), s)

/-- A machine on which every call to the file system succeeds, and no process can be started. -/
def lonely : (q : SysCall) → Machine → q.Answer × Machine
  | .createDirAll _, s => (.ok (), s)
  | .metadata _, s => (.ok 0, s)
  | .setPermissions path mode, s =>
    (.ok (), { s with files := s.put path ((s.file path).map fun file => { file with mode }) })
  | .removeFile path, s => (.ok (), { s with files := s.put path none })
  | .createNew path mode, s => created s path mode
  | .writeAll path text, s => (.ok (), { s with files := s.append path text })
  | .flush _, s => (.ok (), s)
  | .syncAll _, s => (.ok (), s)
  | .rename source destination, s => (.ok (), { s with
      files := Function.update (s.put source none) (UnixPath.location destination)
        (s.file source) })
  | .readToString path, s => (((s.file path).map (·.content)).elim (.error (.os 2)) .ok, s)
  | .processId, s => (1, s)
  | .clock, s => (0, s)
  | .output _ _, s => (.error (.os 2), s)
  | .spawn _ _ _, s => (.error (.os 2), s)
  | .takeStdin _, s => (true, s)
  | .writeStdin c text, s =>
    (.ok (), { s with piped := Function.update s.piped c (s.piped c ++ text) })
  | .flushStdin _, s => (.ok (), s)
  | .shutdownStdin _, s => (.ok (), s)
  | .waitWithOutput c, s =>
    (.error (.os 10), { s with children := s.modify c fun _ => .abandoned })
  | .tryWait _, s => (.ok none, s)
  | .childId c, s => ((s.children c).bind fun process =>
      if process.status = .reaped then none else some process.pid, s)
  | .sigterm _, s => (.error 3, s)
  | .wait _, s => (.error (.os 10), s)
  | .waitTimeout _ _, s => (none, s)
  | .startKill c, s => (.ok (), { s with children := s.modify c kill })
  | .spawnBlocking, s => (true, s)
  | .rounds _, s => (0, s)
  | .connect _, s => (.error (.os 111), s)
  | .command _, s => (.error .channelClosed, s)
  | .commandWithin _, s => (none, s)

/-- Every call has an answer. -/
theorem effect_lonely (q : SysCall) (s : Machine) : effect q s (lonely q s).1 (lonely q s).2 := by
  have hsame : s.Writes s.files s := ⟨.refl s, fun _ => rfl⟩
  cases q with
  | setPermissions => exact s.writes _
  | removeFile => exact s.writes _
  | createNew path mode =>
    show effect (.createNew path mode) s (created s path mode).1 (created s path mode).2
    unfold created
    split_ifs with hfile
    · exact ⟨fun _ => hfile, s.writes _⟩
    · exact hsame
  | writeAll path text => exact ⟨text, List.prefix_rfl, fun _ => rfl, s.writes _⟩
  | rename => exact s.writes _
  | output => exact ⟨rfl, rfl, rfl⟩
  | takeStdin => exact ⟨.refl s, fun _ _ _ => rfl⟩
  | writeStdin c text => exact ⟨rfl, rfl, text, List.prefix_rfl, fun _ => rfl, rfl⟩
  | flushStdin => exact .refl s
  | shutdownStdin => exact .refl s
  | waitWithOutput => exact ⟨rfl, rfl, rfl⟩
  | tryWait => exact .refl s
  | childId => exact ⟨.refl s, rfl⟩
  | sigterm => exact .refl s
  | wait => exact .refl s
  | waitTimeout => exact .refl s
  | startKill => exact ⟨rfl, rfl, rfl⟩
  | _ => exact hsame

end Torlane.Host
