import Torlane.Process.Machine

/-!
# The configuration file

`atomic_write` of `src/tor/process.rs`, whatever fails and wherever it is broken off: up to the
rename, the destination and every other file are as they were, and with it the destination has the
whole new text, private from its first byte on.
-/

namespace Torlane.Host

open Text Machine

/-! ## The temporary file -/

/-- The temporary file's name is the destination's with more around it. -/
theorem length_tempName (path : Path) (pid : UInt32) (nanos : ℕ) :
    ((UnixPath.fileName path).getD "torrc".toList).length + 5 ≤
      (tempName path pid nanos).length := by
  unfold tempName
  simp only [List.length_append, List.length_cons]
  have hdot : ".".toList.length = 1 := rfl
  have htmp : ".tmp".toList.length = 4 := rfl
  omega

/-- The temporary file's name is one. -/
theorem isName_tempName (path : Path) (pid : UInt32) (nanos : ℕ) :
    UnixPath.IsName (tempName path pid nanos) := by
  have hlen := length_tempName path pid nanos
  refine ⟨?_, ?_, ?_⟩
  · have hname : '/' ∉ (UnixPath.fileName path).getD "torrc".toList := by
      cases hfile : UnixPath.fileName path with
      | none => decide
      | some name => exact UnixPath.notMem_fileName hfile
    have hdecimal (n : ℕ) : '/' ∉ decimal n := notMem_decimal (by decide) n
    unfold tempName
    generalize (UnixPath.fileName path).getD "torrc".toList = name at hname
    simp [hname, hdecimal]
  · unfold UnixPath.isTrivial
    rw [decide_eq_false_iff_not]
    rintro (h | h) <;> rw [h] at hlen <;> simp at hlen
  · intro h
    rw [h] at hlen
    simp at hlen

/-- The temporary file is in the directory of the destination, and it is another one. -/
theorem location_tempPath (path : Path) (pid : UInt32) (nanos : ℕ) :
    (UnixPath.location (tempPath (tempDir path) path pid nanos)).dropLast =
        (UnixPath.location path).dropLast ∧
      UnixPath.location (tempPath (tempDir path) path pid nanos) ≠ UnixPath.location path := by
  have hjoin := UnixPath.location_join (isName_tempName path pid nanos) (tempDir path)
  have hdir : UnixPath.location (tempDir path) = (UnixPath.location path).dropLast := by
    unfold tempDir
    cases hparent : UnixPath.parent path with
    | none =>
      rw [UnixPath.location_of_parent_eq_none hparent]
      decide
    | some dir =>
      rw [← UnixPath.location_parent hparent]
      dsimp only
      split_ifs with hdir
      · rw [hdir]
        decide
      · rfl
  unfold tempPath
  rw [hjoin]
  refine ⟨by rw [List.dropLast_concat, hdir], fun h => ?_⟩
  -- A destination of this name would have a longer temporary name.
  have hlen := length_tempName path pid nanos
  rw [UnixPath.fileName_of_location h.symm, Option.getD_some] at hlen
  omega

/-! ## The calls -/

/-- A call to the file system is a program of such calls. -/
theorem file_call {q : SysCall} (hq : q.isFile) : (Sys.call q).Only (·.isFile) :=
  Sys.only_call hq

/-- A file is removed by calls to the file system. -/
theorem file_removeIfPresent (path : Path) : (removeIfPresent path).Only (·.isFile) := by
  refine (file_call rfl).bind ?_
  rintro (error | value) <;> trivial

/-- A stale file is removed by calls to the file system. -/
theorem file_removeStaleControlPortFile (config : TorConfig) :
    (removeStaleControlPortFile config).run.Only (·.isFile) := by
  unfold removeStaleControlPortFile
  split
  · trivial
  · exact Sys.only_io (file_removeIfPresent _)

/-- A file is written by calls to the file system. -/
theorem file_atomicWrite (path : Path) (content : Text) :
    (atomicWrite path content).run.Only (·.isFile) := by
  unfold atomicWrite
  split_ifs
  · trivial
  refine (Sys.only_io (file_call rfl)).bind_except fun _ => ?_
  refine (Sys.only_always (file_call rfl)).bind_except fun pid => ?_
  refine (Sys.only_always (file_call rfl)).bind_except fun nanos => ?_
  refine (Sys.only_io (file_call rfl)).bind_except fun _ => ?_
  refine (Sys.only_io (file_call rfl)).bind_except fun _ => ?_
  refine (Sys.only_io (file_call rfl)).bind_except fun _ => ?_
  exact (Sys.only_io (file_call rfl)).bind_except fun _ => Sys.only_io (file_call rfl)

/-- A configuration is prepared by calls to the file system. -/
theorem file_prepare (source : TorConfigSource) (config : TorConfig) :
    (source.prepare config).run.Only (·.isFile) := by
  unfold TorConfigSource.prepare
  split
  · trivial
  · exact Sys.only_wrapError (file_atomicWrite _ _)

/-- A call to the file system changes nothing but the files. -/
theorem same_of_isFile {q : SysCall} (hq : q.isFile) {s t : Machine} {r : q.Answer}
    (h : effect q s r t) : s.Same t := by
  cases q with
  | setPermissions path mode => rcases r with error | ⟨⟩ <;> exact h.toSame
  | removeFile path =>
    rcases r with error | ⟨⟩
    · exact h.1.toSame
    · exact h.toSame
  | createNew path mode =>
    rcases r with error | ⟨⟩
    · exact h.toSame
    · exact h.2.toSame
  | writeAll path text =>
    obtain ⟨part, -, -, hwrite⟩ := h
    exact hwrite.toSame
  | rename source destination => rcases r with error | ⟨⟩ <;> exact h.toSame
  | createDirAll => exact h.toSame
  | metadata => exact h.toSame
  | flush => exact h.toSame
  | syncAll => exact h.toSame
  | readToString => exact h.toSame
  | processId => exact h.toSame
  | clock => exact h.toSame
  | _ => cases hq

/-! ## Every point of a write -/

/-- Nothing has been done to a file, and nothing to the destination. -/
structure Untouched (s : Machine) (path : Path) (t : Machine) : Prop extends Same s t where
  kept : ∀ l file, s.files l = some file → t.files l = some file
  destination : t.file path = s.file path

/-- There is a private file with a text, in the destination's directory, where there was none. -/
structure LeavesTemp (s : Machine) (path : Path) (text : Text) (temp : Location) (t : Machine) :
    Prop extends Same s t where
  dir : temp.dropLast = (UnixPath.location path).dropLast
  ne : temp ≠ UnixPath.location path
  fresh : s.files temp = none
  files : t.files = Function.update s.files temp (some ⟨text, privateMode⟩)

/-- What a write has done when it returns. -/
def Written (s : Machine) (path : Path) (content : Text) :
    Except TorWriteError Unit → Machine → Prop
  | .ok (), t => s.Same t ∧ t.files = s.put path (some ⟨content, privateMode⟩)
  | .error _, t => (s.Same t ∧ t.files = s.files) ∨
      ∃ temp part, part <+: content ∧ LeavesTemp s path part temp t

variable {s t u : Machine} {path : Path} {content text : Text} {temp : Location}

/-- Nothing is done by doing nothing. -/
theorem Untouched.of_files (h : s.Same t) (hfiles : t.files = s.files) : Untouched s path t where
  toSame := h
  kept l file hfile := by rw [hfiles, hfile]
  destination := by rw [file, hfiles]; rfl

/-- A new file is none of those that were there. -/
theorem LeavesTemp.untouched (h : LeavesTemp s path text temp t) : Untouched s path t := by
  refine ⟨h.toSame, fun l file hfile => ?_, ?_⟩
  · have hl : l ≠ temp := by
      rintro rfl
      rw [h.fresh] at hfile
      cases hfile
    rw [h.files, Function.update_of_ne hl, hfile]
  · rw [file, h.files, Function.update_of_ne h.ne.symm]
    rfl

/-- A failed write has done nothing to a file. -/
theorem Written.untouched {error : TorWriteError} (h : Written s path content (.error error) t) :
    Untouched s path t := by
  rcases h with ⟨hsame, hfiles⟩ | ⟨temp, part, -, htemp⟩
  · exact .of_files hsame hfiles
  · exact htemp.untouched

/-- What a write may find at each of its calls: the destination and every other file are as they
were. -/
def WriteGuard (s : Machine) (path : Path) (t : Machine) (q : SysCall) : Prop :=
  q.isFile ∧ Untouched s path t

/-- A call that does nothing to the files leaves the temporary file as it is. -/
theorem LeavesTemp.keep (h : LeavesTemp s path text temp t) (hs : s.Quiet)
    (hcall : t.Writes t.files u) : LeavesTemp s path text temp u where
  toSame := h.toSame.trans hcall.toSame
  dir := h.dir
  ne := h.ne
  fresh := h.fresh
  files := by rw [hcall.files (h.toSame.quiet hs), h.files]

/-- A call that does nothing to the files, before the temporary file is there. -/
theorem idle_meets {q : SysCall} (hq : q.isFile)
    (hcall : ∀ s r t, effect q s r t → s.Writes s.files t) (hs : s.Quiet) (hsame : s.Same t)
    (hfiles : t.files = s.files) : (Sys.call q).Meets effect (WriteGuard s path)
      (fun _ u => s.Same u ∧ u.files = s.files) t := by
  refine ⟨⟨hq, .of_files hsame hfiles⟩, fun r u h => ?_⟩
  have hwrite := hcall _ _ _ h
  exact ⟨hsame.trans hwrite.toSame, (hwrite.files (hsame.quiet hs)).trans hfiles⟩

/-- A call that does nothing to the files, while the temporary file is there. -/
theorem keep_meets {q : SysCall} (hq : q.isFile)
    (hcall : ∀ s r t, effect q s r t → s.Writes s.files t) (hs : s.Quiet)
    (h : LeavesTemp s path text temp t) : (Sys.call q).Meets effect (WriteGuard s path)
      (fun _ u => LeavesTemp s path text temp u) t :=
  ⟨⟨hq, h.untouched⟩, fun _ _ hr => h.keep hs (hcall _ _ _ hr)⟩

/-- A new private file is created, or nothing is done to the files. -/
theorem createNew_meets (hs : s.Quiet) (hsame : s.Same t) (hfiles : t.files = s.files)
    (pid : UInt32) (nanos : ℕ) :
    (Sys.call (.createNew (tempPath (tempDir path) path pid nanos) privateMode)).Meets effect
      (WriteGuard s path)
      (Calls.orElse (fun _ u => LeavesTemp s path []
          (UnixPath.location (tempPath (tempDir path) path pid nanos)) u)
        fun _ u => s.Same u ∧ u.files = s.files) t := by
  refine ⟨⟨rfl, .of_files hsame hfiles⟩, ?_⟩
  obtain ⟨hdir, hne⟩ := location_tempPath path pid nanos
  have ht := hsame.quiet hs
  rintro (error | ⟨⟩) u hcall
  · exact ⟨hsame.trans hcall.toSame, (hcall.files ht).trans hfiles⟩
  · obtain ⟨hfresh, hwrite⟩ := hcall
    refine ⟨hsame.trans hwrite.toSame, hdir, hne, ?_, ?_⟩
    · rw [← hfiles]
      exact hfresh ht
    · rw [hwrite.files ht, put, hfiles]

/-- The text is written to the temporary file, or a part of it. -/
theorem writeAll_meets {tempPath : Path} (hs : s.Quiet)
    (h : LeavesTemp s path [] (UnixPath.location tempPath) t) :
    (Sys.call (.writeAll tempPath content)).Meets effect (WriteGuard s path)
      (fun r u => ∃ part, part <+: content ∧ (r = .ok () → part = content) ∧
        LeavesTemp s path part (UnixPath.location tempPath) u) t := by
  refine ⟨⟨rfl, h.untouched⟩, ?_⟩
  rintro r u ⟨part, hpart, hwhole, hwrite⟩
  refine ⟨part, hpart, hwhole, h.toSame.trans hwrite.toSame, h.dir, h.ne, h.fresh, ?_⟩
  rw [hwrite.files (h.toSame.quiet hs), append, put, file, h.files, Function.update_self,
    Function.update_idem]
  rfl

/-- The temporary file takes the place of the destination, or nothing is done. -/
theorem rename_meets {tempPath : Path} (hs : s.Quiet)
    (h : LeavesTemp s path content (UnixPath.location tempPath) t) :
    (Sys.call (.rename tempPath path)).Meets effect (WriteGuard s path)
      (Calls.orElse (fun _ u => s.Same u ∧ u.files = s.put path (some ⟨content, privateMode⟩))
        fun _ u => LeavesTemp s path content (UnixPath.location tempPath) u) t := by
  refine ⟨⟨rfl, h.untouched⟩, ?_⟩
  rintro (error | ⟨⟩) u hcall
  · exact h.keep hs hcall
  · refine ⟨h.toSame.trans hcall.toSame, ?_⟩
    -- The temporary file was not there before, and it is not there any more.
    have hgone : t.put tempPath none = s.files := by
      rw [put, h.files, Function.update_idem, ← h.fresh, Function.update_eq_self]
    rw [hcall.files (h.toSame.quiet hs), hgone, file, h.files, Function.update_self]
    rfl

/-- Before its rename, a write has done nothing to the destination nor to any other file; when it
returns, the destination has the whole new text, and the temporary file is gone, or nothing has been
done but to the temporary file. -/
theorem atomicWrite_meets (hs : s.Quiet) (path : Path) (content : Text) :
    (atomicWrite path content).run.Meets effect (WriteGuard s path) (Written s path content) s := by
  unfold atomicWrite
  split_ifs with hempty
  · exact .inl ⟨.refl s, rfl⟩
  have hidle {q : SysCall} (hq : q.isFile)
      (hcall : ∀ s r t, effect q s r t → s.Writes s.files t) {t : Machine}
      (ht : s.Same t ∧ t.files = s.files) : (Sys.call q).Meets effect (WriteGuard s path)
        (fun _ u => s.Same u ∧ u.files = s.files) t := idle_meets hq hcall hs ht.1 ht.2
  refine Sys.io_bind (fun _ t => s.Same t ∧ t.files = s.files)
    ((hidle (q := .createDirAll _) rfl (fun _ _ _ h => h) ⟨.refl s, rfl⟩).imp ?_) fun _ t ht => ?_
  · rintro (error | value) t ht
    · exact .inl ht
    · exact ht
  refine Sys.always_bind _ (hidle (q := .processId) rfl (fun _ _ _ h => h) ht) fun pid t ht => ?_
  refine Sys.always_bind _ (hidle (q := .clock) rfl (fun _ _ _ h => h) ht) fun nanos t ht => ?_
  refine Sys.io_bind (fun _ u => LeavesTemp s path []
    (UnixPath.location (tempPath (tempDir path) path pid nanos)) u)
    ((createNew_meets hs ht.1 ht.2 pid nanos).imp ?_) fun _ t ht => ?_
  · rintro (error | value) t ht
    · exact .inl ht
    · exact ht
  generalize tempPath (tempDir path) path pid nanos = temp at ht ⊢
  -- From here on, an error leaves the temporary file behind.
  have hleft {part : Text} (hpart : part <+: content) {t : Machine}
      (ht : LeavesTemp s path part (UnixPath.location temp) t) (error : TorWriteError) :
      Written s path content (.error error) t := .inr ⟨_, part, hpart, ht⟩
  refine Sys.io_bind (fun _ u => LeavesTemp s path content (UnixPath.location temp) u)
    ((writeAll_meets hs ht).imp ?_) fun _ t ht => ?_
  · rintro (error | ⟨⟩) t ⟨part, hpart, hwhole, ht⟩
    · exact hleft hpart ht (.io error)
    · exact hwhole rfl ▸ ht
  refine Sys.io_bind (fun _ u => LeavesTemp s path content (UnixPath.location temp) u)
    ((keep_meets (q := .flush _) rfl (fun _ _ _ h => h) hs ht).imp ?_) fun _ t ht => ?_
  · rintro (error | ⟨⟩) t ht
    · exact hleft List.prefix_rfl ht (.io error)
    · exact ht
  refine Sys.io_bind (fun _ u => LeavesTemp s path content (UnixPath.location temp) u)
    ((keep_meets (q := .syncAll _) rfl (fun _ _ _ h => h) hs ht).imp ?_) fun _ t ht => ?_
  · rintro (error | ⟨⟩) t ht
    · exact hleft List.prefix_rfl ht (.io error)
    · exact ht
  refine Sys.meets_io.mpr ((rename_meets hs ht).imp ?_)
  rintro (error | ⟨⟩) u hu
  · exact hleft List.prefix_rfl hu (.io error)
  · exact hu

/-- Whatever fails and wherever a write is broken off: the destination has its old contents or the
whole new text, as a private file, and every other file is as it was. When the write has returned,
the new text is there if and only if it has succeeded, and then nothing else is left; otherwise, a
private file can be left in the destination's directory, with a part of the text. -/
theorem atomicWrite_run (hs : s.Quiet) {program : Sys (Except TorWriteError Unit)}
    (hrun : Calls.Reaches effect (atomicWrite path content).run s program t) :
    (t.file path = s.file path ∨ t.file path = some ⟨content, privateMode⟩) ∧
      (∀ l file, l ≠ UnixPath.location path → s.files l = some file → t.files l = some file) ∧
      ∀ result, program = .ret result → Written s path content result t := by
  have hmeets := (atomicWrite_meets hs path content).reaches hrun
  cases program with
  | call q next =>
    obtain ⟨-, huntouched⟩ := hmeets.1
    exact ⟨.inl huntouched.destination, fun l file _ => huntouched.kept l file, nofun⟩
  | ret result =>
    refine ⟨?_, ?_, fun _ heq => Calls.ret.inj heq ▸ hmeets⟩
    · rcases result with error | ⟨⟩
      · exact .inl (Written.untouched hmeets).destination
      · obtain ⟨-, hfiles⟩ := hmeets
        rw [file, hfiles, put, Function.update_self]
        exact .inr rfl
    · rcases result with error | ⟨⟩
      · exact fun l file _ => (Written.untouched hmeets).kept l file
      · obtain ⟨-, hfiles⟩ := hmeets
        intro l file hl hfile
        rw [hfiles, put, Function.update_of_ne hl, hfile]

/-- A machine with two files and no process. -/
def twoFiles : Machine where
  files l :=
    if l = [.rootDir, .normal "torrc".toList] then some ⟨"SocksPort 1\n".toList, 0o644⟩
    else if l = [.rootDir, .normal "hosts".toList] then some ⟨"hosts\n".toList, 0o644⟩
    else none
  children _ := none
  piped _ := []
  accepted _ _ := False

/-- A file is replaced, and the other one is as it was. -/
theorem atomicWrite_run_twoFiles :
    let run := (atomicWrite "/torrc".toList "SocksPort 2\n".toList).run.exec lonely twoFiles
    run.1 = .ok () ∧ Written twoFiles "/torrc".toList "SocksPort 2\n".toList run.1 run.2 ∧
      run.2.file "/hosts".toList = some ⟨"hosts\n".toList, 0o644⟩ := by
  intro run
  have hquiet : twoFiles.Quiet := by
    rintro c process ⟨⟩
  obtain ⟨-, hother, hwritten⟩ := atomicWrite_run hquiet
    (Calls.reaches_exec effect_lonely (atomicWrite "/torrc".toList "SocksPort 2\n".toList).run
      twoFiles)
  refine ⟨by decide, hwritten _ rfl, hother _ _ (by decide) (by decide)⟩

end Torlane.Host
