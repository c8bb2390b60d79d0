import Torlane.Process.Drain

/-!
# Every line is logged

What the log has of a pipe is a beginning of the lines that have been written to it, and all of them
when its task has come to the end of the pipe. `Faithful` follows a pipe and its part of the log:
what has been written is what the task has cut into lines, with what is in its buffer and in the
pipe. `Joined` follows the handles of the tasks. `drain_run` puts the two together.
-/

namespace Torlane.Drain

open Text Transition Framing

variable {capacity : ℕ} {p p' : Pipe} {action : PipeAction}
  {log entries : List (Except IoError Text)} {s t : State} {a : Action}

/-! ## The moves -/

/-- What a step of a pipe can do. -/
inductive PipeMove (capacity : ℕ) (p : Pipe) :
    PipeAction → Pipe → List (Except IoError Text) → Prop
  | write {bytes} (hwriters : p.writers ≠ 0) (hrunning : p.task.isRunning) :
      PipeMove capacity p (.write bytes)
        { p with written := p.written ++ bytes, queue := p.queue ++ bytes } []
  | refuse {bytes} (hrunning : p.task.isRunning = false) : PipeMove capacity p (.write bytes) p []
  | duplicate (hwriters : p.writers ≠ 0) :
      PipeMove capacity p .duplicate { p with writers := p.writers + 1 } []
  | close (hwriters : p.writers ≠ 0) :
      PipeMove capacity p .close { p with writers := p.writers - 1 } []
  | read {line n} (htask : p.task = .running line []) (hpos : 0 < n) (hle : n ≤ p.queue.length) :
      PipeMove capacity p (.read n)
        { p with queue := p.queue.drop n, task := .running line (p.queue.take n) } []
  | finish (htask : p.task = .running [] []) (hqueue : p.queue = []) (hwriters : p.writers = 0) :
      PipeMove capacity p .readEof { p with task := .ended } []
  | lastLine {line p' entries} (htask : p.task = .running line []) (hline : line ≠ [])
      (hqueue : p.queue = []) (hwriters : p.writers = 0)
      (hdeliver : p.deliver line [] = (p', entries)) : PipeMove capacity p .readEof p' entries
  | readError {line error} (htask : p.task = .running line []) :
      PipeMove capacity p (.readError error) { p with task := .ended } [.error error]
  | line {line buffer last rest p' entries} (htask : p.task = .running line buffer)
      (hsplit : splitLine buffer = some (last, rest))
      (hdeliver : p.deliver (line ++ last) rest = (p', entries)) :
      PipeMove capacity p .scan p' entries
  | keep {line buffer} (htask : p.task = .running line buffer) (hbuffer : buffer ≠ [])
      (hsplit : splitLine buffer = none) :
      PipeMove capacity p .scan { p with task := .running (line ++ buffer) [] } []
  | abort (haborting : p.aborting) (hrunning : p.task.isRunning) :
      PipeMove capacity p .abort { p with task := .aborted } []

/-- Every step of a pipe is one of the moves. -/
theorem pipeMove_of_pipeStep (h : pipeStep capacity p action = some (p', entries)) :
    PipeMove capacity p action p' entries := by
  cases action with
  | write bytes =>
    simp only [pipeStep] at h
    split_ifs at h with hnone hrunning hroom
    · cases h
      exact .write (fun hzero => hnone (.inl hzero)) hrunning
    · cases h
      exact .refuse (by simpa using hrunning)
  | duplicate =>
    simp only [pipeStep] at h
    split_ifs at h with hwriters
    cases h
    exact .duplicate hwriters
  | close =>
    simp only [pipeStep] at h
    split_ifs at h with hwriters
    cases h
    exact .close hwriters
  | read n =>
    simp only [pipeStep] at h
    split at h
    · next line htask =>
      split_ifs at h with hn
      cases h
      exact .read htask hn.1 hn.2.2
    · cases h
  | readEof =>
    simp only [pipeStep] at h
    split at h
    · next line htask =>
      split_ifs at h with hend hline
      · cases h
        exact .finish (hline ▸ htask) hend.1 hend.2
      · exact .lastLine htask hline hend.1 hend.2 (Option.some.inj h)
    · cases h
  | readError error =>
    simp only [pipeStep] at h
    split at h
    · next line htask =>
      cases h
      exact .readError htask
    · cases h
  | scan =>
    simp only [pipeStep] at h
    split at h
    · next line byte bytes htask =>
      split at h
      · next last rest hsplit => exact .line htask hsplit (Option.some.inj h)
      · next hsplit =>
        cases h
        exact .keep htask (List.cons_ne_nil byte bytes) hsplit
    · cases h
  | abort =>
    simp only [pipeStep] at h
    split_ifs at h with hrunning
    cases h
    exact .abort hrunning.1 hrunning.2

/-- What a step of the system can do. -/
inductive Move (capacity : ℕ) (s : State) : Action → State → Prop
  | pipe {stream action p entries} (hpipe : PipeMove capacity (s.pipe stream) action p entries) :
      Move capacity s (.pipe stream action)
        { s with
          pipe := Function.update s.pipe stream p
          log := s.log ++ entries.map (stream, ·) }
  | finish (hcaller : s.caller = .idle ∨ s.caller = .finished) :
      Move capacity s .finish (s.awaitNext [.stdout, .stderr])
  | join {stream rest} (hcaller : s.caller = .awaiting stream rest)
      (hended : (s.pipe stream).task.isRunning = false) :
      Move capacity s .join (s.awaitNext rest)
  | cancel {stream rest} (hcaller : s.caller = .awaiting stream rest) :
      Move capacity s .cancel { s with caller := .idle }
  | drop (hcaller : s.caller = .idle ∨ s.caller = .finished) :
      Move capacity s .drop s.dropProcess

/-- Every step is one of the moves. -/
theorem move_of_step (h : step capacity s a = some t) : Move capacity s a t := by
  cases a with
  | pipe stream action =>
    obtain ⟨⟨p, entries⟩, hpipe, heq⟩ := Option.map_eq_some_iff.mp h
    obtain rfl := heq
    exact .pipe (pipeMove_of_pipeStep hpipe)
  | finish =>
    simp only [step] at h
    split at h
    · next hcaller =>
      obtain rfl := Option.some.inj h
      exact .finish (.inl hcaller)
    · next hcaller =>
      obtain rfl := Option.some.inj h
      exact .finish (.inr hcaller)
    · cases h
  | join =>
    simp only [step] at h
    split at h
    · next stream rest hcaller =>
      split_ifs at h with hrunning
      obtain rfl := Option.some.inj h
      exact .join hcaller (by simpa using hrunning)
    · cases h
  | cancel =>
    simp only [step] at h
    split at h
    · next hcaller =>
      obtain rfl := Option.some.inj h
      exact .cancel hcaller
    · cases h
  | drop =>
    simp only [step] at h
    split at h
    · next hcaller =>
      obtain rfl := Option.some.inj h
      exact .drop (.inl hcaller)
    · next hcaller =>
      obtain rfl := Option.some.inj h
      exact .drop (.inr hcaller)
    · cases h

/-! ## A pipe and its part of the log -/

/-- A line that is split off ends with the first line feed. -/
theorem splitLine_eq_some {bytes last rest : List UInt8} (h : splitLine bytes = some (last, rest)) :
    ∃ body, (∀ byte ∈ body, ¬ isNewline byte) ∧ last = body ++ [10] ∧
      bytes = body ++ 10 :: rest := by
  induction bytes generalizing last with
  | nil => cases h
  | cons byte bytes ih =>
    rw [splitLine] at h
    split_ifs at h with hbyte
    · obtain ⟨rfl, rfl⟩ := Prod.mk.inj (Option.some.inj h)
      exact ⟨[], by simp, by rw [hbyte]; rfl, by rw [hbyte]; rfl⟩
    · obtain ⟨⟨last', rest'⟩, hsplit, heq⟩ := Option.map_eq_some_iff.mp h
      obtain ⟨rfl, rfl⟩ := Prod.mk.inj heq
      obtain ⟨body, hbody, rfl, rfl⟩ := ih hsplit
      refine ⟨byte :: body, List.forall_mem_cons.mpr ⟨?_, hbody⟩, rfl, rfl⟩
      simpa [isNewline] using hbyte

/-- Nothing is split off where there is no line feed. -/
theorem splitLine_eq_none {bytes : List UInt8} (h : splitLine bytes = none) :
    ∀ byte ∈ bytes, ¬ isNewline byte := by
  induction bytes with
  | nil => simp
  | cons byte bytes ih =>
    rw [splitLine] at h
    split_ifs at h with hbyte
    refine List.forall_mem_cons.mpr ⟨by simpa [isNewline] using hbyte, ih ?_⟩
    simpa using h

/-- A pipe and its part of the log. If `exact` holds, no read of the pipe fails. -/
inductive Faithful (exact : Prop) (p : Pipe) (log : List (Except IoError Text)) : Prop
  /-- All lines that have been cut off are logged. -/
  | reading {line buffer done complete} (htask : p.task = .running line buffer)
      (hwritten : p.written = done ++ (buffer ++ p.queue))
      (hframes : frames isNewline [] done = (complete, line))
      (hlog : log = complete.map nextLine) (hok : AllOk log)
  /-- The last line has been logged, and nobody can write. -/
  | atEnd (htask : p.task = .running [] []) (hqueue : p.queue = []) (hwriters : p.writers = 0)
      (hlog : log = linesOf p.written) (hok : AllOk log)
  | stopped (hrunning : p.task.isRunning = false) (hbeginning : Beginning p.written log)
      (htranscript : exact → p.task = .ended → log = transcript p.written)

variable {exact : Prop}

/-- Lines that have been cut off are the first lines. -/
theorem prefix_linesOf {done more : List UInt8} {complete : List (List UInt8)}
    {line : List UInt8} (h : frames isNewline [] done = (complete, line)) :
    complete.map nextLine <+: linesOf (done ++ more) :=
  (prefix_allFrames h).map nextLine

/-- While the task runs, the log has the first lines of the stream, and no error. -/
theorem Faithful.first_lines (h : Faithful exact p log) (hrunning : p.task.isRunning) :
    log <+: linesOf p.written ∧ AllOk log := by
  cases h with
  | reading htask hwritten hframes hlog hok =>
    rw [hwritten]
    exact ⟨hlog ▸ prefix_linesOf hframes, hok⟩
  | atEnd htask hqueue hwriters hlog hok => exact ⟨hlog ▸ List.prefix_refl _, hok⟩
  | stopped hstopped => simp [hrunning] at hstopped

/-- The log has the first lines of the stream. -/
theorem Faithful.beginning (h : Faithful exact p log) : Beginning p.written log := by
  by_cases hrunning : p.task.isRunning
  · obtain ⟨hfirst, hok⟩ := h.first_lines hrunning
    exact ⟨log, hfirst, hok, .inl rfl⟩
  · cases h with
    | reading htask => simp [htask, Task.isRunning] at hrunning
    | atEnd htask => simp [htask, Task.isRunning] at hrunning
    | stopped _ hbeginning => exact hbeginning

/-- A line that cannot be decoded is the last entry. -/
theorem Faithful.fail {error : IoError} (htask : p.task = .ended) (hok : AllOk log)
    (hfirst : log ++ [.error error] <+: linesOf p.written) :
    Faithful exact p (log ++ [.error error]) := by
  obtain ⟨more, hmore⟩ := hfirst
  have htranscript : transcript p.written = log ++ [.error error] := by
    unfold transcript
    rw [← hmore, List.append_assoc, hok.upToError_append]
    rfl
  refine .stopped (by rw [htask]; rfl) ⟨log, ?_, hok, .inr ⟨error, rfl⟩⟩ fun _ _ => htranscript.symm
  rw [← hmore, List.append_assoc]
  exact List.prefix_append _ _

/-- The handle of a task does not matter. -/
theorem Faithful.congr (h : Faithful exact p log) (hwritten : p'.written = p.written)
    (hqueue : p'.queue = p.queue) (hwriters : p'.writers = p.writers) (htask : p'.task = p.task) :
    Faithful exact p' log := by
  obtain ⟨written, queue, writers, task, handle, aborting⟩ := p
  obtain ⟨written', queue', writers', task', handle', aborting'⟩ := p'
  obtain rfl : written' = written := hwritten
  obtain rfl : queue' = queue := hqueue
  obtain rfl : writers' = writers := hwriters
  obtain rfl : task' = task := htask
  cases h with
  | reading htask hwritten hframes hlog hok => exact .reading htask hwritten hframes hlog hok
  | atEnd htask hqueue hwriters hlog hok => exact .atEnd htask hqueue hwriters hlog hok
  | stopped hrunning hbeginning htranscript => exact .stopped hrunning hbeginning htranscript

/-- A task that has something left to read has logged what it has cut off. -/
theorem Faithful.exists_cut {line buffer : List UInt8} (hs : Faithful exact p log)
    (htask : p.task = .running line buffer) (hleft : line ≠ [] ∨ buffer ≠ [] ∨ p.queue ≠ []) :
    ∃ done complete, p.written = done ++ (buffer ++ p.queue) ∧
      frames isNewline [] done = (complete, line) ∧ log = complete.map nextLine ∧ AllOk log := by
  cases hs with
  | @reading line' buffer' done complete htask' hwritten hframes hlog hok =>
    obtain ⟨rfl, rfl⟩ : line' = line ∧ buffer' = buffer := by simpa [htask, eq_comm] using htask'
    exact ⟨done, complete, hwritten, hframes, hlog, hok⟩
  | atEnd htask' hqueue =>
    obtain ⟨rfl, rfl⟩ : line = [] ∧ buffer = [] := by simpa [htask] using htask'
    simp [hqueue] at hleft
  | stopped hrunning => simp [htask, Task.isRunning] at hrunning

/-- While a write end is open, others may be opened and closed. -/
theorem Faithful.set_writers (hs : Faithful exact p log) (hwriters : p.writers ≠ 0) (writers : ℕ) :
    Faithful exact { p with writers } log := by
  cases hs with
  | reading htask hwritten hframes hlog hok => exact .reading htask hwritten hframes hlog hok
  | atEnd htask hqueue hnone => exact absurd hnone hwriters
  | stopped hrunning hbeginning htranscript => exact .stopped hrunning hbeginning htranscript

/-- What a delivery does. -/
theorem deliver_cases {line rest : List UInt8} (h : p.deliver line rest = (p', entries)) :
    (∃ text, nextLine line = .ok text ∧ p' = { p with task := .running [] rest } ∧
      entries = [.ok text]) ∨
    (∃ error, nextLine line = .error error ∧ p' = { p with task := .ended } ∧
      entries = [.error error]) := by
  unfold Pipe.deliver at h
  split at h
  · next text hline =>
    obtain ⟨rfl, rfl⟩ := Prod.mk.inj h
    exact .inl ⟨text, hline, rfl, rfl⟩
  · next error hline =>
    obtain ⟨rfl, rfl⟩ := Prod.mk.inj h
    exact .inr ⟨error, hline, rfl, rfl⟩

/-- The end of the pipe: the last line may lack its line feed. -/
theorem Faithful.deliver_last {line : List UInt8} (hs : Faithful exact p log)
    (htask : p.task = .running line []) (hline : line ≠ []) (hqueue : p.queue = [])
    (hwriters : p.writers = 0) (hdeliver : p.deliver line [] = (p', entries)) :
    Faithful exact p' (log ++ entries) := by
  obtain ⟨done, complete, hwritten, hframes, hlog, hok⟩ := hs.exists_cut htask (.inl hline)
  rw [hqueue, List.append_nil, List.append_nil] at hwritten
  have hall : linesOf p.written = log ++ [nextLine line] := by
    unfold linesOf
    rw [hwritten, allFrames_of_rest hframes hline, List.map_append, hlog]
    rfl
  rcases deliver_cases hdeliver with ⟨text, htext, rfl, rfl⟩ | ⟨error, herror, rfl, rfl⟩
  · have hfull : log ++ [.ok text] = linesOf p.written := by rw [hall, htext]
    exact .atEnd rfl hqueue hwriters hfull (hok.append (List.forall_mem_singleton.mpr rfl))
  · refine .fail rfl hok ?_
    show log ++ [.error error] <+: linesOf p.written
    rw [hall, herror]

/-- A line that is complete. -/
theorem Faithful.deliver_line {line buffer last rest : List UInt8} (hs : Faithful exact p log)
    (htask : p.task = .running line buffer) (hsplit : splitLine buffer = some (last, rest))
    (hdeliver : p.deliver (line ++ last) rest = (p', entries)) :
    Faithful exact p' (log ++ entries) := by
  obtain ⟨body, hbody, rfl, rfl⟩ := splitLine_eq_some hsplit
  obtain ⟨done, complete, hwritten, hframes, hlog, hok⟩ :=
    hs.exists_cut htask (.inr (.inl (by simp)))
  have hcut : frames isNewline [] (done ++ (body ++ [10])) =
      (complete ++ [line ++ (body ++ [10])], []) := by
    rw [frames_append, hframes, frames_of_end hbody (by decide)]
    rfl
  have hwhole : p.written = (done ++ (body ++ [10])) ++ (rest ++ p.queue) := by
    rw [hwritten]
    simp
  have hlines : (complete ++ [line ++ (body ++ [10])]).map nextLine =
      log ++ [nextLine (line ++ (body ++ [10]))] := by
    rw [List.map_append, hlog]
    rfl
  rcases deliver_cases hdeliver with ⟨text, htext, rfl, rfl⟩ | ⟨error, herror, rfl, rfl⟩
  · rw [htext] at hlines
    exact .reading rfl hwhole hcut hlines.symm (hok.append (List.forall_mem_singleton.mpr rfl))
  · rw [herror] at hlines
    refine .fail rfl hok ?_
    show log ++ [.error error] <+: linesOf p.written
    rw [hwhole, ← hlines]
    exact prefix_linesOf hcut

/-- A step keeps a pipe and its part of the log together. -/
theorem Faithful.step (hs : Faithful exact p log)
    (hexact : exact → ∀ error, action ≠ .readError error)
    (h : PipeMove capacity p action p' entries) : Faithful exact p' (log ++ entries) := by
  cases h with
  | write hwriters hrunning =>
    rw [List.append_nil]
    cases hs with
    | reading htask hwritten hframes hlog hok =>
      refine .reading htask ?_ hframes hlog hok
      simp [hwritten]
    | atEnd htask hqueue hnone => exact absurd hnone hwriters
    | stopped hstopped => simp [hrunning] at hstopped
  | refuse => rwa [List.append_nil]
  | duplicate hwriters =>
    rw [List.append_nil]
    exact hs.set_writers hwriters _
  | close hwriters =>
    rw [List.append_nil]
    exact hs.set_writers hwriters _
  | @read line n htask hpos hle =>
    rw [List.append_nil]
    have hqueue : p.queue ≠ [] := List.length_pos_iff.mp (by omega)
    obtain ⟨done, complete, hwritten, hframes, hlog, hok⟩ :=
      hs.exists_cut htask (.inr (.inr hqueue))
    refine .reading rfl ?_ hframes hlog hok
    rw [List.take_append_drop]
    exact hwritten
  | finish htask hqueue hwriters =>
    rw [List.append_nil]
    have hall : log = linesOf p.written ∧ AllOk log := by
      cases hs with
      | atEnd _ _ _ hlog hok => exact ⟨hlog, hok⟩
      | stopped hrunning => simp [htask, Task.isRunning] at hrunning
      | @reading line buffer done complete htask' hwritten hframes hlog hok =>
        obtain ⟨rfl, rfl⟩ : line = [] ∧ buffer = [] := by simpa [htask, eq_comm] using htask'
        rw [hqueue, List.append_nil, List.append_nil] at hwritten
        refine ⟨?_, hok⟩
        unfold linesOf
        rw [hwritten, allFrames_of_complete hframes, hlog]
    obtain ⟨hlog, hok⟩ := hall
    refine .stopped rfl ⟨log, hlog ▸ List.prefix_refl _, hok, .inl rfl⟩ fun _ _ => ?_
    show log = upToError (linesOf p.written)
    rw [← hlog, hok.upToError_eq]
  | lastLine htask hline hqueue hwriters hdeliver =>
    exact hs.deliver_last htask hline hqueue hwriters hdeliver
  | @readError line error htask =>
    obtain ⟨hfirst, hok⟩ := hs.first_lines (by rw [htask]; rfl)
    exact .stopped rfl ⟨log, hfirst, hok, .inr ⟨error, rfl⟩⟩
      fun hexactly => absurd rfl (hexact hexactly error)
  | line htask hsplit hdeliver => exact hs.deliver_line htask hsplit hdeliver
  | @keep line buffer htask hbuffer hsplit =>
    rw [List.append_nil]
    obtain ⟨done, complete, hwritten, hframes, hlog, hok⟩ :=
      hs.exists_cut htask (.inr (.inl hbuffer))
    have hcut : frames isNewline [] (done ++ buffer) = (complete, line ++ buffer) := by
      rw [frames_append, hframes, frames_of_forall (splitLine_eq_none hsplit), List.append_nil]
    have hwhole : p.written = (done ++ buffer) ++ ([] ++ p.queue) := by
      rw [hwritten, List.nil_append, List.append_assoc]
    exact .reading rfl hwhole hcut hlog hok
  | abort =>
    rw [List.append_nil]
    exact .stopped rfl hs.beginning fun _ hended => by cases hended

/-! ## The handles of the tasks -/

/-- What a step of a pipe leaves alone, and when a task stops. -/
structure Frame (p p' : Pipe) : Prop where
  handle : p'.handle = p.handle
  aborting : p'.aborting = p.aborting
  stopped : p.task.isRunning = false → p'.task = p.task
  aborted : p'.task = .aborted → p.task = .aborted ∨ p.aborting

/-- A pipe that has not moved. -/
theorem Frame.refl (p : Pipe) : Frame p p := ⟨rfl, rfl, fun _ => rfl, .inl⟩

/-- A step of a pipe whose task runs may end the task, or leave it running. -/
theorem Frame.of_running (hrunning : p.task.isRunning) {task : Task} (htask : task ≠ .aborted)
    (queue : List UInt8) : Frame p { p with queue, task } :=
  ⟨rfl, rfl, fun hstopped => by simp [hrunning] at hstopped, fun haborted => absurd haborted htask⟩

/-- A delivery ends the task, or leaves it running. -/
theorem Frame.deliver (hrunning : p.task.isRunning) {line rest : List UInt8}
    (hdeliver : p.deliver line rest = (p', entries)) : Frame p p' := by
  rcases deliver_cases hdeliver with ⟨_, -, rfl, -⟩ | ⟨_, -, rfl, -⟩
  · exact .of_running hrunning (by simp) p.queue
  · exact .of_running hrunning (by simp) p.queue

/-- A step of a pipe keeps the frame. -/
theorem PipeMove.frame (h : PipeMove capacity p action p' entries) : Frame p p' := by
  cases h with
  | write => exact ⟨rfl, rfl, fun _ => rfl, .inl⟩
  | refuse => exact .refl p
  | duplicate => exact ⟨rfl, rfl, fun _ => rfl, .inl⟩
  | close => exact ⟨rfl, rfl, fun _ => rfl, .inl⟩
  | read htask => exact .of_running (by rw [htask]; rfl) (by simp) _
  | finish htask => exact .of_running (by rw [htask]; rfl) (by simp) p.queue
  | lastLine htask _ _ _ hdeliver => exact .deliver (by rw [htask]; rfl) hdeliver
  | readError htask => exact .of_running (by rw [htask]; rfl) (by simp) p.queue
  | line htask _ hdeliver => exact .deliver (by rw [htask]; rfl) hdeliver
  | keep htask => exact .of_running (by rw [htask]; rfl) (by simp) p.queue
  | abort haborting hrunning =>
    exact ⟨rfl, rfl, fun hstopped => by simp [hrunning] at hstopped, fun _ => .inr haborting⟩

/-- A call of `finish_output_tasks` takes one handle at most. -/
theorem awaitNext_cases (s : State) (order : List OutputStream) :
    (s.awaitNext order = { s with caller := .finished } ∧
      ∀ stream ∈ order, (s.pipe stream).handle = false) ∨
    ∃ before stream rest, order = before ++ stream :: rest ∧
      (∀ stream ∈ before, (s.pipe stream).handle = false) ∧ (s.pipe stream).handle ∧
      s.awaitNext order =
        { s with
          pipe := Function.update s.pipe stream { s.pipe stream with handle := false }
          caller := .awaiting stream rest } := by
  induction order with
  | nil => exact .inl ⟨rfl, by simp⟩
  | cons stream order ih =>
    rw [State.awaitNext]
    split_ifs with hhandle
    · exact .inr ⟨[], stream, order, rfl, by simp, hhandle, rfl⟩
    · have hnone : (s.pipe stream).handle = false := by simpa using hhandle
      rcases ih with ⟨heq, hall⟩ | ⟨before, stream', rest, rfl, hbefore, hhandle', heq⟩
      · exact .inl ⟨heq, List.forall_mem_cons.mpr ⟨hnone, hall⟩⟩
      · exact .inr ⟨stream :: before, stream', rest, rfl,
          List.forall_mem_cons.mpr ⟨hnone, hbefore⟩, hhandle', heq⟩

/-- A call of `finish_output_tasks` leaves all but the handles. -/
theorem awaitNext_pipe (s : State) (order : List OutputStream) (stream : OutputStream) :
    ∃ handle, (s.awaitNext order).pipe stream = { s.pipe stream with handle } := by
  rcases awaitNext_cases s order with ⟨heq, -⟩ | ⟨before, stream', rest, -, -, -, heq⟩
  · exact ⟨(s.pipe stream).handle, by rw [heq]⟩
  · rw [heq]
    by_cases hstream : stream = stream'
    · subst hstream
      exact ⟨false, Function.update_self ..⟩
    · exact ⟨(s.pipe stream).handle, Function.update_of_ne hstream ..⟩

/-- A call of `finish_output_tasks` logs nothing. -/
theorem awaitNext_log (s : State) (order : List OutputStream) :
    (s.awaitNext order).log = s.log := by
  rcases awaitNext_cases s order with ⟨heq, -⟩ | ⟨_, _, _, -, -, -, heq⟩ <;> rw [heq]

/-- The task has come to its end, or its handle is among those that are held. -/
def Accounted (s : State) (stream : OutputStream) : Prop :=
  (s.pipe stream).handle ∨ (s.pipe stream).task = .ended

/-- Which tasks may still run, unless a future that waited for one has been dropped. -/
structure Joined (s : State) : Prop where
  idle : s.caller = .idle → ∀ stream, Accounted s stream
  awaiting : ∀ stream rest, s.caller = .awaiting stream rest → ∀ stream', stream' = stream ∨
    stream' ∈ rest ∧ Accounted s stream' ∨ (s.pipe stream').task = .ended
  finished : s.caller = .finished → ∀ stream, (s.pipe stream).task = .ended
  dropped : s.caller = .dropped → ∀ stream, (s.pipe stream).task.isRunning →
    (s.pipe stream).aborting
  working : s.caller ≠ .dropped → ∀ stream,
    (s.pipe stream).task ≠ .aborted ∧ (s.pipe stream).aborting = false

/-- What holds when `finish_output_tasks` goes on to the tasks that are left. -/
theorem Joined.awaitNext (hs : Joined s) (hcaller : s.caller ≠ .dropped)
    {order : List OutputStream}
    (horder : ∀ stream, stream ∈ order ∧ Accounted s stream ∨ (s.pipe stream).task = .ended) :
    Joined (s.awaitNext order) := by
  have hworking (stream : OutputStream) : ((s.awaitNext order).pipe stream).task ≠ .aborted ∧
      ((s.awaitNext order).pipe stream).aborting = false := by
    obtain ⟨handle, hpipe⟩ := awaitNext_pipe s order stream
    rw [hpipe]
    exact hs.working hcaller stream
  rcases awaitNext_cases s order with ⟨heq, hnone⟩ | ⟨before, stream, rest, rfl, hnone, -, heq⟩
  · rw [heq] at hworking ⊢
    refine ⟨fun hidle => (by cases hidle), fun _ _ hwaits => (by cases hwaits),
      fun _ stream => ?_, fun hdropped => (by cases hdropped), fun _ => hworking⟩
    rcases horder stream with ⟨hmem, hhandle | hended⟩ | hended
    · simp [hnone stream hmem] at hhandle
    · exact hended
    · exact hended
  · rw [heq] at hworking ⊢
    refine ⟨fun hidle => (by cases hidle), ?_, fun hfinished => (by cases hfinished),
      fun hdropped => (by cases hdropped), fun _ => hworking⟩
    intro stream₁ rest₁ hwaits stream'
    obtain ⟨rfl, rfl⟩ := Caller.awaiting.inj hwaits
    by_cases hstream : stream' = stream
    · exact .inl hstream
    refine .inr ?_
    have hpipe : Function.update s.pipe stream { s.pipe stream with handle := false } stream' =
        s.pipe stream' := Function.update_of_ne hstream ..
    simp only [Accounted, hpipe]
    rcases horder stream' with ⟨hmem, haccounted⟩ | hended
    · rcases List.mem_append.mp hmem with hbefore | hrest
      -- The handles before the one that is taken are not held.
      · refine .inr (haccounted.resolve_left ?_)
        simp [hnone stream' hbefore]
      · exact .inl ⟨(List.mem_cons.mp hrest).resolve_left hstream, haccounted⟩
    · exact .inr hended

/-- A step of one pipe keeps the frame of all of them. -/
theorem update_frame {stream : OutputStream}
    (h : PipeMove capacity (s.pipe stream) action p entries) (stream' : OutputStream) :
    Frame (s.pipe stream') (Function.update s.pipe stream p stream') := by
  by_cases hstream : stream' = stream
  · rw [hstream, Function.update_self]
    exact h.frame
  · rw [Function.update_of_ne hstream]
    exact .refl _

/-- A step of a pipe keeps the account of the handles. -/
theorem Joined.update (hs : Joined s) {stream : OutputStream}
    (h : PipeMove capacity (s.pipe stream) action p entries)
    (log : List (OutputStream × Except IoError Text)) :
    Joined { s with pipe := Function.update s.pipe stream p, log } := by
  have hended (stream' : OutputStream) (htask : (s.pipe stream').task = .ended) :
      (Function.update s.pipe stream p stream').task = .ended := by
    rw [(update_frame h stream').stopped (by rw [htask]; rfl), htask]
  have haccounted (stream' : OutputStream) (haccounted : Accounted s stream') :
      (Function.update s.pipe stream p stream').handle ∨
        (Function.update s.pipe stream p stream').task = .ended :=
    haccounted.imp (fun hheld => (update_frame h stream').handle.trans hheld) (hended stream')
  constructor
  · exact fun hidle stream' => haccounted stream' (hs.idle hidle stream')
  · intro stream₁ rest hawaiting stream'
    rcases hs.awaiting stream₁ rest hawaiting stream' with heq | ⟨hmem, hacc⟩ | htask
    · exact .inl heq
    · exact .inr (.inl ⟨hmem, haccounted stream' hacc⟩)
    · exact .inr (.inr (hended stream' htask))
  · exact fun hfinished stream' => hended stream' (hs.finished hfinished stream')
  · intro hdropped stream' hrunning
    have hframe := update_frame h stream'
    refine hframe.aborting.trans (hs.dropped hdropped stream' ?_)
    by_contra hnot
    have hsame := hframe.stopped (by simpa using hnot)
    simp only [hsame] at hrunning
    exact hnot hrunning
  · intro hworking stream'
    obtain ⟨hnot, hnone⟩ := hs.working hworking stream'
    have hframe := update_frame h stream'
    refine ⟨fun htask => ?_, hframe.aborting.trans hnone⟩
    rcases hframe.aborted htask with hbefore | hbefore
    · exact hnot hbefore
    · simp [hnone] at hbefore

/-- A step keeps the account of the handles, unless it drops a future. -/
theorem Joined.step (hs : Joined s) (hcancel : a ≠ .cancel) (h : Move capacity s a t) :
    Joined t := by
  cases h with
  | pipe hpipe => exact hs.update hpipe _
  | finish hcaller =>
    rcases hcaller with hidle | hfinished
    · refine hs.awaitNext (by simp [hidle]) fun stream => .inl ⟨?_, hs.idle hidle stream⟩
      cases stream <;> simp
    · exact hs.awaitNext (by simp [hfinished]) fun stream => .inr (hs.finished hfinished stream)
  | @join stream rest hcaller hended =>
    have hworking : s.caller ≠ .dropped := by simp [hcaller]
    refine hs.awaitNext hworking fun stream' => ?_
    rcases hs.awaiting stream rest hcaller stream' with rfl | hleft | htask
    · refine .inr ?_
      have hnot := (hs.working hworking stream').1
      cases htask : (s.pipe stream').task with
      | running line buffer => simp [htask, Task.isRunning] at hended
      | ended => rfl
      | aborted => exact absurd htask hnot
    · exact .inl hleft
    · exact .inr htask
  | cancel => exact absurd rfl hcancel
  | drop hcaller =>
    refine ⟨fun hidle => (by cases hidle), fun _ _ hwaits => (by cases hwaits),
      fun hfinished => (by cases hfinished), fun _ stream hrunning => ?_,
      fun hnot => absurd rfl hnot⟩
    have hended : (s.pipe stream).task ≠ .ended := by
      intro htask
      have hsame : (s.dropProcess.pipe stream).task = (s.pipe stream).task := rfl
      simp [hsame, htask, Task.isRunning] at hrunning
    rcases hcaller with hidle | hfinished
    · exact (hs.idle hidle stream).resolve_right hended
    · exact absurd (hs.finished hfinished stream) hended

/-! ## Runs -/

/-- What is logged of one stream is not logged of the other. -/
theorem logged_append (s : State) (pipe : OutputStream → Pipe) (stream stream' : OutputStream)
    (entries : List (Except IoError Text)) :
    State.logged { s with pipe, log := s.log ++ entries.map (stream', ·) } stream =
      s.logged stream ++ if stream' = stream then entries else [] := by
  unfold State.logged
  rw [List.filterMap_append, List.filterMap_map]
  congr 1
  split_ifs with hstream
  · subst hstream
    simp
  · simp [hstream]

/-- A step of the system keeps every pipe and its part of the log together. -/
theorem Faithful.move {stream : OutputStream}
    (hs : Faithful exact (s.pipe stream) (s.logged stream))
    (hexact : exact → ∀ error, a ≠ .pipe stream (.readError error)) (h : Move capacity s a t) :
    Faithful exact (t.pipe stream) (t.logged stream) := by
  have hnext (order : List OutputStream) :
      Faithful exact ((s.awaitNext order).pipe stream) ((s.awaitNext order).logged stream) := by
    obtain ⟨handle, hpipe⟩ := awaitNext_pipe s order stream
    have hlogged : (s.awaitNext order).logged stream = s.logged stream := by
      unfold State.logged
      rw [awaitNext_log]
    rw [hpipe, hlogged]
    exact hs.congr rfl rfl rfl rfl
  cases h with
  | @pipe stream' action p entries hpipe =>
    rw [logged_append]
    split_ifs with hstream
    · subst hstream
      show Faithful exact (Function.update s.pipe stream' p stream') _
      rw [Function.update_self]
      refine hs.step (fun hexactly error herror => ?_) hpipe
      exact hexact hexactly error (by rw [herror])
    · show Faithful exact (Function.update s.pipe stream' p stream) _
      rw [Function.update_of_ne (Ne.symm hstream), List.append_nil]
      exact hs
  | finish => exact hnext _
  | join => exact hnext _
  | cancel => exact hs
  | drop => exact hs.congr rfl rfl rfl rfl

/-- At the start, nothing has been written and every handle is held. -/
theorem faithful_spawned (exact : Prop) (stream : OutputStream) :
    Faithful exact (spawned.pipe stream) (spawned.logged stream) :=
  .reading rfl rfl (frames_nil []) rfl (by simp [AllOk, State.logged, spawned])

/-- At the start, every handle is held. -/
theorem joined_spawned : Joined spawned :=
  ⟨fun _ _ => .inl rfl, fun _ _ hwaits => (by cases hwaits), fun hfinished => (by cases hfinished),
    fun hdropped => (by cases hdropped), fun _ _ => ⟨by simp [spawned], rfl⟩⟩

/-- A run in which no future is dropped keeps the account of the handles. -/
theorem joined_run {as : List Action} (hcancel : .cancel ∉ as)
    (h : run (step capacity) spawned as = some s) : Joined s := by
  refine run_invariant (A := (· ∈ as)) ?_ (fun a ha => ha) joined_spawned h
  intro s a t ha hstep hs
  exact hs.step (fun hnot => hcancel (hnot ▸ ha)) (move_of_step hstep)

/-- In every run of the two tasks, of any processes that write to the pipes, and of whoever stops
Tor, however their steps are interleaved, wherever the reads of a pipe cut its bytes, and however
few bytes a pipe holds: the log has the first lines of each pipe, each once and in order, and at
most one error behind them. If no read of the pipe fails and its task has come to its end, the log
has every line up to the first one that is not UTF-8; so if whole lines of text have been written,
it has these lines. And when `finish_output_tasks` has returned, both tasks have come to their ends,
unless a future of it has been dropped. -/
theorem drain_run {as : List Action} (h : run (step capacity) spawned as = some s)
    (stream : OutputStream) :
    Beginning (s.pipe stream).written (s.logged stream) ∧
      ((∀ error, .pipe stream (.readError error) ∉ as) → (s.pipe stream).task = .ended →
        s.logged stream = transcript (s.pipe stream).written ∧
          ∀ lines : List Text, (∀ line ∈ lines, IsLine line) →
            (s.pipe stream).written = encodeUtf8 (lines.flatMap (· ++ ['\n'])) →
            s.logged stream = lines.map .ok) ∧
      (.cancel ∉ as → s.caller = .finished → (s.pipe stream).task = .ended) := by
  have hfaithful : Faithful (∀ error, .pipe stream (.readError error) ∉ as) (s.pipe stream)
      (s.logged stream) := by
    refine run_invariant (A := (· ∈ as)) (I := fun s => Faithful
      (∀ error, .pipe stream (.readError error) ∉ as) (s.pipe stream) (s.logged stream))
      ?_ (fun a ha => ha) (faithful_spawned _ stream) h
    intro s a t ha hstep hs
    refine hs.move (fun hnone error herror => ?_) (move_of_step hstep)
    exact hnone error (herror ▸ ha)
  refine ⟨hfaithful.beginning, fun hexact hended => ?_, fun hcancel hfinished => ?_⟩
  · have htranscript : s.logged stream = transcript (s.pipe stream).written := by
      cases hfaithful with
      | reading htask => simp [hended] at htask
      | atEnd htask => simp [hended] at htask
      | stopped _ _ htranscript => exact htranscript hexact hended
    refine ⟨htranscript, fun lines hlines hwritten => ?_⟩
    rw [htranscript, hwritten, transcript_lines hlines]
  · have hjoined : Joined s := joined_run hcancel h
    exact hjoined.finished hfinished stream

/-- A line that fills its pipe and is read in two pieces, while its task is waited for. -/
def cutLine : List Action :=
  [.pipe .stdout (.write [97]), .pipe .stdout (.write [98, 10]), .pipe .stdout (.read 2),
    .pipe .stdout .scan, .finish, .pipe .stdout (.read 1), .pipe .stdout .scan,
    .pipe .stdout .close, .pipe .stdout .readEof, .join, .pipe .stderr .close,
    .pipe .stderr .readEof, .join]

/-- The line is logged as it was written, and both tasks have been waited for. -/
theorem drain_run_cutLine :
    ∃ s, run (step 3) spawned cutLine = some s ∧ s.logged .stdout = [.ok "ab".toList] ∧
      (s.pipe .stderr).task = .ended := by
  have hrun : ∃ s, run (step 3) spawned cutLine = some s ∧ s.caller = .finished ∧
      (s.pipe .stdout).task = .ended ∧
      (s.pipe .stdout).written = encodeUtf8 (["ab".toList].flatMap (· ++ ['\n'])) :=
    ⟨_, rfl, rfl, rfl, rfl⟩
  obtain ⟨s, hs, hcaller, hended, hwritten⟩ := hrun
  have hexact : ∀ error, .pipe .stdout (.readError error) ∉ cutLine := by simp [cutLine]
  have hcancel : .cancel ∉ cutLine := by simp [cutLine]
  have hlogged := (drain_run hs .stdout).2.1 hexact hended
  have hfinished := (drain_run hs .stderr).2.2 hcancel hcaller
  exact ⟨s, hs, hlogged.2 ["ab".toList] (List.forall_mem_singleton.mpr (by decide)) hwritten,
    hfinished⟩

end Torlane.Drain
