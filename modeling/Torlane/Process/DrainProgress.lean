import Torlane.Process.Transcript

/-!
# Tor is never held up by its output

A pipe holds a bounded number of bytes, and a process that writes to a full one waits. It does not
wait for long: the tasks take only so many steps for each byte, and when they have no step left,
their pipes are empty and the write ends are open. So is a wait for the tasks over by then, unless a
process still holds a write end. The potential of a state counts the steps that are left.
-/

namespace Torlane.Drain

open Transition

variable {capacity : ℕ} {p p' : Pipe} {action : PipeAction} {entries : List (Except IoError Text)}
  {s t : State} {a : Action}

/-! ## The work that is left -/

/-- The most steps that a task can still take without a further write: each byte is read and taken
out of the buffer, and the end of the pipe is met twice if a line is left. -/
def Pipe.work (p : Pipe) : ℕ :=
  match p.task with
  | .running line buffer =>
    3 * p.queue.length + 2 * buffer.length + if line = [] then 1 else 2
  | _ => 0

/-- The most tasks that are still waited for. -/
def Caller.work : Caller → ℕ
  | .awaiting _ rest => rest.length + 1
  | _ => 0

/-- All the work that is left. -/
def State.potential (s : State) : ℕ :=
  (s.pipe .stdout).work + (s.pipe .stderr).work + s.caller.work

/-- The work that comes with a step of a pipe. -/
def PipeAction.credit : PipeAction → ℕ
  | .write bytes => 3 * bytes.length + 1
  | .duplicate => 1
  | .close => 1
  | _ => 0

/-- The work that comes with a step of the system. -/
def Action.credit : Action → ℕ
  | .pipe _ action => action.credit
  | .finish => 3
  | .drop => 1
  | _ => 0

/-- The work of a task that runs. -/
theorem work_running {line buffer : List UInt8} (htask : p.task = .running line buffer) :
    p.work = 3 * p.queue.length + 2 * buffer.length + if line = [] then 1 else 2 := by
  unfold Pipe.work
  rw [htask]

/-- A task that has stopped has no work. -/
theorem work_stopped (hrunning : p.task.isRunning = false) : p.work = 0 := by
  unfold Pipe.work
  split
  · next htask => simp [htask, Task.isRunning] at hrunning
  · rfl

/-- A task that runs has a step left. -/
theorem work_pos (hrunning : p.task.isRunning) : 1 ≤ p.work := by
  obtain ⟨line, buffer, htask⟩ := Task.exists_of_isRunning hrunning
  rw [work_running htask]
  split_ifs <;> omega

/-- After a delivery, the rest of the buffer is left. -/
theorem work_deliver {line rest : List UInt8} (hdeliver : p.deliver line rest = (p', entries)) :
    p'.work ≤ 3 * p.queue.length + 2 * rest.length + 1 := by
  rcases deliver_cases hdeliver with ⟨_, -, rfl, -⟩ | ⟨_, -, rfl, -⟩
  · show 3 * p.queue.length + 2 * rest.length + (if ([] : List UInt8) = [] then 1 else 2) ≤ _
    rw [if_pos rfl]
  · rw [work_stopped rfl]
    omega

/-- Every step of a pipe is paid for by its work, or by what it brings. -/
theorem PipeMove.pays (h : PipeMove capacity p action p' entries) :
    p'.work + 1 ≤ p.work + action.credit := by
  cases h with
  | @write bytes hwriters hrunning =>
    obtain ⟨line, buffer, htask⟩ := Task.exists_of_isRunning hrunning
    have hcredit : (PipeAction.write bytes).credit = 3 * bytes.length + 1 := rfl
    simp only [Pipe.work, htask, hcredit, List.length_append]
    omega
  | @refuse bytes =>
    have hcredit : (PipeAction.write bytes).credit = 3 * bytes.length + 1 := rfl
    omega
  | duplicate => exact Nat.le_refl _
  | close => exact Nat.le_refl _
  | @read line n htask hpos hle =>
    rw [work_running htask]
    simp only [Pipe.work, List.length_drop, List.length_take, List.length_nil]
    omega
  | finish htask hqueue =>
    rw [work_running htask, work_stopped rfl, if_pos rfl]
    omega
  | @lastLine line p' entries htask hline hqueue hwriters hdeliver =>
    have hdelivered := work_deliver hdeliver
    rw [List.length_nil] at hdelivered
    rw [work_running htask, if_neg hline]
    omega
  | readError htask =>
    have hpos := work_pos (p := p) (by rw [htask]; rfl)
    rw [work_stopped rfl]
    omega
  | @line line buffer last rest p' entries htask hsplit hdeliver =>
    have hdelivered := work_deliver hdeliver
    have hshorter : rest.length < buffer.length := splitLine_length hsplit
    have hline : 1 ≤ (if line = [] then 1 else 2) := by split_ifs <;> omega
    rw [work_running htask]
    omega
  | @keep line buffer htask hbuffer hsplit =>
    have hpos : 0 < buffer.length := List.length_pos_iff.mpr hbuffer
    have hne : line ++ buffer ≠ [] := by simp [hbuffer]
    have hline : 1 ≤ (if line = [] then 1 else 2) := by split_ifs <;> omega
    rw [work_running htask, work_running rfl, if_neg hne, List.length_nil]
    show 3 * p.queue.length + 2 * 0 + 2 + 1 ≤ _
    omega
  | abort haborting hrunning =>
    have hpos := work_pos hrunning
    rw [work_stopped rfl]
    omega

/-- The work of the pipes after one of them has moved. -/
theorem work_update (s : State) (stream : OutputStream) (p : Pipe) :
    (Function.update s.pipe stream p .stdout).work +
        (Function.update s.pipe stream p .stderr).work + (s.pipe stream).work =
      (s.pipe .stdout).work + (s.pipe .stderr).work + p.work := by
  cases stream with
  | stdout =>
    rw [Function.update_self, Function.update_of_ne (by simp)]
    omega
  | stderr =>
    rw [Function.update_self, Function.update_of_ne (by simp)]
    omega

/-- A call of `finish_output_tasks` waits for the tasks in turn. -/
theorem potential_awaitNext (s : State) (order : List OutputStream) :
    (s.awaitNext order).potential ≤
      (s.pipe .stdout).work + (s.pipe .stderr).work + order.length := by
  have hpipe (stream : OutputStream) :
      ((s.awaitNext order).pipe stream).work = (s.pipe stream).work := by
    obtain ⟨handle, hpipe⟩ := awaitNext_pipe s order stream
    rw [hpipe]
    rfl
  have hcaller : (s.awaitNext order).caller.work ≤ order.length := by
    rcases awaitNext_cases s order with ⟨heq, -⟩ | ⟨before, stream, rest, rfl, -, -, heq⟩
    · rw [heq]
      exact Nat.zero_le _
    · rw [heq]
      simp only [Caller.work, List.length_append, List.length_cons]
      omega
  unfold State.potential
  rw [hpipe, hpipe]
  omega

/-- Every step is paid for by the work that is left, or by what it brings. -/
theorem paid_potential (capacity : ℕ) :
    Paid (step capacity) (fun _ => True) (fun _ => True) State.potential Action.credit where
  keeps _ _ _ _ _ _ := trivial
  pays s a t _ h _ := by
    have hpotential : s.potential =
        (s.pipe .stdout).work + (s.pipe .stderr).work + s.caller.work := rfl
    cases move_of_step h with
    | @pipe stream action p entries hpipe =>
      have hpays := hpipe.pays
      have hsum := work_update s stream p
      have hcredit : (Action.pipe stream action).credit = action.credit := rfl
      show (Function.update s.pipe stream p .stdout).work +
        (Function.update s.pipe stream p .stderr).work + s.caller.work + 1 ≤ _
      omega
    | finish hcaller =>
      have hnext := potential_awaitNext s [.stdout, .stderr]
      have hcredit : Action.finish.credit = 3 := rfl
      simp only [List.length_cons, List.length_nil] at hnext
      omega
    | @join stream rest hcaller =>
      have hnext := potential_awaitNext s rest
      have hwork : s.caller.work = rest.length + 1 := by rw [hcaller]; rfl
      omega
    | @cancel stream rest hcaller =>
      have hwork : s.caller.work = rest.length + 1 := by rw [hcaller]; rfl
      show (s.pipe .stdout).work + (s.pipe .stderr).work + 0 + 1 ≤ _
      omega
    | drop hcaller =>
      have hcredit : Action.drop.credit = 1 := rfl
      show (s.pipe .stdout).work + (s.pipe .stderr).work + 0 + 1 ≤ _
      omega

/-! ## Rest -/

/-- The steps of the tasks, and the end of a wait for one. -/
def Action.ongoing : Action → Prop
  | .pipe _ (.read _) => True
  | .pipe _ .readEof => True
  | .pipe _ .scan => True
  | .pipe _ .abort => True
  | .join => True
  | _ => False

/-- The tasks have nothing to do. A pipe that is read is empty, and a process can write to it; so
whoever holds a write end is not held up. A task that is waited for waits for such a process. -/
structure AtRest (capacity : ℕ) (s : State) : Prop where
  empty : ∀ stream, (s.pipe stream).task.isRunning →
    (s.pipe stream).queue = [] ∧ 0 < (s.pipe stream).writers
  writable : ∀ stream bytes, 0 < (s.pipe stream).writers → bytes ≠ [] → bytes.length ≤ capacity →
    (step capacity s (.pipe stream (.write bytes))).isSome
  awaited : ∀ stream rest, s.caller = .awaiting stream rest → (s.pipe stream).task.isRunning
  aborted : ∀ stream, (s.pipe stream).aborting → (s.pipe stream).task.isRunning = false

/-- A step of a pipe that is not enabled. -/
theorem pipeStep_of_quiet (h : Quiet (step capacity) Action.ongoing s) (stream : OutputStream)
    (action : PipeAction) (hongoing : (Action.pipe stream action).ongoing) :
    pipeStep capacity (s.pipe stream) action = none :=
  Option.map_eq_none_iff.mp (h (.pipe stream action) hongoing)

/-- A task without a step left waits for a write. -/
theorem empty_of_quiet (h : Quiet (step capacity) Action.ongoing s) (stream : OutputStream)
    (hrunning : (s.pipe stream).task.isRunning) :
    (s.pipe stream).queue = [] ∧ 0 < (s.pipe stream).writers := by
  obtain ⟨line, buffer, htask⟩ := Task.exists_of_isRunning hrunning
  cases buffer with
  | cons byte bytes =>
    -- A line is taken out of the buffer, or all of it.
    have hscan := pipeStep_of_quiet h stream .scan trivial
    simp only [pipeStep, htask] at hscan
    split at hscan <;> cases hscan
  | nil =>
    have hqueue : (s.pipe stream).queue = [] := by
      cases hqueue : (s.pipe stream).queue with
      | nil => rfl
      | cons byte bytes =>
        have hread := pipeStep_of_quiet h stream (.read 1) trivial
        simp [pipeStep, htask, hqueue, bufferSize] at hread
    -- Without a writer, the task would meet the end of the pipe.
    refine ⟨hqueue, Nat.pos_of_ne_zero fun hwriters => ?_⟩
    have heof := pipeStep_of_quiet h stream .readEof trivial
    simp only [pipeStep, htask, hqueue, hwriters, and_self, if_true] at heof
    split_ifs at heof

/-- A state in which no task has a step left is one of rest. -/
theorem atRest_of_quiet (h : Quiet (step capacity) Action.ongoing s) : AtRest capacity s := by
  refine ⟨empty_of_quiet h, fun stream bytes hwriters hbytes hlength => ?_,
    fun stream rest hcaller => ?_, fun stream haborting => ?_⟩
  · have hnone : ¬ ((s.pipe stream).writers = 0 ∨ bytes = []) :=
      not_or.mpr ⟨Nat.ne_of_gt hwriters, hbytes⟩
    simp only [step, pipeStep, Option.isSome_map, if_neg hnone]
    by_cases hrunning : (s.pipe stream).task.isRunning
    · obtain ⟨hqueue, -⟩ := empty_of_quiet h stream hrunning
      have hroom : (s.pipe stream).queue.length + bytes.length ≤ capacity := by
        rw [hqueue, List.length_nil]
        omega
      rw [if_pos hrunning, if_pos hroom]
      rfl
    · rw [if_neg hrunning]
      rfl
  · by_contra hrunning
    have hjoin := h .join trivial
    simp only [step, hcaller, if_neg hrunning] at hjoin
    cases hjoin
  · by_contra hrunning
    have habort := pipeStep_of_quiet h stream .abort trivial
    have hboth : (s.pipe stream).aborting ∧ (s.pipe stream).task.isRunning :=
      ⟨haborting, by simpa using hrunning⟩
    simp only [pipeStep, if_pos hboth] at habort
    cases habort

/-- After a drop no task runs where none has a step left, unless a future of `finish_output_tasks`
has been dropped. -/
theorem stopped_of_quiet {as : List Action} (h : run (step capacity) spawned as = some s)
    (hcancel : .cancel ∉ as) (hquiet : Quiet (step capacity) Action.ongoing s)
    (hdropped : s.caller = .dropped) (stream : OutputStream) :
    (s.pipe stream).task.isRunning = false := by
  have hjoined : Joined s := joined_run hcancel h
  by_contra hrunning
  have hstopped := (atRest_of_quiet hquiet).aborted stream
    (hjoined.dropped hdropped stream (by simpa using hrunning))
  exact hrunning hstopped

/-- In every run, however its steps are interleaved: the tasks, and those who wait for them, take at
most three steps for each byte of a write, of a refused one as well, two for each call of
`finish_output_tasks`, and two more. When they have no step left, no process that writes to a pipe
is held up, and a wait is over unless a process still holds a write end; after a drop, no task runs
then, unless a future of `finish_output_tasks` has been dropped. And from every state such a state
is reached by the tasks, and those who wait for them, alone. -/
theorem drain_settles {as : List Action} (h : run (step capacity) spawned as = some t) :
    as.length ≤ totalCredit Action.credit as + 2 ∧
      (Quiet (step capacity) Action.ongoing t → AtRest capacity t ∧
        (.cancel ∉ as → t.caller = .dropped →
          ∀ stream, (t.pipe stream).task.isRunning = false)) ∧
      ∃ rest u, (∀ a ∈ rest, a.ongoing) ∧ run (step capacity) t rest = some u ∧
        Quiet (step capacity) Action.ongoing u ∧ AtRest capacity u ∧
        (.cancel ∉ as → u.caller = .dropped →
          ∀ stream, (u.pipe stream).task.isRunning = false) := by
  have hpaid := paid_potential capacity
  have hall : ∀ a ∈ as, True := fun _ _ => trivial
  refine ⟨?_, fun hquiet => ⟨atRest_of_quiet hquiet, fun hcancel =>
    stopped_of_quiet h hcancel hquiet⟩, ?_⟩
  · have hlength := hpaid.length_le hall trivial h
    have hpotential : spawned.potential = 2 := rfl
    omega
  · have hfree : ∀ a, Action.ongoing a → True ∧ Action.credit a = 0 := by
      intro a ha
      cases a with
      | pipe stream action => cases action <;> first | exact ha.elim | exact ⟨trivial, rfl⟩
      | finish => exact ha.elim
      | join => exact ⟨trivial, rfl⟩
      | cancel => exact ha.elim
      | drop => exact ha.elim
    obtain ⟨rest, u, hongoing, hu, -, hquiet⟩ := hpaid.settles hfree hall trivial h
    refine ⟨rest, u, hongoing, hu, hquiet, atRest_of_quiet hquiet, fun hcancel => ?_⟩
    have hwhole : run (step capacity) spawned (as ++ rest) = some u := by
      rw [run_append, h]
      exact hu
    refine stopped_of_quiet hwhole ?_ hquiet
    rw [List.mem_append, not_or]
    exact ⟨hcancel, fun hmem => hongoing .cancel hmem⟩

/-- The wait for a task that has read a part of a line comes to rest. -/
theorem drain_settles_cutLine :
    ∃ t rest u, run (step 3) spawned (cutLine.take 5) = some t ∧ (∀ a ∈ rest, a.ongoing) ∧
      run (step 3) t rest = some u ∧ Quiet (step 3) Action.ongoing u ∧ AtRest 3 u := by
  have hrun : ∃ t, run (step 3) spawned (cutLine.take 5) = some t := ⟨_, rfl⟩
  obtain ⟨t, ht⟩ := hrun
  obtain ⟨rest, u, hongoing, hu, hquiet, hrest, -⟩ := (drain_settles ht).2.2
  exact ⟨t, rest, u, ht, hongoing, hu, hquiet, hrest⟩

end Torlane.Drain
