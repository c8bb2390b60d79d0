import Torlane.Controller.RoundTrip
import Torlane.Controller.Session
import Torlane.Controller.Words

/-!
# Waiting for the bootstrap

`bootstrap_progress` and `ControlClient::wait_bootstrap` of `src/tor/controller/client.rs`. The
progress is searched for in a text that the server fills with its own words, some of them in quotes
and free in their content. `waitBootstrap_encode` says that none of this content is taken for the
progress, so that the wait ends with the first reply whose progress is 100.
-/

namespace Torlane.Control

open Text

/-- The key under which the phase is reported. -/
def bootstrapKey : Text := "status/bootstrap-phase".toList

/-- The text of a line in which the phase may be. -/
def phaseText : ControlLine → Option Text
  | .text content => some content
  | .keyValue key value => if key = bootstrapKey then some value else none
  | .data _ _ => none

/-- `bootstrap_progress`: the first line that has a progress decides. -/
def bootstrapProgress (reply : ControlReply) : Option ℕ :=
  reply.lines.findSome? fun line => do
    let value ← phaseText line
    let phase ← afterFirst "BOOTSTRAP".toList value
    let progress ← field (controlWords phase) "PROGRESS".toList
    parseUnsigned 255 progress

/-- What `wait_bootstrap` waits for: the result of `GETINFO status/bootstrap-phase`, or the
timeout. -/
inductive Poll where
  | answered (result : CommandResult)
  | elapsed

/-- `ControlClient::wait_bootstrap`, unless it still waits. It sends the same command again and
again, and treats each result as `command_success` does. -/
def waitBootstrap : List Poll → Option (Except ClientError Unit)
  | [] => none
  | .elapsed :: _ => some (.error .bootstrapTimeout)
  | .answered result :: polls =>
    match accepted result with
    | .error error => some (.error error)
    | .ok reply =>
      if bootstrapProgress reply = some 100 then some (.ok ()) else waitBootstrap polls

/-- The results of as many commands, one after the other. -/
def receiveReplies : ℕ → Reader → List CommandResult
  | 0, _ => []
  | n + 1, r => (receiveReply r).1 :: receiveReplies n (receiveReply r).2

/-! ## What a server reports -/

/-- A word that is not the marker of a phase. -/
abbrev PhaseWord := { word : Text // IsBare word ∧ ¬ "BOOTSTRAP".toList <:+: word }

/-- A key of a quoted value. -/
abbrev PhaseKey := { key : Text // IsBare key }

/-- A phase, with further values in quotes. -/
structure BootstrapPhase where
  severity : PhaseWord
  progress : UInt8
  tag : PhaseWord
  values : List (PhaseKey × Line)

namespace BootstrapPhase

variable (phase : BootstrapPhase)

/-- The text of the line that reports the phase. -/
def payload : Text :=
  bootstrapKey ++ '=' :: (phase.severity.val ++ " BOOTSTRAP PROGRESS=".toList ++
    decimal phase.progress.toNat ++ " TAG=".toList ++ phase.tag.val ++
      phase.values.flatMap fun (key, value) => ' ' :: (key.val ++ '=' :: quote value))

/-- The fields behind the marker. -/
def fields : List Field :=
  ⟨"PROGRESS".toList, decimal phase.progress.toNat, false⟩ :: ⟨"TAG".toList, phase.tag, false⟩ ::
    phase.values.map fun (key, value) => ⟨key, value, true⟩

/-- The text is the marker with the fields behind it. -/
theorem payload_eq :
    phase.payload = bootstrapKey ++ '=' :: (phase.severity.val ++ ' ' :: ("BOOTSTRAP".toList ++
      phase.fields.flatMap fun f => ' ' :: f.text)) := by
  unfold payload fields
  simp [Field.text, List.flatMap_map]

/-- The digits of a number are bare. -/
theorem isBare_decimal (n : ℕ) : IsBare (decimal n) := by
  intro c hmem
  refine ⟨isWhitespace_of_isDigit (isDigit_of_mem_decimal hmem), ?_⟩
  rintro rfl
  exact notMem_decimal (by decide) n hmem

/-- The fields are read as they are written. -/
theorem wellFormed_fields : ∀ f ∈ phase.fields, f.WellFormed := by
  intro f hf
  rcases List.mem_cons.mp hf with rfl | hf
  · exact ⟨(by decide : IsBare "PROGRESS".toList), fun _ => isBare_decimal _⟩
  rcases List.mem_cons.mp hf with rfl | hf
  · exact ⟨(by decide : IsBare "TAG".toList), fun _ => phase.tag.property.1⟩
  · obtain ⟨⟨key, value⟩, -, rfl⟩ := List.mem_map.mp hf
    exact ⟨key.property, by simp⟩

/-- A field has no line break if its value has none. -/
theorem isLine_field {f : Field} (hf : f.WellFormed) (hvalue : IsLine f.value) : IsLine f.text := by
  have hequals : IsLine (f.key ++ ['=']) := hf.key.isLine.append (by decide)
  have htext : f.text = f.key ++ ['='] ++ if f.quoted then quote f.value else f.value := by
    simp [Field.text]
  rw [htext]
  split_ifs
  · exact hequals.append (isLine_quote hvalue)
  · exact hequals.append hvalue

/-- The text has no line break. -/
theorem isLine_payload : IsLine phase.payload := by
  have hvalue : ∀ f ∈ phase.fields, IsLine f.value := by
    intro f hf
    rcases List.mem_cons.mp hf with rfl | hf
    · exact (isBare_decimal _).isLine
    rcases List.mem_cons.mp hf with rfl | hf
    · exact phase.tag.property.1.isLine
    · obtain ⟨⟨key, value⟩, -, rfl⟩ := List.mem_map.mp hf
      exact value.property
  have hfields : IsLine (phase.fields.flatMap fun f => ' ' :: f.text) := by
    intro c hmem
    obtain ⟨f, hf, hmem⟩ := List.mem_flatMap.mp hmem
    have hspace : IsLine [' '] := by decide
    exact hspace.append (isLine_field (phase.wellFormed_fields f hf) (hvalue f hf)) c hmem
  have hmarker : IsLine ([' '] ++ "BOOTSTRAP".toList) := by decide
  have hkey : IsLine (bootstrapKey ++ ['=']) := by decide
  have htext : phase.payload = (bootstrapKey ++ ['=']) ++ (phase.severity.val ++
      (([' '] ++ "BOOTSTRAP".toList) ++ phase.fields.flatMap fun f => ' ' :: f.text)) := by
    rw [phase.payload_eq]
    simp
  rw [htext]
  exact hkey.append (phase.severity.property.1.isLine.append (hmarker.append hfields))

/-- The reply that reports the phase. -/
def reply : WireReply where
  code := successCode
  items := [.line ⟨phase.payload, phase.isLine_payload⟩]
  final := okText

/-- The progress that is found is the reported one. -/
theorem bootstrapProgress_read :
    bootstrapProgress phase.reply.read = some phase.progress.toNat := by
  have hline : parsePayload phase.payload = .keyValue bootstrapKey (phase.severity.val ++ ' ' ::
      ("BOOTSTRAP".toList ++ phase.fields.flatMap fun f => ' ' :: f.text)) := by
    rw [phase.payload_eq]
    exact parsePayload_keyValue (by decide) (by decide)
  have hmarker : afterFirst "BOOTSTRAP".toList (phase.severity.val ++ ' ' ::
      ("BOOTSTRAP".toList ++ phase.fields.flatMap fun f => ' ' :: f.text)) =
      some (phase.fields.flatMap fun f => ' ' :: f.text) := by
    rw [afterFirst_append (by decide) phase.severity.property.2, afterFirst_self]
  have hwords : controlWords (phase.fields.flatMap fun f => ' ' :: f.text) =
      phase.fields.map (·.word) := controlWords_fields phase.wellFormed_fields
  have hprogress : field (phase.fields.map (·.word)) "PROGRESS".toList =
      some (decimal phase.progress.toNat) := field_found _ _ _
  have hnumber : parseUnsigned 255 (decimal phase.progress.toNat) = some phase.progress.toNat :=
    parseUnsigned_decimal (Nat.le_of_lt_succ phase.progress.toNat_lt)
  have hread : phase.reply.read.lines =
      [parsePayload phase.payload, parsePayload "OK".toList] := rfl
  unfold bootstrapProgress
  rw [hread, hline, List.findSome?_cons]
  simp only [phaseText, if_true, Option.bind_eq_bind, Option.bind_some, hmarker, hwords, hprogress,
    hnumber]

end BootstrapPhase

/-- The replies are received one after the other. -/
theorem receiveReplies_encode (phases : List BootstrapPhase) (rest : List UInt8)
    (ending : StreamEnd) :
    receiveReplies phases.length ⟨phases.flatMap (·.reply.encode) ++ rest, ending⟩ =
      phases.map fun phase => .ok phase.reply.read := by
  induction phases with
  | nil => rfl
  | cons phase phases ih =>
    rw [List.flatMap_cons, List.append_assoc, List.length_cons, receiveReplies,
      receiveReply_encode, ih, List.map_cons]

/-- The wait is over with the first reply whose progress is 100. -/
theorem waitBootstrap_append (phases : List BootstrapPhase) (later : List Poll) :
    waitBootstrap ((phases.map fun phase => .answered (.ok phase.reply.read)) ++ later) =
      if ∃ phase ∈ phases, phase.progress = 100 then some (.ok ()) else waitBootstrap later := by
  induction phases with
  | nil => simp
  | cons phase phases ih =>
    have haccepted : accepted (.ok phase.reply.read) = .ok phase.reply.read :=
      accepted_eq_ok_iff.mpr ⟨rfl, rfl⟩
    have hdone : phase.progress.toNat = 100 ↔ phase.progress = 100 := by
      rw [← UInt8.toNat_inj]
      rfl
    rw [List.map_cons, List.cons_append, waitBootstrap, haccepted]
    simp only [phase.bootstrapProgress_read, Option.some.injEq, hdone, ih, List.exists_mem_cons_iff]
    by_cases hphase : phase.progress = 100
    · rw [if_pos hphase, if_pos (.inl hphase)]
    · rw [if_neg hphase]
      simp only [hphase, false_or]

/-- `read_reply` and `bootstrap_progress` find the reported progress in every phase. With a
connection that reports phases, the wait has ended after any number of replies if and only if the
progress of one of them is 100, unless the timeout elapses first. -/
theorem waitBootstrap_encode :
    (∀ (phase : BootstrapPhase) (rest : List UInt8) (ending : StreamEnd), ∃ reply,
      readReply ⟨phase.reply.encode ++ rest, ending⟩ = (.ok (some reply), ⟨rest, ending⟩) ∧
        bootstrapProgress reply = some phase.progress.toNat) ∧
    ∀ (phases : List BootstrapPhase) (rest : List UInt8) (ending : StreamEnd),
      let polls := (receiveReplies phases.length
        ⟨phases.flatMap (·.reply.encode) ++ rest, ending⟩).map Poll.answered
      waitBootstrap polls =
        (if ∃ phase ∈ phases, phase.progress = 100 then some (.ok ()) else none) ∧
      ∀ later, waitBootstrap (polls ++ .elapsed :: later) =
        some (if ∃ phase ∈ phases, phase.progress = 100 then .ok ()
          else .error .bootstrapTimeout) := by
  constructor
  · intro phase rest ending
    exact ⟨_, readReply_of_encode _ rest ending, phase.bootstrapProgress_read⟩
  · intro phases rest ending polls
    have hpolls : polls = phases.map fun phase => .answered (.ok phase.reply.read) := by
      show (receiveReplies _ _).map Poll.answered = _
      rw [receiveReplies_encode, List.map_map]
      rfl
    rw [hpolls]
    constructor
    · have hwait := waitBootstrap_append phases []
      rwa [List.append_nil] at hwait
    · intro later
      rw [waitBootstrap_append, apply_ite some]
      rfl

end Torlane.Control
