import Torlane.Controller.Client
import Torlane.Controller.RoundTrip
import Torlane.Dialogue
import Torlane.Pool.Lane

/-!
# Sessions

What a caller of `ControlClient` does, as a dialogue with the control server: the questions are the
commands, and an answer is the result of one, whatever made it. `commandSuccess` is the one way in
which the operations of `src/tor/controller/client.rs` and `auth.rs` send a command. They are
`Careful`: a command that does not succeed is the last one (`careful_commandSuccess`).
-/

namespace Torlane

open Text

/-- `ControlReply::is_success`. -/
def ControlReply.isSuccess (reply : ControlReply) : Bool := reply.code = 250

/-- The text of a line in a message. -/
def ControlLine.message : ControlLine → Text
  | .text content => content
  | .keyValue key value => key ++ '=' :: value
  | .data key value => key ++ '=' :: value

/-- `ControlReply::message`. -/
def ControlReply.message (reply : ControlReply) : Text :=
  "; ".toList.intercalate (reply.lines.map (·.message))

/-- `AuthMethod`. -/
inductive AuthMethod where
  | safeCookie
  | cookie
  | hashedPassword
  | null
  | unknown (name : Text)
  deriving DecidableEq, Repr

/-- `AuthMethod::parse`. -/
def AuthMethod.parse (value : Text) : AuthMethod :=
  if value = "SAFECOOKIE".toList then .safeCookie
  else if value = "COOKIE".toList then .cookie
  else if value = "HASHEDPASSWORD".toList then .hashedPassword
  else if value = "NULL".toList then .null
  else .unknown value

namespace Control

/-- `TorControlError`: the errors of a single command, and those of the operations that send
commands and read what is in the replies. -/
inductive ClientError where
  | command (error : TorControlError)
  | protocol (message : Text)
  | commandFailed (code : ℕ) (message : Text)
  | missingCookieFile
  | unsupportedAuthentication (methods : List AuthMethod)
  | invalidCookieLength (length : ℕ)
  | missingChallengeField (name : Text)
  | invalidHex (name value : Text)
  | invalidServerHash
  | random (error : SysError)
  | bootstrapTimeout
  | socksListenerCount (count : ℕ)
  deriving DecidableEq, Repr

/-- A caller of the client. -/
abbrev Session (α : Type) := ExceptT ClientError (Dialogue Text CommandResult) α

namespace Session

variable {α β : Type}

/-- A result that is known without a command. -/
def ofExcept (x : Except ClientError α) : Session α := ExceptT.mk (.ret x)

/-- The commands that are sent, with these results. -/
def sent (s : Session α) (results : List CommandResult) : List Text := Dialogue.sent s.run results

/-- The session's result, with these results of its commands, unless it waits for a further one. -/
def outcome (s : Session α) (results : List CommandResult) : Option (Except ClientError α) :=
  Dialogue.outcome s.run results

end Session

/-- `ControlClient::command`: a command with a line break is not sent. -/
def command (text : Text) : Session ControlReply :=
  if IsLine text then ExceptT.mk (.ask text fun result => .ret (result.mapError .command))
  else throw (.command .invalidCommand)

/-- `ControlClient::command_success`. -/
def commandSuccess (text : Text) : Session ControlReply := do
  let reply ← command text
  if reply.isSuccess then pure reply else throw (.commandFailed reply.code reply.message)

/-- What `command_success` makes of a result. -/
def accepted (result : CommandResult) : Except ClientError ControlReply :=
  match result with
  | .error error => .error (.command error)
  | .ok reply =>
    if reply.isSuccess then .ok reply else .error (.commandFailed reply.code reply.message)

/-- The command was answered with status 250. -/
def Succeeded (result : CommandResult) : Prop := ∃ reply, result = .ok reply ∧ reply.code = 250

/-- An encoded reply is the result of a command, whatever follows it. -/
theorem receiveReply_encode (sent : WireReply) (rest : List UInt8) (ending : StreamEnd) :
    receiveReply ⟨sent.encode ++ rest, ending⟩ = (.ok sent.read, ⟨rest, ending⟩) := by
  unfold receiveReply
  rw [readReply_of_encode]

/-- A result is accepted if the command was answered with status 250. -/
theorem accepted_eq_ok_iff {result : CommandResult} {reply : ControlReply} :
    accepted result = .ok reply ↔ result = .ok reply ∧ reply.code = 250 := by
  unfold accepted
  cases result with
  | error error => simp
  | ok reply' =>
    by_cases hcode : reply'.code = 250
    · simp only [ControlReply.isSuccess, hcode, decide_true, if_true, Except.ok.injEq]
      constructor
      · rintro rfl
        exact ⟨rfl, hcode⟩
      · exact fun h => h.1
    · simp only [ControlReply.isSuccess, hcode, decide_false, Bool.false_eq_true, if_false,
        reduceCtorEq, Except.ok.injEq, false_iff, not_and]
      rintro rfl
      exact hcode

section

variable {α β : Type} {text : Text}

/-- A command is sent, and the session goes on with the reply if it is accepted. -/
theorem commandSuccess_run (h : IsLine text) :
    (commandSuccess text).run = .ask text fun result => .ret (accepted result) := by
  unfold commandSuccess command
  rw [if_pos h]
  show Dialogue.ask text _ = _
  congr 1
  funext result
  cases result with
  | error error => rfl
  | ok reply =>
    show ExceptT.run (if reply.isSuccess then _ else _) = _
    by_cases hsuccess : reply.isSuccess
    · simp only [accepted, hsuccess, if_true]
      rfl
    · simp only [accepted, hsuccess]
      rfl

/-- How a session goes on after a command. -/
theorem commandSuccess_bind_run (h : IsLine text) (f : ControlReply → Session β) :
    (commandSuccess text >>= f).run =
      .ask text fun result =>
        match accepted result with
        | .error error => .ret (.error error)
        | .ok reply => (f reply).run := by
  show Dialogue.bind (commandSuccess text).run _ = _
  rw [commandSuccess_run h]
  show Dialogue.ask text (fun result => ExceptT.bindCont f (accepted result)) = _
  congr 1
  funext result
  cases accepted result <;> rfl

/-- After a reply with status 250, the session goes on. -/
theorem sent_commandSuccess (h : IsLine text) (f : ControlReply → Session β) {reply : ControlReply}
    (hcode : reply.code = 250) (results : List CommandResult) :
    (commandSuccess text >>= f).sent (.ok reply :: results) = text :: (f reply).sent results := by
  have haccepted : accepted (.ok reply) = .ok reply := accepted_eq_ok_iff.mpr ⟨rfl, hcode⟩
  unfold Session.sent
  rw [commandSuccess_bind_run h]
  simp only [Dialogue.sent, haccepted]

/-- Either a command is the last one that is sent, or it has succeeded, and the session goes on. -/
theorem sent_commandSuccess_cases (h : IsLine text) (f : ControlReply → Session β)
    (results : List CommandResult) :
    (commandSuccess text >>= f).sent results = [text] ∨
      ∃ reply results', results = .ok reply :: results' ∧ reply.code = 250 ∧
        (commandSuccess text >>= f).sent results = text :: (f reply).sent results' := by
  cases results with
  | nil =>
    left
    unfold Session.sent
    rw [commandSuccess_bind_run h]
    rfl
  | cons result results =>
    cases hresult : accepted result with
    | error error =>
      left
      unfold Session.sent
      rw [commandSuccess_bind_run h]
      simp only [Dialogue.sent, hresult]
    | ok reply =>
      obtain ⟨rfl, hcode⟩ := accepted_eq_ok_iff.mp hresult
      exact .inr ⟨reply, results, rfl, hcode, sent_commandSuccess h f hcode results⟩

/-- With a value that is known, the session goes on. -/
theorem ofExcept_ok_bind {α : Type} (a : α) (f : α → Session β) :
    Session.ofExcept (.ok a) >>= f = f a := rfl

/-- An error that is known ends the session. -/
theorem sent_ofExcept_error {α : Type} (error : ClientError) (f : α → Session β)
    (results : List CommandResult) : (Session.ofExcept (.error error) >>= f).sent results = [] :=
  rfl

/-- A result that is known ends the session, or the session goes on. -/
theorem sent_ofExcept_cases {α : Type} (x : Except ClientError α) (f : α → Session β)
    (results : List CommandResult) :
    (Session.ofExcept x >>= f).sent results = [] ∨
      ∃ a, x = .ok a ∧ (Session.ofExcept x >>= f).sent results = (f a).sent results := by
  cases x with
  | error error => exact .inl (sent_ofExcept_error error f results)
  | ok a => exact .inr ⟨a, rfl, by rw [ofExcept_ok_bind]⟩

/-- After a command, nothing else is sent than what the session may go on with. -/
theorem sent_commandSuccess_prefix (h : IsLine text) {f : ControlReply → Session β}
    {commands : List Text} (hf : ∀ reply results, (f reply).sent results <+: commands)
    (results : List CommandResult) :
    ∃ rest, rest <+: commands ∧ (commandSuccess text >>= f).sent results = text :: rest := by
  rcases sent_commandSuccess_cases h f results with hsent | ⟨reply, results', -, -, hsent⟩
  · exact ⟨[], List.nil_prefix, hsent⟩
  · exact ⟨_, hf reply results', hsent⟩

/-- The outcome of a session that starts with a command. -/
theorem outcome_commandSuccess (h : IsLine text) (f : ControlReply → Session β)
    (result : CommandResult) (results : List CommandResult) :
    (commandSuccess text >>= f).outcome (result :: results) =
      match accepted result with
      | .error error => some (.error error)
      | .ok reply => (f reply).outcome results := by
  unfold Session.outcome
  rw [commandSuccess_bind_run h]
  cases hresult : accepted result with
  | error error => simp only [Dialogue.outcome, hresult]
  | ok reply => simp only [Dialogue.outcome, hresult]

/-- A command that does not succeed is the last one. -/
theorem careful_commandSuccess (text : Text) :
    Dialogue.Careful Succeeded (commandSuccess text).run := by
  by_cases h : IsLine text
  · rw [commandSuccess_run h]
    refine .ask (fun result hbad => ?_) fun result => .ret _
    cases hresult : accepted result with
    | error error => exact ⟨error, rfl⟩
    | ok reply => exact absurd ⟨reply, accepted_eq_ok_iff.mp hresult⟩ hbad
  · unfold commandSuccess command
    rw [if_neg h]
    exact .ret _

end

end Control

end Torlane
