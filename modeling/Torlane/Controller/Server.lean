import Torlane.Controller.Bootstrap
import Torlane.Controller.Challenge
import Torlane.Controller.Handshake
import Torlane.Controller.Listeners

/-!
# The other side of the connection

What Tor answers to the commands of a startup, as the control protocol describes it, and what it
then knows of the connection. It answers with the replies that the client has been shown to read
back: the report on its methods, the challenge, the phases and the listeners. Of a client that has
not authenticated it takes no other command.

Nothing here is translated from the source. `Tor.answer` is what the client is for, and the lemmas
below say what it answers to each command that the client sends.
-/

namespace Torlane.Control

open Text

/-! ## What Tor is asked -/

/-- What a command asks for. -/
inductive Question where
  | protocolInfo
  | challenge (clientNonce : List UInt8)
  | authenticate (proof : List UInt8)
  | takeOwnership
  | resetOwner
  | phase
  | listeners
  | other
  deriving DecidableEq, Repr

/-- The bytes that are spelled, if any. -/
def spelledBytes (digits : Text) : Option (List UInt8) := (decodeHex [] digits).toOption

/-- What a command asks for, by its text: a keyword, and what follows it. -/
def Question.ofCommand (command : Text) : Question :=
  match splitOnce ' ' command with
  | some (keyword, argument) =>
    if keyword = "PROTOCOLINFO".toList then .protocolInfo
    else if keyword = "AUTHENTICATE".toList then
      (spelledBytes argument).elim .other .authenticate
    else if keyword = "AUTHCHALLENGE".toList then
      ((stripPrefix "SAFECOOKIE ".toList argument).bind spelledBytes).elim .other .challenge
    else if keyword = "RESETCONF".toList ∧ argument = "__OwningControllerProcess".toList then
      .resetOwner
    else if keyword = "GETINFO".toList ∧ argument = bootstrapKey then .phase
    else if keyword = "GETINFO".toList ∧ argument = listenersKey then .listeners
    else .other
  | none =>
    if command = "AUTHENTICATE".toList then .authenticate []
    else if command = "TAKEOWNERSHIP".toList then .takeOwnership
    else .other

/-! ## What Tor answers -/

/-- A Tor, as it is configured, and what it reports. -/
structure Tor where
  report : InfoReport
  infoLines : List InfoLine
  infoEnd : OtherLine
  auth_mem : .auth ∈ infoLines
  cookie : Vector UInt8 32
  /-- The nonce of the connection. -/
  serverNonce : Vector UInt8 32
  /-- The keyed hash function. -/
  hmac : List UInt8 → List UInt8 → Vector UInt8 32
  /-- The phase that each question for it finds. -/
  phases : ℕ → BootstrapPhase
  listeners : List Listener

/-- What Tor knows of a connection. -/
structure Connection where
  clientNonce : Option (List UInt8)
  authenticated : Bool
  /-- Tor ends when the connection does. -/
  owned : Bool
  /-- Tor does not end with another process any more. -/
  ownerReset : Bool
  /-- How often the phase has been asked for. -/
  asked : ℕ
  deriving DecidableEq, Repr

/-- A connection on which nothing has been said. -/
def Connection.new : Connection := ⟨none, false, false, false, 0⟩

/-- A reply of one line. -/
def shortReply (code : Fin 1000) (text : Line) : WireReply := ⟨code, [], text⟩

/-- The reply to a command that has been carried out. -/
def doneReply : WireReply := shortReply successCode okText

/-- The reply to a proof that is none. -/
def refusal : WireReply := shortReply ⟨515, by decide⟩ ⟨"Authentication failed".toList, by decide⟩

/-- The reply to a client that has not authenticated. -/
def notYet : WireReply := shortReply ⟨514, by decide⟩ ⟨"Authentication required.".toList, by decide⟩

/-- The reply to a command that is not known. -/
def unrecognized : WireReply :=
  shortReply ⟨510, by decide⟩ ⟨"Unrecognized command".toList, by decide⟩

/-- The fields of the challenge are read as they are written. -/
theorem wellFormed_challengeFields (serverHash serverNonce : Vector UInt8 32) :
    ∀ f ∈ challengeFields serverHash serverNonce, f.WellFormed ∧ IsLine f.value := by
  have hhash : IsBare "SERVERHASH".toList := by decide
  have hnonce : IsBare "SERVERNONCE".toList := by decide
  refine List.forall_mem_cons.mpr ⟨⟨⟨hhash, fun _ => isBare_encodeHex _⟩, isLine_encodeHex _⟩, ?_⟩
  exact List.forall_mem_singleton.mpr ⟨⟨hnonce, fun _ => isBare_encodeHex _⟩, isLine_encodeHex _⟩

/-- The line of the challenge has no line break. -/
theorem isLine_challengeLine (serverHash serverNonce : Vector UInt8 32) :
    IsLine (challengeLine serverHash serverNonce) := by
  have hkeyword : IsLine "AUTHCHALLENGE".toList := by decide
  have hspace : IsLine [' '] := by decide
  refine hkeyword.append fun c hmem => ?_
  obtain ⟨f, hf, hmem⟩ := List.mem_flatMap.mp hmem
  obtain ⟨hformed, hvalue⟩ := wellFormed_challengeFields serverHash serverNonce f hf
  exact hspace.append (BootstrapPhase.isLine_field hformed hvalue) c hmem

namespace Tor

variable (tor : Tor)

/-- The methods that a client may authenticate by. -/
def methods : List AuthMethod := tor.report.methods.map fun method => AuthMethod.parse method.val

/-- The hash over the cookie and both nonces. -/
def hash (key clientNonce : List UInt8) : Vector UInt8 32 :=
  tor.hmac key (tor.cookie.toList ++ clientNonce ++ tor.serverNonce.toList)

/-- Whether Tor takes the bytes for a proof that the client may use the connection. After a
challenge, that is the hash. -/
def admits (s : Connection) (proof : List UInt8) : Bool :=
  match s.clientNonce with
  | some clientNonce => proof = (tor.hash clientHashKey clientNonce).toList
  | none => .null ∈ tor.methods ∨ (.cookie ∈ tor.methods ∧ proof = tor.cookie.toList)

/-- The reply to a challenge. -/
def challengeReply (clientNonce : List UInt8) : WireReply :=
  shortReply successCode
    ⟨challengeLine (tor.hash serverHashKey clientNonce) tor.serverNonce, isLine_challengeLine _ _⟩

/-- The reply to a command, and the connection after it. -/
def answer (s : Connection) (command : Text) : WireReply × Connection :=
  match Question.ofCommand command with
  | .protocolInfo => (tor.report.reply tor.infoLines tor.infoEnd, s)
  | .challenge clientNonce =>
    if .safeCookie ∈ tor.methods then
      (tor.challengeReply clientNonce, { s with clientNonce := some clientNonce })
    else (refusal, s)
  | .authenticate proof =>
    if tor.admits s proof then (doneReply, { s with authenticated := true }) else (refusal, s)
  | question =>
    if ¬ s.authenticated then (notYet, s)
    else
      match question with
      | .takeOwnership => (doneReply, { s with owned := true })
      | .resetOwner => (doneReply, { s with ownerReset := true })
      | .phase => ((tor.phases s.asked).reply, { s with asked := s.asked + 1 })
      | .listeners => (listenersReply tor.listeners, s)
      | _ => (unrecognized, s)

end Tor

/-! ## The commands of the client -/

/-- A keyword ends at the first space. -/
theorem splitOnce_keyword {keyword : Text} (h : ' ' ∉ keyword) (argument : Text) :
    splitOnce ' ' (keyword ++ ' ' :: argument) = some (keyword, argument) :=
  splitOnce_eq_some_iff.mpr ⟨rfl, h⟩

/-- Printed bytes are spelled. -/
theorem spelledBytes_encodeHex (bytes : List UInt8) :
    spelledBytes (encodeHex bytes) = some bytes := by
  rw [spelledBytes, decodeHex_encodeHex]
  rfl

/-- The client's challenge is one. -/
theorem ofCommand_challenge (clientNonce : Vector UInt8 32) :
    Question.ofCommand (challengeCommand clientNonce) = .challenge clientNonce.toList := by
  have hcommand : challengeCommand clientNonce =
      "AUTHCHALLENGE".toList ++ ' ' :: ("SAFECOOKIE ".toList ++ encodeHex clientNonce.toList) := by
    have hkeyword : "AUTHCHALLENGE SAFECOOKIE ".toList =
        "AUTHCHALLENGE".toList ++ ' ' :: "SAFECOOKIE ".toList := by decide
    exact (congrArg (· ++ encodeHex clientNonce.toList) hkeyword).trans (List.append_assoc _ _ _)
  unfold Question.ofCommand
  rw [hcommand, splitOnce_keyword (by decide)]
  dsimp only
  rw [if_neg (by decide), if_neg (by decide), if_pos rfl, stripPrefix_append, Option.bind_some,
    spelledBytes_encodeHex]
  rfl

/-- The bytes by which the client authenticates are its proof. -/
theorem ofCommand_authenticate (bytes : Vector UInt8 32) :
    Question.ofCommand (authenticateCommand bytes) = .authenticate bytes.toList := by
  have hcommand : authenticateCommand bytes =
      "AUTHENTICATE".toList ++ ' ' :: encodeHex bytes.toList := by
    have hkeyword : "AUTHENTICATE ".toList = "AUTHENTICATE".toList ++ [' '] := by decide
    exact (congrArg (· ++ encodeHex bytes.toList) hkeyword).trans (List.append_assoc _ _ _)
  unfold Question.ofCommand
  rw [hcommand, splitOnce_keyword (by decide)]
  dsimp only
  rw [if_neg (by decide), if_pos rfl, spelledBytes_encodeHex]
  rfl

namespace Tor

variable (tor : Tor) {s : Connection}

/-- The report. -/
theorem answer_protocolInfo (s : Connection) :
    tor.answer s protocolInfoCommand = (tor.report.reply tor.infoLines tor.infoEnd, s) := by
  have hquestion : Question.ofCommand protocolInfoCommand = .protocolInfo := by decide
  unfold answer
  rw [hquestion]

/-- The challenge is answered where SAFECOOKIE is a method. -/
theorem answer_challenge (h : .safeCookie ∈ tor.methods) (s : Connection)
    (clientNonce : Vector UInt8 32) :
    tor.answer s (challengeCommand clientNonce) =
      (tor.challengeReply clientNonce.toList,
        { s with clientNonce := some clientNonce.toList }) := by
  unfold answer
  rw [ofCommand_challenge]
  exact if_pos h

/-- A proof is admitted, or refused. -/
theorem answer_authenticate (s : Connection) (bytes : Vector UInt8 32) :
    tor.answer s (authenticateCommand bytes) =
      if tor.admits s bytes.toList then (doneReply, { s with authenticated := true })
      else (refusal, s) := by
  unfold answer
  rw [ofCommand_authenticate]

/-- Where NULL is a method, no proof is needed before a challenge. -/
theorem answer_null (h : .null ∈ tor.methods) (hs : s.clientNonce = none) :
    tor.answer s "AUTHENTICATE".toList = (doneReply, { s with authenticated := true }) := by
  have hquestion : Question.ofCommand "AUTHENTICATE".toList = .authenticate [] := by decide
  have hadmits : tor.admits s [] = true := by
    unfold admits
    rw [hs]
    exact decide_eq_true (.inl h)
  unfold answer
  rw [hquestion]
  exact if_pos hadmits

/-- The ownership is given to a client that has authenticated. -/
theorem answer_takeOwnership (hs : s.authenticated = true) :
    tor.answer s "TAKEOWNERSHIP".toList = (doneReply, { s with owned := true }) := by
  have hquestion : Question.ofCommand "TAKEOWNERSHIP".toList = .takeOwnership := by decide
  unfold answer
  rw [hquestion]
  exact if_neg (not_not_intro hs)

/-- So is the other owner forgotten. -/
theorem answer_resetOwner (hs : s.authenticated = true) :
    tor.answer s "RESETCONF __OwningControllerProcess".toList =
      (doneReply, { s with ownerReset := true }) := by
  have hquestion :
      Question.ofCommand "RESETCONF __OwningControllerProcess".toList = .resetOwner := by
    decide
  unfold answer
  rw [hquestion]
  exact if_neg (not_not_intro hs)

/-- The phase is reported. -/
theorem answer_phase (hs : s.authenticated = true) :
    tor.answer s "GETINFO status/bootstrap-phase".toList =
      ((tor.phases s.asked).reply, { s with asked := s.asked + 1 }) := by
  have hquestion : Question.ofCommand "GETINFO status/bootstrap-phase".toList = .phase := by decide
  unfold answer
  rw [hquestion]
  exact if_neg (not_not_intro hs)

/-- The listeners are reported. -/
theorem answer_listeners (hs : s.authenticated = true) :
    tor.answer s ("GETINFO ".toList ++ listenersKey) = (listenersReply tor.listeners, s) := by
  have hquestion : Question.ofCommand ("GETINFO ".toList ++ listenersKey) = .listeners := by decide
  unfold answer
  rw [hquestion]
  exact if_neg (not_not_intro hs)

/-! ## What the client reads -/

/-- The client reads the methods and the path. -/
theorem parseProtocolInfo_answer :
    ∃ version, parseProtocolInfo (tor.report.reply tor.infoLines tor.infoEnd).read =
      .ok ⟨tor.methods, tor.report.cookieFile.map (·.val), version⟩ := by
  rw [tor.report.parseProtocolInfo_read, if_pos tor.auth_mem]
  exact ⟨_, rfl⟩

/-- The client reads the hash and the nonce. -/
theorem parseChallenge_answer (clientNonce : List UInt8) :
    parseChallenge (tor.challengeReply clientNonce).read.lines =
      .ok ((tor.hash serverHashKey clientNonce).toList, tor.serverNonce.toList) := by
  generalize hhash : tor.hash serverHashKey clientNonce = hash
  have hline : parsePayload (challengeLine hash tor.serverNonce) =
      .text (challengeLine hash tor.serverNonce) := by
    have hstart : "AUTHCHALLENGE SERVERHASH".toList =
        "AUTHCHALLENGE".toList ++ ' ' :: "SERVERHASH".toList := by decide
    have htext : ∃ value, challengeLine hash tor.serverNonce =
        "AUTHCHALLENGE SERVERHASH".toList ++ '=' :: value := by
      refine ⟨encodeHex hash.toList ++
        [⟨"SERVERNONCE".toList, encodeHex tor.serverNonce.toList, false⟩].flatMap
          fun f : Field => ' ' :: f.text, ?_⟩
      unfold challengeLine challengeFields
      rw [hstart, List.flatMap_cons, List.append_assoc]
      rfl
    obtain ⟨value, htext⟩ := htext
    rw [htext]
    exact parsePayload_text (by decide) (by decide)
  have hread : (tor.challengeReply clientNonce).read.lines =
      [parsePayload (challengeLine (tor.hash serverHashKey clientNonce) tor.serverNonce)] := rfl
  rw [hread, hhash, hline, parseChallenge_challengeLine]

end Tor

end Torlane.Control
